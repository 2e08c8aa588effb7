import CleanSvg.Proofs.CommandLine.Faultless
import CleanSvg.Proofs.CommandLine.Input
import CleanSvg.Proofs.CommandLine.Settings
import CleanSvg.Proofs.Sanitize.Acceptance

/-!
# How a run ends

A run between two files ends in one of three ways, told apart by the exit
status: the output holds the cleaned document, or the document is refused, or
the files do not allow it.  Only the first of them changes the output.  The
limit is that of the settings of the run; a document that is refused lies within
it, unless the size of the input is misstated.
-/

namespace CleanSvg

theorem ParseError.head?_message_ne (cause : ParseError) : cause.message.head? ≠ some 'i' := by
  unfold message
  cases cause <;> simp

theorem SanitizeError.head?_message_eq_iff {cause : SanitizeError} :
    cause.message.head? = some 'i' ↔ ∃ length limit, cause = .inputTooLarge length limit := by
  unfold message
  cases cause with
  | parse cause => simp [cause.head?_message_ne]
  | unexpectedRoot | empty | inputTooLarge => simp

theorem verdict_sanitizeTree_ne_inputTooLarge (root : Element) (length limit : Nat) :
    root.sanitizeTree.verdict ≠ .error (.inputTooLarge length limit) := by
  unfold Element.sanitizeTree
  split
  · simp
  · simp only
    split <;> simp

theorem sanitizeWithin_ne_inputTooLarge
    {most : Nat} {text : Text} (within : Text.byteSize text ≤ most) (length limit : Nat) :
    sanitizeWithin (some most) text ≠ .error (.inputTooLarge length limit) := by
  have unlimited : (some most).filter (fun most => most < Text.byteSize text) = none := by
    simp [within]
  unfold sanitizeWithin sanitizeLogging
  rw [unlimited]
  simp only
  split
  · simp
  · rename_i root read
    split
    · rename_i cause refused
      intro same
      cases same
      exact verdict_sanitizeTree_ne_inputTooLarge root length limit refused
    · simp

theorem sanitizeWithin_of_lt {most : Nat} {text : Text} (beyond : most < Text.byteSize text) :
    sanitizeWithin (some most) text =
      .error (.inputTooLarge (Text.byteSize text) most) := by
  have limited : (some most).filter (fun most => most < Text.byteSize text) = some most := by
    simp [beyond]
  unfold sanitizeWithin sanitizeLogging
  rw [limited]

/-- A document within the limit is never refused in the words for one that is too large. -/
theorem message_ne_inputTooLarge
    {most : Nat} {text : Text} {cause : SanitizeError} (within : Text.byteSize text ≤ most)
    (refused : sanitizeWithin (some most) text = .error cause) (length limit : Nat) :
    cause.message ≠ (SanitizeError.inputTooLarge length limit).message := by
  intro same
  have begins := SanitizeError.head?_message_eq_iff.mpr ⟨length, limit, rfl⟩
  rw [← same] at begins
  obtain ⟨_, _, tooLarge⟩ := SanitizeError.head?_message_eq_iff.mp begins
  rw [tooLarge] at refused
  exact sanitizeWithin_ne_inputTooLarge within _ _ refused

namespace Program

/-- The ways in which a run with given settings can end: what comes of it, its exit status and
what it tells. -/
inductive Ending (faults : Faults) (before after : FileTree) (input output : Text) :
    Except FileError Config → Except Failure Outcome → Nat → Text → Prop where
  | written {config : Config} {text : Text} {sanitized : Sanitized}
      (read : InputRead faults before config.maxInputBytes input (.ok text))
      (within : Text.byteSize text ≤ config.maxInputBytes)
      (accepted : sanitizeWithin (some config.maxInputBytes) text = .ok sanitized)
      (stored : after.read output = .ok sanitized.svg.toBytes) :
      Ending faults before after input output (.ok config) (.ok (.written sanitized.report)) 0
        (if config.report then sanitized.report.line ++ ['\n'] else [])
  | rejected {config : Config} {text : Text} {cause : SanitizeError}
      (read : InputRead faults before config.maxInputBytes input (.ok text))
      (within : Text.byteSize text ≤ config.maxInputBytes)
      (refused : sanitizeWithin (some config.maxInputBytes) text = .error cause)
      (otherReason : ∀ length limit,
        cause.message ≠ (SanitizeError.inputTooLarge length limit).message) :
      Ending faults before after input output (.ok config) (.ok (.rejected cause)) 1
        ("SVGを無害化できませんでした: ".toList ++ cause.message ++ ['\n'])
  /-- Only where the size of the input is not stated as it is. -/
  | outgrown {config : Config} {text : Text} {cause : SanitizeError}
      (read : InputRead faults before config.maxInputBytes input (.ok text))
      (beyond : config.maxInputBytes < Text.byteSize text)
      (misstated : ∃ stated, faults.stated input = some stated ∧
        stated ≠ .ok (Text.byteSize text))
      (tooLarge : cause = .inputTooLarge (Text.byteSize text) config.maxInputBytes) :
      Ending faults before after input output (.ok config) (.ok (.rejected cause)) 1
        ("SVGを無害化できませんでした: ".toList ++ cause.message ++ ['\n'])
  | misconfigured {cause : FileError} :
      Ending faults before after input output (.error cause) (.error (.configuration cause)) 2 []
  | unreadable {config : Config} {failure : Failure}
      (unread : InputRead faults before config.maxInputBytes input (.error failure)) :
      Ending faults before after input output (.ok config) (.error failure) 2 []
  | unwritten {config : Config} {text : Text} {sanitized : Sanitized} {cause : FileError}
      (read : InputRead faults before config.maxInputBytes input (.ok text))
      (within : Text.byteSize text ≤ config.maxInputBytes)
      (accepted : sanitizeWithin (some config.maxInputBytes) text = .ok sanitized)
      (locked : ∀ files, faults.write before output sanitized.svg.toBytes ≠ .ok files) :
      Ending faults before after input output (.ok config)
        (.error (.outputNotWritten output cause)) 2 []

theorem run_writeOutput {path : Option Text} {output : Text}
    (given : filePath? path = some output) (faults : Faults) (svg : Text) (world : World) :
    faults.run (writeOutput path svg) world =
      match faults.write world.files output svg.toBytes with
      | .ok files => (.ok (), { world with files })
      | .error cause => (.error (.outputNotWritten output cause), world) := by
  simp only [writeOutput, given]
  rw [Faults.run_bind, Faults.run_write]
  cases faults.write world.files output svg.toBytes <;> rfl

theorem run_between
    {environment : Environment} {arguments : Arguments} {input output : Text} {faults : Faults}
    {before between after : World} {loaded : Except FileError Config}
    {result : Except Failure Outcome}
    (inputGiven : filePath? arguments.input = some input)
    (outputGiven : filePath? arguments.output = some output)
    (configured : faults.run (loadConfig environment arguments) before = (loaded, between))
    (ran : faults.run (run environment arguments) before = (result, after)) :
    ∃ told, Ending faults between.files after.files input output loaded result
        (exitCode result) told ∧
      after.messages = between.messages ++ told ∧
      (exitCode result ≠ 0 → after.files = between.files) ∧
      FileTree.ChangedOnly (fun location => between.files.locate output = .ok location)
        between.files after.files := by
  rw [run, Faults.run_bind, configured] at ran
  cases loaded with
  | error cause =>
      cases ran
      exact ⟨_, .misconfigured, by simp, fun _ => rfl, .refl _ _⟩
  | ok config =>
      obtain ⟨document, reading, read⟩ := run_readFile faults config.maxInputBytes input between
      simp only [readInput, inputGiven] at ran
      rw [Faults.run_bind, reading] at ran
      cases document with
      | error failure =>
          cases ran
          exact ⟨_, .unreadable read, by simp, fun _ => rfl, .refl _ _⟩
      | ok text =>
          simp only at ran
          cases cleaned : sanitizeWithin (some config.maxInputBytes) text with
          | error cause =>
              rw [cleaned] at ran
              cases ran
              rcases Nat.lt_or_ge config.maxInputBytes (Text.byteSize text) with beyond | within
              · have tooLarge := (sanitizeWithin_of_lt beyond).symm.trans cleaned
                cases tooLarge
                exact ⟨_, .outgrown read beyond (read.misstated beyond) rfl,
                  by simp, fun _ => rfl, .refl _ _⟩
              · have otherReason := message_ne_inputTooLarge within cleaned
                exact ⟨_, .rejected read within cleaned otherReason, by simp, fun _ => rfl,
                  .refl _ _⟩
          | ok sanitized =>
              have within := (sanitizeWithin_eq_ok_iff.mp cleaned).1 _ rfl
              rw [cleaned] at ran
              simp only at ran
              rw [Faults.run_bind, run_writeOutput outputGiven] at ran
              cases stored : faults.write between.files output sanitized.svg.toBytes with
              | error cause =>
                  rw [stored] at ran
                  cases ran
                  refine ⟨_, .unwritten read within cleaned ?_, by simp, fun _ => rfl,
                    .refl _ _⟩
                  simp [stored]
              | ok files =>
                  rw [stored] at ran
                  obtain ⟨_, stored⟩ := Faults.write_eq_ok_iff.mp stored
                  have filled := FileTree.read_of_write stored
                  have changed := FileTree.ChangedOnly.of_write stored
                  simp only at ran
                  split at ran
                  all_goals
                    rename_i reported
                    cases ran
                    exact ⟨_, .written read within cleaned filled, by simp [reported],
                      fun failed => absurd rfl failed, changed⟩

theorem Ending.of_changedOnly
    {changeable : Location → Prop} {faults : Faults} {before between after : FileTree}
    {input output : Text} {loaded : Except FileError Config} {result : Except Failure Outcome}
    {status : Nat} {told : Text}
    (changed : FileTree.ChangedOnly changeable before between)
    (fixed : ∀ location, before.locate input = .ok location → ¬ changeable location)
    (ending : Ending faults between after input output loaded result status told) :
    Ending faults before after input output loaded result status told := by
  cases ending with
  | written read within accepted stored =>
      exact .written (read.of_changedOnly changed fixed) within accepted stored
  | rejected read within refused otherReason =>
      exact .rejected (read.of_changedOnly changed fixed) within refused otherReason
  | outgrown read beyond misstated tooLarge =>
      exact .outgrown (read.of_changedOnly changed fixed) beyond misstated tooLarge
  | misconfigured => exact .misconfigured
  | unreadable unread => exact .unreadable (unread.of_changedOnly changed fixed)
  | unwritten read within accepted locked =>
      refine .unwritten (read.of_changedOnly changed fixed) within accepted ?_
      intro files written
      obtain ⟨others, later⟩ := changed.directories.faultyWrite_isOk ⟨files, written⟩
      exact locked others later

/-- A run between two files, of which neither is the backup of a broken configuration, has the
settings that the arguments and the configuration give, and ends in one of three ways.  A run
that does not succeed leaves the output alone, and no run changes anything but the output and
that backup. -/
theorem run_ending
    {environment : Environment} {arguments : Arguments} {input output : Text} {faults : Faults}
    {before after : World} {result : Except Failure Outcome}
    (inputGiven : filePath? arguments.input = some input)
    (outputGiven : filePath? arguments.output = some output)
    (apart : ∀ location, BackedUp environment arguments before.files location →
      before.files.locate input ≠ .ok location ∧ before.files.locate output ≠ .ok location)
    (ran : faults.run (run environment arguments) before = (result, after)) :
    (∃ loaded told, Configured environment arguments faults before.files loaded ∧
      Ending faults before.files after.files input output loaded result (exitCode result) told ∧
        after.messages = before.messages ++ told) ∧
      (exitCode result ≠ 0 → ∀ location, before.files.locate output = .ok location →
        after.files.get? location = before.files.get? location) ∧
      ∀ location, after.files.get? location ≠ before.files.get? location →
        before.files.locate output = .ok location ∨
          BackedUp environment arguments before.files location := by
  obtain ⟨loaded, files, loading, configured, changed⟩ :=
    run_loadConfig environment arguments faults before
  obtain ⟨told, ending, messages, unwritten, stored⟩ :=
    run_between inputGiven outputGiven loading ran
  refine ⟨⟨loaded, told, configured, ?_, messages⟩, ?_, ?_⟩
  · apply ending.of_changedOnly changed
    intro location located backedUp
    exact (apart location backedUp).1 located
  · intro failed location located
    rw [unwritten failed]
    apply changed.elsewhere
    intro backedUp
    exact (apart location backedUp).2 located
  · intro location differs
    by_contra fixed
    obtain ⟨notOutput, notBackup⟩ := not_or.mp fixed
    apply differs
    rw [stored.elsewhere location, changed.elsewhere location notBackup]
    rw [changed.directories.locate_eq_ok_iff]
    exact notOutput

/-- Surroundings with a document, and in the home of the account a configuration that asks for
small documents and for a report. -/
def strictWorld : World where
  files := ⟨[(["home"], .directory), (["home", ".config"], .directory),
    (["home", ".config", "svgscrub"], .directory),
    (["home", ".config", "svgscrub", "config.json"],
      .file "\x7b\"max_input_bytes\": 4, \"report\": true\x7d".toUTF8),
    (["in.svg"], .file "<svg><g onclick='f()'/></svg>".toUTF8)]⟩
  input := ByteArray.empty
  output := ByteArray.empty
  messages := []

def accountEnvironment : Environment :=
  ⟨none, none, none, none, some "home"⟩

/-- Arguments that name both files, and perhaps a limit. -/
def limitedArguments (most : Option Nat) : Arguments :=
  ⟨some "in.svg", some "out.svg", none, most, false, false⟩

def lockedOutput : Faults :=
  { Faults.none with unwritable := fun path =>
      if path = "out.svg" then some .permissionDenied else none }

/-- How a run in these surroundings ends, and that it changes no file but the output. -/
def EndsStrictly (faults : Faults) (most : Option Nat) (config : Config)
    (result : Except Failure Outcome) (told : Text) : Prop :=
  ∃ after, Configured accountEnvironment (limitedArguments most) faults strictWorld.files
      (.ok config) ∧
    Ending faults strictWorld.files after "in.svg" "out.svg" (.ok config) result
      (exitCode result) told ∧
    ∀ location, after.get? location ≠ strictWorld.files.get? location →
      exitCode result = 0 ∧ location = ["out.svg".toList]

theorem strictWorld_sound (most : Option Nat) (location : Location) :
    ¬ BackedUp accountEnvironment (limitedArguments most) strictWorld.files location := by
  have named : accountEnvironment.configFile? = some "home/.config/svgscrub/config.json" := by
    decide +kernel
  have usable : ((strictWorld.files.read "home/.config/svgscrub/config.json").toOption.bind
      Text.ofBytes?).bind Config.ofText? ≠ none := by
    decide +kernel
  rintro ⟨path, found, ⟨bytes, text, read, decoded, _, unusable⟩, _⟩
  cases named.symm.trans found
  rw [read] at usable
  simp [Except.toOption, decoded, unusable] at usable

theorem strictWorld_ending :
    Arguments.parse ["in.svg".toList, "-o".toList, "out.svg".toList, "--max-bytes".toList,
        "64".toList] = .ok (limitedArguments (some 64)) ∧
      ((run accountEnvironment (limitedArguments (some 64)) : Session _).run
        strictWorld).2.files.read "out.svg" = .ok "<svg><g/></svg>".toUTF8 ∧
      EndsStrictly .none (some 64) ⟨64, true⟩ (.ok (.written ⟨0, 1, 0⟩))
        "削除された要素: 0, 削除された属性: 1, 書き換えられた値: 0\n" ∧
      EndsStrictly .none none ⟨4, true⟩ (.error (.inputTooLarge 29 4 "in.svg")) [] ∧
      EndsStrictly lockedOutput (some 64) ⟨64, true⟩
        (.error (.outputNotWritten "out.svg" .permissionDenied)) [] := by
  have output : strictWorld.files.locate "out.svg" = .ok ["out.svg".toList] := by
    decide +kernel
  have ends : ∀ {faults most config result told},
      (faults.run (loadConfig accountEnvironment (limitedArguments most)) strictWorld).1 =
        .ok config →
      (faults.run (run accountEnvironment (limitedArguments most)) strictWorld).1 = result →
      (faults.run (run accountEnvironment (limitedArguments most)) strictWorld).2.messages =
        told →
      EndsStrictly faults most config result told := by
    intro faults most config result told settled came said
    obtain ⟨⟨loaded, line, configured, ending, messages⟩, unchanged, elsewhere⟩ :=
      run_ending rfl rfl
        (fun location backedUp => absurd backedUp (strictWorld_sound most location))
        (Prod.ext came rfl)
    obtain ⟨loadedAgain, files, loading, configuredAgain, _⟩ :=
      run_loadConfig accountEnvironment (limitedArguments most) faults strictWorld
    rw [loading] at settled
    cases settled
    cases configured.unique configuredAgain
    rw [said] at messages
    cases messages
    refine ⟨_, configured, ending, fun location differs => ?_⟩
    have located := (elsewhere location differs).resolve_right (strictWorld_sound most location)
    refine ⟨?_, ?_⟩
    · by_contra failed
      exact differs (unchanged failed location located)
    · rw [output] at located
      cases located
      rfl
  refine ⟨by decide +kernel, by decide +kernel, ends ?_ ?_ ?_, ends ?_ ?_ ?_, ends ?_ ?_ ?_⟩
  all_goals decide +kernel

end Program

end CleanSvg
