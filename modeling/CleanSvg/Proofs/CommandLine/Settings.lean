import CleanSvg.CommandLine.Run
import CleanSvg.Proofs.Config.Load

/-!
# The settings of a run

A run has the settings of one configuration file: the one that its arguments
name, or else the one that the environment leads to.  Without such a file it has
the standard settings.  What the arguments say themselves wins over either.
-/

namespace CleanSvg

/-- The settings that arguments make of loaded ones. -/
structure Arguments.Effective (arguments : Arguments) (loaded effective : Config) : Prop where
  limited : ∀ most, arguments.maxBytes = some most → effective.maxInputBytes = most
  unlimited : arguments.maxBytes = .none → effective.maxInputBytes = loaded.maxInputBytes
  reported : effective.report = true ↔ arguments.report = true ∨ loaded.report = true

theorem Arguments.effective_iff {arguments : Arguments} {loaded effective : Config} :
    arguments.Effective loaded effective ↔ effective = arguments.override loaded := by
  constructor
  · rintro ⟨limited, unlimited, reported⟩
    have limit : effective.maxInputBytes = arguments.maxBytes.getD loaded.maxInputBytes := by
      cases given : arguments.maxBytes with
      | none => exact unlimited given
      | some most => exact limited most given
    have report : effective.report = (arguments.report || loaded.report) := by
      rw [Bool.eq_iff_iff, reported, Bool.or_eq_true]
    cases effective
    cases limit
    cases report
    rfl
  · rintro rfl
    constructor <;> simp +contextual [override]

namespace Program

/-- The configuration file that the arguments or the environment lead to. -/
def configFile? (environment : Environment) (arguments : Arguments) : Option Text :=
  arguments.config.or environment.configFile?

/-- Where a run keeps the backup of a broken configuration. -/
def BackedUp (environment : Environment) (arguments : Arguments) (files : FileTree)
    (location : Location) : Prop :=
  ∃ path, configFile? environment arguments = some path ∧ Config.BackedUp files path location

/-- The settings of a run, or why it has none. -/
inductive Configured (environment : Environment) (arguments : Arguments) (faults : Faults)
    (files : FileTree) : Except FileError Config → Prop where
  | unnamed {effective : Config}
      (nowhere : configFile? environment arguments = none)
      (settled : arguments.Effective .standard effective) :
      Configured environment arguments faults files (.ok effective)
  | named {path : Text} {loaded effective : Config}
      (found : configFile? environment arguments = some path)
      (gives : Config.Gives faults files path (.ok loaded))
      (settled : arguments.Effective loaded effective) :
      Configured environment arguments faults files (.ok effective)
  | failed {path : Text} {cause : FileError}
      (found : configFile? environment arguments = some path)
      (gives : Config.Gives faults files path (.error cause)) :
      Configured environment arguments faults files (.error cause)

variable {environment : Environment} {arguments : Arguments} {faults : Faults}
  {files : FileTree}

theorem configured_iff_of_found {path : Text} {outcome : Except FileError Config}
    (found : configFile? environment arguments = some path) :
    Configured environment arguments faults files outcome ↔
      ∃ loaded, Config.Gives faults files path loaded ∧
        outcome = loaded.map arguments.override := by
  constructor
  · intro configured
    cases configured with
    | unnamed nowhere _ => simp [found] at nowhere
    | named foundAgain gives settled =>
        cases found.symm.trans foundAgain
        exact ⟨_, gives, by rw [Arguments.effective_iff.mp settled]; rfl⟩
    | failed foundAgain gives =>
        cases found.symm.trans foundAgain
        exact ⟨_, gives, rfl⟩
  · rintro ⟨loaded, gives, rfl⟩
    cases loaded with
    | error cause => exact .failed found gives
    | ok loaded => exact .named found gives (Arguments.effective_iff.mpr rfl)

theorem configured_iff_of_nowhere {outcome : Except FileError Config}
    (nowhere : configFile? environment arguments = none) :
    Configured environment arguments faults files outcome ↔
      outcome = .ok (arguments.override .standard) := by
  constructor
  · intro configured
    cases configured with
    | unnamed _ settled => rw [Arguments.effective_iff.mp settled]
    | named found _ _ => simp [nowhere] at found
    | failed found _ => simp [nowhere] at found
  · rintro rfl
    exact .unnamed nowhere (Arguments.effective_iff.mpr rfl)

/-- A run has one set of settings only. -/
theorem Configured.unique {first second : Except FileError Config}
    (configured : Configured environment arguments faults files first)
    (configuredAgain : Configured environment arguments faults files second) :
    first = second := by
  cases found : configFile? environment arguments with
  | none =>
      rw [configured_iff_of_nowhere found] at configured configuredAgain
      rw [configured, configuredAgain]
  | some path =>
      rw [configured_iff_of_found found] at configured configuredAgain
      obtain ⟨loaded, gives, rfl⟩ := configured
      obtain ⟨_, givesAgain, rfl⟩ := configuredAgain
      rw [gives.unique givesAgain]

/-- Loading gives the settings of the run, and changes nothing but the backup of a broken
configuration. -/
theorem run_loadConfig
    (environment : Environment) (arguments : Arguments) (faults : Faults) (before : World) :
    ∃ outcome files,
      faults.run (loadConfig environment arguments) before = (outcome, { before with files }) ∧
        Configured environment arguments faults before.files outcome ∧
        FileTree.ChangedOnly (BackedUp environment arguments before.files) before.files
          files := by
  have listed : ∀ path, configFile? environment arguments = some path →
      ∃ outcome files,
        faults.run (do
            let loaded ← Config.loadFrom path
            pure (loaded.map arguments.override)) before = (outcome, { before with files }) ∧
          Configured environment arguments faults before.files outcome ∧
          FileTree.ChangedOnly (BackedUp environment arguments before.files) before.files
            files := by
    intro path found
    obtain ⟨loaded, files, ran, gives, changed⟩ := Config.run_loadFrom faults path before
    rw [Faults.run_bind, ran]
    refine ⟨_, files, rfl, (configured_iff_of_found found).mpr ⟨loaded, gives, rfl⟩, ?_⟩
    exact changed.mono fun location backedUp => ⟨path, found, backedUp⟩
  rw [loadConfig]
  cases named : arguments.config with
  | some path => exact listed path (by rw [configFile?, named]; rfl)
  | none =>
      simp only [Config.load]
      cases found : environment.configFile? with
      | some path => exact listed path (by rw [configFile?, named, found]; rfl)
      | none =>
          have nowhere : configFile? environment arguments = none := by
            rw [configFile?, named, found]
            rfl
          exact ⟨_, before.files, rfl, (configured_iff_of_nowhere nowhere).mpr rfl, .refl _ _⟩

end Program

end CleanSvg
