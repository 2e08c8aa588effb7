import CleanSvg.Config.Load
import CleanSvg.Proofs.Storage.Faults

/-!
# What loading a configuration comes to

Loading reads one file.  It gives the settings of that file or the standard
ones, and fails only if the file cannot be looked for.  It writes only when the
file holds a broken configuration, and then only the backup of it.
-/

namespace CleanSvg

namespace Config

/-- The file at a path holds text that is neither blank nor a configuration. -/
def Broken (files : FileTree) (path : Text) : Prop :=
  ∃ bytes text, files.read path = .ok bytes ∧ Text.ofBytes? bytes = some text ∧
    Text.allBlank text = false ∧ ofText? text = none

/-- Where the backup of a broken configuration file goes. -/
def BackedUp (files : FileTree) (path : Text) (location : Location) : Prop :=
  Broken files path ∧ files.locate (Path.backup path) = .ok location

/-- A path can be looked at, and the file there can be read as a text. -/
def Holds (faults : Faults) (files : FileTree) (path text : Text) : Prop :=
  ∃ kind bytes, faults.inspect files path = .ok kind ∧ faults.read files path = .ok bytes ∧
    Text.ofBytes? bytes = some text

/-- What a configuration file gives. -/
inductive Gives (faults : Faults) (files : FileTree) (path : Text) :
    Except FileError Config → Prop where
  | settings {text : Text} {given : Config}
      (holds : Holds faults files path text) (written : Text.allBlank text = false)
      (usable : ofText? text = some given) :
      Gives faults files path (.ok given.validate)
  | standard
      (reachable : ∀ cause, faults.inspect files path = .error cause → cause = .notFound)
      (unusable : ∀ text, Holds faults files path text →
        Text.allBlank text = true ∨ ofText? text = none) :
      Gives faults files path (.ok standard)
  | unreachable {cause : FileError}
      (failed : faults.inspect files path = .error cause) (present : cause ≠ .notFound) :
      Gives faults files path (.error cause)

variable {faults : Faults} {files : FileTree} {path : Text}

theorem Holds.unique {text other : Text}
    (first : Holds faults files path text) (second : Holds faults files path other) :
    text = other := by
  obtain ⟨_, bytes, _, read, decoded⟩ := first
  obtain ⟨_, _, _, readAgain, decodedAgain⟩ := second
  rw [read] at readAgain
  cases readAgain
  rw [decoded] at decodedAgain
  cases decodedAgain
  rfl

theorem Holds.inspect_ne_error {text : Text} {cause : FileError}
    (holds : Holds faults files path text) : faults.inspect files path ≠ .error cause := by
  obtain ⟨_, _, found, _⟩ := holds
  simp [found]

/-- A configuration file gives one thing only. -/
theorem Gives.unique {first second : Except FileError Config}
    (gives : Gives faults files path first) (givesAgain : Gives faults files path second) :
    first = second := by
  cases gives with
  | settings holds written usable =>
      cases givesAgain with
      | settings holdsAgain _ usableAgain =>
          cases holds.unique holdsAgain
          rw [usable] at usableAgain
          cases usableAgain
          rfl
      | standard _ unusable => simpa [written, usable] using unusable _ holds
      | unreachable failed _ => exact absurd failed holds.inspect_ne_error
  | standard reachable unusable =>
      cases givesAgain with
      | settings holds written usable => simpa [written, usable] using unusable _ holds
      | standard _ _ => rfl
      | unreachable failed present => exact absurd (reachable _ failed) present
  | unreachable failed present =>
      cases givesAgain with
      | settings holds _ _ => exact absurd failed holds.inspect_ne_error
      | standard reachable _ => exact absurd (reachable _ failed) present
      | unreachable failedAgain _ =>
          rw [failed] at failedAgain
          cases failedAgain
          rfl

/-- Loading gives what the file gives, and changes nothing but the backup of a broken one. -/
theorem run_loadFrom (faults : Faults) (path : Text) (before : World) :
    ∃ loaded files, faults.run (loadFrom path) before = (loaded, { before with files }) ∧
      Gives faults before.files path loaded ∧
      FileTree.ChangedOnly (BackedUp before.files path) before.files files := by
  rw [loadFrom, Faults.run_bind, Faults.run_inspect]
  cases seen : faults.inspect before.files path with
  | error cause =>
      by_cases missing : cause = .notFound
      · subst missing
        refine ⟨_, before.files, rfl, .standard ?_ ?_, .refl _ _⟩
        · simp [seen]
        · simp [Holds, seen]
      · refine ⟨.error cause, before.files, ?_, .unreachable seen missing, .refl _ _⟩
        cases cause <;> first | rfl | exact absurd rfl missing
  | ok kind =>
      have reachable : ∀ cause, faults.inspect before.files path = .error cause →
          cause = .notFound := by
        simp [seen]
      simp only
      rw [Faults.run_bind, Faults.run_read]
      cases read : faults.read before.files path with
      | error cause =>
          refine ⟨_, before.files, rfl, .standard reachable ?_, .refl _ _⟩
          simp [Holds, read]
      | ok bytes =>
          simp only
          cases decoded : Text.ofBytes? bytes with
          | none =>
              refine ⟨_, before.files, rfl, .standard reachable ?_, .refl _ _⟩
              simp [Holds, read, decoded]
          | some text =>
              have holds : Holds faults before.files path text :=
                ⟨kind, bytes, seen, read, decoded⟩
              simp only
              split
              · rename_i blank
                refine ⟨_, before.files, rfl, .standard reachable ?_, .refl _ _⟩
                intro other holdsAgain
                cases holds.unique holdsAgain
                exact Or.inl blank
              · rename_i notBlank
                have written := Bool.eq_false_iff.mpr notBlank
                cases usable : ofText? text with
                | some given =>
                    exact ⟨_, before.files, rfl, .settings holds written usable, .refl _ _⟩
                | none =>
                    obtain ⟨outcome, files, copied, changed⟩ :=
                      Faults.run_copy faults path (Path.backup path) before
                    simp only
                    rw [Faults.run_bind, copied]
                    refine ⟨_, files, rfl, .standard reachable ?_, ?_⟩
                    · intro other holdsAgain
                      cases holds.unique holdsAgain
                      exact Or.inr usable
                    · have broken : Broken before.files path :=
                        ⟨bytes, text, (Faults.read_eq_ok_iff.mp read).2, decoded, written,
                          usable⟩
                      exact changed.mono fun location located => ⟨broken, located⟩

theorem run_none_loadFrom (path : Text) :
    ReaderT.run (loadFrom path) Faults.none = (loadFrom path : Session _) := by
  simp only [loadFrom, ReaderT.run_bind]
  refine bind_congr fun seen => ?_
  split
  · rfl
  · rfl
  · simp only [ReaderT.run_bind]
    refine bind_congr fun read => ?_
    split
    · rfl
    · split
      · rfl
      · split
        · rfl
        · split
          · rfl
          · simp only [ReaderT.run_bind, Faults.run_none_copy]
            rfl

theorem changedOnly_loadFrom (path : Text) (before : World) :
    FileTree.ChangedOnly (BackedUp before.files path) before.files
      ((loadFrom path : Session _).run before).2.files := by
  obtain ⟨loaded, files, ran, _, changed⟩ := run_loadFrom .none path before
  rw [Faults.run, run_none_loadFrom] at ran
  rw [ran]
  exact changed

end Config

end CleanSvg
