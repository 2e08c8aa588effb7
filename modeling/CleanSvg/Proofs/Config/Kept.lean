import Mathlib.Control.Monad.Basic
import CleanSvg.Proofs.Config.Load
import CleanSvg.Proofs.Storage.Copy

/-!
# What becomes of a configuration file

Loading leaves the configuration file as it is, unless the file is broken and
already has the name of its backup: then it is copied onto itself, and what was
written by hand is lost.  In every other case a backup that could be made holds
what the broken file holds.
-/

namespace CleanSvg.Config

variable {path : Text} {before : World}

/-- The surroundings after a backup of a file, and whether it could be made. -/
def backUp (path : Text) (before : World) : Except FileError Unit × World :=
  (Platform.copy path (Path.backup path) : Session _).run before

/-- What loading a configuration file comes to. -/
structure Loading (path : Text) (before : World) (outcome : Except FileError Config)
    (after : World) : Prop where
  limited : ∀ config, outcome = .ok config →
    1 ≤ config.maxInputBytes ∧ config.maxInputBytes ≤ 256 * 1024 * 1024
  /-- Without a broken file nothing happens, and with one only its backup is written. -/
  untouched : ¬ Broken before.files path → after = before
  changed : FileTree.ChangedOnly (BackedUp before.files path) before.files after.files
  kept : ¬ (Broken before.files path ∧ Path.IsBackup path) →
    ∀ content, after.files.read path = .ok content ↔ before.files.read path = .ok content
  emptied : Broken before.files path → Path.IsBackup path →
    ∃ content, before.files.read path = .ok content ∧ content ≠ ByteArray.empty ∧
      after.files.read path = .ok ByteArray.empty
  /-- A backup that could be made elsewhere holds the bytes of the broken file. -/
  backedUp : Broken before.files path → ¬ Path.IsBackup path →
    (backUp path before).1 = .ok () →
      ∃ content, before.files.read path = .ok content ∧
        after.files.read (Path.backup path) = .ok content

theorem exists_kind_of_read {tree : FileTree} {content : ByteArray}
    (read : tree.read path = .ok content) :
    (tree.lookup path).map FileKind.ofEntry = .ok .regular := by
  rw [FileTree.read_eq_ok_iff_lookup.mp read]
  rfl

theorem run_loadFrom_of_broken (broken : Broken before.files path) :
    (loadFrom path : Session _).run before = (.ok standard, (backUp path before).2) := by
  obtain ⟨bytes, text, read, decoded, written, unusable⟩ := broken
  rw [loadFrom, Session.run_bind, Session.run_inspect, exists_kind_of_read read]
  simp only
  rw [Session.run_bind, Session.run_read, read]
  simp only [decoded, written, unusable]
  rfl

theorem run_loadFrom_of_not_broken (sound : ¬ Broken before.files path) :
    ((loadFrom path : Session _).run before).2 = before ∧
      ∀ config, ((loadFrom path : Session _).run before).1 = .ok config →
        ∃ given : Config, config = given.validate := by
  have usual : ∀ config, Except.ok standard = (.ok config : Except FileError Config) →
      ∃ given : Config, config = given.validate := by
    intro config same
    cases same
    exact ⟨standard, rfl⟩
  rw [loadFrom, Session.run_bind, Session.run_inspect]
  simp only
  split
  · exact ⟨rfl, usual⟩
  · refine ⟨rfl, ?_⟩
    intro config same
    cases same
  · rw [Session.run_bind, Session.run_read]
    simp only
    split
    · exact ⟨rfl, usual⟩
    · rename_i bytes read
      split
      · exact ⟨rfl, usual⟩
      · rename_i text decoded
        split
        · exact ⟨rfl, usual⟩
        · rename_i written
          split
          · rename_i given usable
            refine ⟨rfl, ?_⟩
            intro config same
            cases same
            exact ⟨given, rfl⟩
          · rename_i unusable
            exact absurd ⟨bytes, text, read, decoded, Bool.eq_false_iff.mpr written, unusable⟩
              sound

theorem Broken.content_ne_empty {tree : FileTree} (broken : Broken tree path) :
    ∃ content, tree.read path = .ok content ∧ content ≠ ByteArray.empty := by
  obtain ⟨bytes, text, read, decoded, written, _⟩ := broken
  refine ⟨bytes, read, ?_⟩
  rintro rfl
  cases text with
  | nil => cases written
  | cons character text =>
      have size := Text.byteSize_of_ofBytes? decoded
      have positive := character.utf8Size_pos
      rw [Text.byteSize_cons, ByteArray.size_empty] at size
      omega

/-- A configuration file is lost by loading it exactly if it is broken and has the name of a
backup.  Otherwise it stays as it is, and so does every other file but its backup, which holds
the same as the broken file if it could be made.  Settings that are loaded have a limit between
one byte and 256 mebibytes. -/
theorem loadFrom_loading (path : Text) (before : World) :
    Loading path before ((loadFrom path : Session _).run before).1
      ((loadFrom path : Session _).run before).2 := by
  have changed := changedOnly_loadFrom path before
  by_cases broken : Broken before.files path
  · obtain ⟨content, read, nonempty⟩ := broken.content_ne_empty
    rw [run_loadFrom_of_broken broken] at changed ⊢
    refine ⟨?limited, fun sound => absurd broken sound, changed, ?kept, ?emptied, ?backedUp⟩
    case limited =>
      intro config same
      cases same
      decide
    case kept =>
      intro notLost content
      apply changed.read_eq_ok_iff
      intro location found backup
      exact FileTree.locate_backup_ne read (fun isBackup => notLost ⟨broken, isBackup⟩) found
        backup.2
    case emptied =>
      intro _ isBackup
      have same := Path.backup_eq_self_iff.mpr isBackup
      refine ⟨content, read, nonempty, ?_⟩
      rw [backUp, same]
      exact Session.read_of_run_copy_self read
    case backedUp =>
      intro _ apart copied
      refine ⟨content, read, ?_⟩
      apply Session.read_of_run_copy read _ copied
      intro location found
      exact FileTree.locate_backup_ne read apart found
  · obtain ⟨same, validated⟩ := run_loadFrom_of_not_broken broken
    refine ⟨?limited, fun _ => same, changed, ?kept, fun lost => absurd lost broken,
      fun lost => absurd lost broken⟩
    case limited =>
      intro config loaded
      obtain ⟨given, rfl⟩ := validated config loaded
      exact given.validate_range
    case kept =>
      intro _ content
      rw [same]

/-- Surroundings with a broken configuration that has the name of a backup. -/
def misnamedWorld : World where
  files := ⟨[(["config.bak"], .file "\x7b not json".toUTF8)]⟩
  input := ByteArray.empty
  output := ByteArray.empty
  messages := []

theorem misnamedWorld_emptied :
    misnamedWorld.files.read "config.bak" = .ok "\x7b not json".toUTF8 ∧
      ((loadFrom "config.bak" : Session _).run misnamedWorld).1 = .ok standard ∧
        ((loadFrom "config.bak" : Session _).run misnamedWorld).2.files.read "config.bak" =
          .ok ByteArray.empty := by
  refine ⟨?_, ?_, ?_⟩ <;> decide +kernel

end CleanSvg.Config
