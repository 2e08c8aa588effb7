import CleanSvg.Proofs.Storage.BackupPath
import CleanSvg.Proofs.Storage.Platform

/-!
# What a copy holds

A copy that is made at another place holds what the file holds, and the file
still holds it.  A file that is copied onto itself is emptied first, so nothing
is left of it to copy.
-/

namespace CleanSvg.Session

variable {source target path : Text} {before : World} {content : ByteArray}

theorem run_copy_of_read (read : before.files.read source = .ok content) :
    (Platform.copy source target : Session _).run before =
      match before.files.write target ByteArray.empty with
      | .error cause => (.error cause, before)
      | .ok emptied =>
          match emptied.read source with
          | .error cause => (.error cause, { before with files := emptied })
          | .ok content =>
              (Platform.write target content : Session _).run { before with files := emptied } := by
  rw [Platform.copy, run_bind, run_read, read]
  simp only
  rw [run_bind, run_write]
  cases before.files.write target ByteArray.empty with
  | error cause => rfl
  | ok emptied =>
      simp only
      rw [run_bind, run_read]
      cases emptied.read source with
      | error cause => rfl
      | ok content => rfl

theorem read_of_run_copy
    (read : before.files.read source = .ok content)
    (apart : ∀ location, before.files.locate source = .ok location →
      before.files.locate target ≠ .ok location)
    (copied : ((Platform.copy source target : Session _).run before).1 = .ok ()) :
    ((Platform.copy source target : Session _).run before).2.files.read target =
      .ok content := by
  rw [run_copy_of_read read] at copied ⊢
  cases written : before.files.write target ByteArray.empty with
  | error cause =>
      rw [written] at copied
      cases copied
  | ok emptied =>
      have changed := FileTree.ChangedOnly.of_write written
      have readAgain := (changed.read_eq_ok_iff apart).mpr read
      rw [written] at copied
      simp only [readAgain, run_write] at copied ⊢
      cases filled : emptied.write target content with
      | error cause =>
          rw [filled] at copied
          cases copied
      | ok after => exact FileTree.read_of_write filled

/-- Nothing is left of a file that is copied onto itself. -/
theorem read_of_run_copy_self (read : before.files.read path = .ok content) :
    ((Platform.copy path path : Session _).run before).2.files.read path =
      .ok ByteArray.empty := by
  obtain ⟨emptied, written⟩ := FileTree.exists_write_of_read read ByteArray.empty
  have readAgain := FileTree.read_of_write written
  obtain ⟨after, writtenAgain⟩ := FileTree.exists_write_of_read readAgain ByteArray.empty
  rw [run_copy_of_read read, written]
  simp only [readAgain, run_write, writtenAgain]
  exact FileTree.read_of_write writtenAgain

end CleanSvg.Session
