import CleanSvg.Storage.Faults
import CleanSvg.Proofs.Storage.Platform

/-!
# Runs with faults

What an operation gives is seen from the faults and the files, and only writing
changes the files, at one path at most.  Where a change has no part in what a
path leads to, the path is seen, measured and read as before.  Without faults a
run is one in a session.
-/

namespace CleanSvg

variable {before after files : FileTree} {faults : Faults} {path : Text}

namespace Faults

variable {α β : Type}

theorem read_eq_ok_iff {content : ByteArray} :
    faults.read files path = .ok content ↔
      faults.unreadable path = .none ∧ files.read path = .ok content := by
  unfold read
  cases faults.unreadable path <;> simp

theorem write_eq_ok_iff {content : ByteArray} :
    faults.write files path content = .ok after ↔
      faults.unwritable path = .none ∧ files.write path content = .ok after := by
  unfold write
  cases faults.unwritable path <;> simp

theorem run_bind (faults : Faults) (first : FaultySession α) (next : α → FaultySession β)
    (world : World) :
    faults.run (first >>= next) world =
      faults.run (next (faults.run first world).1) (faults.run first world).2 := rfl

theorem run_inspect (faults : Faults) (path : Text) (world : World) :
    faults.run (Platform.inspect path) world = (faults.inspect world.files path, world) := by
  simp only [run, ReaderT.run, Platform.inspect, inspect]
  cases faults.seen path <;> rfl

theorem run_size (faults : Faults) (path : Text) (world : World) :
    faults.run (Platform.size path) world = (faults.size world.files path, world) := by
  simp only [run, ReaderT.run, Platform.size, size]
  cases faults.stated path <;> rfl

theorem run_read (faults : Faults) (path : Text) (world : World) :
    faults.run (Platform.read path) world = (faults.read world.files path, world) := by
  simp only [run, ReaderT.run, Platform.read, read]
  cases faults.unreadable path <;> rfl

theorem run_write (faults : Faults) (path : Text) (content : ByteArray) (world : World) :
    faults.run (Platform.write path content) world =
      match faults.write world.files path content with
      | .ok files => (.ok (), { world with files })
      | .error cause => (.error cause, world) := by
  unfold run write
  cases refused : faults.unwritable path with
  | some cause =>
      simp only [ReaderT.run, Platform.write, refused]
      rfl
  | none =>
      simp only [ReaderT.run, Platform.write, refused]
      exact Session.run_write path content world

/-- Copying changes nothing but the target. -/
theorem run_copy (faults : Faults) (source target : Text) (world : World) :
    ∃ outcome files, faults.run (Platform.copy source target) world =
        (outcome, { world with files }) ∧
      FileTree.ChangedOnly (fun location => world.files.locate target = .ok location)
        world.files files := by
  rw [Platform.copy, run_bind, run_read]
  cases faults.read world.files source with
  | error cause => exact ⟨_, world.files, rfl, .refl _ _⟩
  | ok content =>
      simp only
      rw [run_bind, run_write]
      cases opened : faults.write world.files target ByteArray.empty with
      | error cause => exact ⟨_, world.files, rfl, .refl _ _⟩
      | ok emptied =>
          have changed := FileTree.ChangedOnly.of_write (write_eq_ok_iff.mp opened).2
          simp only
          rw [run_bind, run_read]
          cases faults.read emptied source with
          | error cause => exact ⟨_, emptied, rfl, changed⟩
          | ok content =>
              simp only
              rw [run_write]
              cases filled : faults.write emptied target content with
              | error cause => exact ⟨_, emptied, rfl, changed⟩
              | ok files =>
                  -- the target is where it was, although it may have been created
                  have changedAgain :=
                    (FileTree.ChangedOnly.of_write (write_eq_ok_iff.mp filled).2).mono
                      fun location => changed.directories.locate_eq_ok_iff.mp
                  exact ⟨_, files, rfl, changed.trans changedAgain⟩

end Faults

namespace FileTree

theorem SameDirectories.faultyWrite_isOk
    (same : SameDirectories before after) {content : ByteArray}
    (written : ∃ result, faults.write before path content = .ok result) :
    ∃ result, faults.write after path content = .ok result := by
  obtain ⟨result, written⟩ := written
  obtain ⟨writable, written⟩ := Faults.write_eq_ok_iff.mp written
  obtain ⟨result, written⟩ := same.write_isOk ⟨result, written⟩
  exact ⟨result, Faults.write_eq_ok_iff.mpr ⟨writable, written⟩⟩

namespace ChangedOnly

variable {changeable : Location → Prop}

theorem faultyInspect_eq_ok_iff
    (changed : ChangedOnly changeable before after)
    (fixed : ∀ location, before.locate path = .ok location → ¬ changeable location)
    {kind : FileKind} :
    faults.inspect after path = .ok kind ↔ faults.inspect before path = .ok kind := by
  unfold Faults.inspect
  cases faults.seen path with
  | some seen => rfl
  | none => simp only [Option.getD_none, map_eq_ok_iff, changed.lookup_eq_ok_iff fixed]

theorem faultySize_eq_ok_iff
    (changed : ChangedOnly changeable before after)
    (fixed : ∀ location, before.locate path = .ok location → ¬ changeable location)
    {size : Nat} : faults.size after path = .ok size ↔ faults.size before path = .ok size := by
  unfold Faults.size
  cases faults.stated path with
  | some stated => rfl
  | none => simp only [Option.getD_none, map_eq_ok_iff, changed.read_eq_ok_iff fixed]

theorem faultyRead_eq_ok_iff
    (changed : ChangedOnly changeable before after)
    (fixed : ∀ location, before.locate path = .ok location → ¬ changeable location)
    {content : ByteArray} :
    faults.read after path = .ok content ↔ faults.read before path = .ok content := by
  simp only [Faults.read_eq_ok_iff, changed.read_eq_ok_iff fixed]

end ChangedOnly

end FileTree

theorem Faults.run_none_copy (source target : Text) :
    ReaderT.run (Platform.copy source target) Faults.none =
      (Platform.copy source target : Session _) := by
  simp only [Platform.copy, ReaderT.run_bind]
  refine bind_congr fun read => ?_
  cases read with
  | error cause => rfl
  | ok content =>
      simp only [ReaderT.run_bind]
      refine bind_congr fun opened => ?_
      cases opened with
      | error cause => rfl
      | ok _ =>
          simp only [ReaderT.run_bind]
          refine bind_congr fun readAgain => ?_
          cases readAgain <;> rfl

end CleanSvg
