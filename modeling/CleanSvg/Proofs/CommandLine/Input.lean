import CleanSvg.CommandLine.Run
import CleanSvg.Proofs.Storage.Faults

/-!
# What is read from the input

A document is read from a path that is seen as a file and not said to exceed the
limit.  Whatever else is found there has a failure of its own, which names the
path.  A change that has no part in what the path leads to is not noticed.
-/

namespace CleanSvg.Program

/-- What reading the text of a file gives. -/
inductive TextRead (faults : Faults) (files : FileTree) (path : Text) :
    Except Failure Text → Prop where
  | text {bytes : ByteArray} {text : Text}
      (opened : faults.read files path = .ok bytes)
      (decoded : Text.ofBytes? bytes = some text) :
      TextRead faults files path (.ok text)
  | unopened {failure : Failure}
      (locked : ∀ bytes, faults.read files path ≠ .ok bytes)
      (reason : failure = .inputNotFound path ∨ failure = .inputDenied path ∨
        ∃ cause, failure = .inputUnreadable path cause) :
      TextRead faults files path (.error failure)
  | notText {bytes : ByteArray}
      (opened : faults.read files path = .ok bytes)
      (undecoded : Text.ofBytes? bytes = none) :
      TextRead faults files path (.error (.inputNotText path))

/-- What reading a document within a limit gives. -/
inductive InputRead (faults : Faults) (files : FileTree) (limit : Nat) (path : Text) :
    Except Failure Text → Prop where
  | notFound (unseen : ∀ kind, faults.inspect files path ≠ .ok kind) :
      InputRead faults files limit path (.error (.inputNotFound path))
  | notFile {kind : FileKind}
      (seen : faults.inspect files path = .ok kind) (irregular : kind ≠ .regular) :
      InputRead faults files limit path (.error (.inputNotFile path))
  | tooLarge {size : Nat}
      (seen : faults.inspect files path = .ok .regular)
      (stated : faults.size files path = .ok size) (beyond : limit < size) :
      InputRead faults files limit path (.error (.inputTooLarge size limit path))
  | admitted {result : Except Failure Text}
      (seen : faults.inspect files path = .ok .regular)
      (within : ∀ size, faults.size files path = .ok size → size ≤ limit)
      (read : TextRead faults files path result) :
      InputRead faults files limit path result

variable {faults : Faults} {files : FileTree} {limit : Nat} {path : Text}

/-- A text that exceeds the limit is read only if its size is not stated as it is. -/
theorem InputRead.misstated {text : Text}
    (read : InputRead faults files limit path (.ok text)) (beyond : limit < Text.byteSize text) :
    ∃ stated, faults.stated path = some stated ∧ stated ≠ .ok (Text.byteSize text) := by
  cases read with
  | admitted seen within read =>
      cases read with
      | text opened decoded =>
          rw [Text.byteSize_of_ofBytes? decoded] at beyond ⊢
          have notStated : faults.size files path ≠ .ok _ := fun stated =>
            Nat.not_lt_of_le (within _ stated) beyond
          unfold Faults.size at notStated
          cases said : faults.stated path with
          | some stated =>
              rw [said] at notStated
              exact ⟨stated, rfl, notStated⟩
          | none =>
              rw [said, (Faults.read_eq_ok_iff.mp opened).2] at notStated
              exact absurd rfl notStated

theorem run_readText (faults : Faults) (path : Text) (world : World) :
    ∃ result, faults.run (readText path) world = (result, world) ∧
      TextRead faults world.files path result := by
  rw [readText, Faults.run_bind, Faults.run_read]
  cases opened : faults.read world.files path with
  | error cause =>
      have locked : ∀ bytes, faults.read world.files path ≠ .ok bytes := by
        simp [opened]
      cases cause with
      | notFound => exact ⟨_, rfl, .unopened locked (.inl rfl)⟩
      | permissionDenied => exact ⟨_, rfl, .unopened locked (.inr (.inl rfl))⟩
      | _ => exact ⟨_, rfl, .unopened locked (.inr (.inr ⟨_, rfl⟩))⟩
  | ok bytes =>
      simp only
      cases decoded : Text.ofBytes? bytes with
      | none => exact ⟨_, rfl, .notText opened decoded⟩
      | some text => exact ⟨_, rfl, .text opened decoded⟩

theorem run_readFile (faults : Faults) (limit : Nat) (path : Text) (world : World) :
    ∃ result, faults.run (readFile limit path) world = (result, world) ∧
      InputRead faults world.files limit path result := by
  obtain ⟨result, ran, read⟩ := run_readText faults path world
  rw [readFile, Faults.run_bind, Faults.run_inspect]
  cases seen : faults.inspect world.files path with
  | error cause => exact ⟨_, rfl, .notFound (by simp [seen])⟩
  | ok kind =>
      cases kind with
      | directory => exact ⟨_, rfl, .notFile seen nofun⟩
      | special => exact ⟨_, rfl, .notFile seen nofun⟩
      | regular =>
          simp only
          rw [Faults.run_bind, Faults.run_size]
          cases stated : faults.size world.files path with
          | error cause => exact ⟨result, ran, .admitted seen (by simp [stated]) read⟩
          | ok size =>
              simp only
              split
              · rename_i beyond
                exact ⟨_, rfl, .tooLarge seen stated beyond⟩
              · rename_i small
                refine ⟨result, ran, .admitted seen ?_ read⟩
                simpa [stated] using Nat.le_of_not_lt small

variable {changeable : Location → Prop} {before after : FileTree}

theorem TextRead.of_changedOnly {result : Except Failure Text}
    (changed : FileTree.ChangedOnly changeable before after)
    (fixed : ∀ location, before.locate path = .ok location → ¬ changeable location)
    (read : TextRead faults after path result) : TextRead faults before path result := by
  cases read with
  | text opened decoded =>
      exact .text ((changed.faultyRead_eq_ok_iff fixed).mp opened) decoded
  | unopened locked reason =>
      refine .unopened (fun bytes opened => locked bytes ?_) reason
      exact (changed.faultyRead_eq_ok_iff fixed).mpr opened
  | notText opened undecoded =>
      exact .notText ((changed.faultyRead_eq_ok_iff fixed).mp opened) undecoded

theorem InputRead.of_changedOnly {result : Except Failure Text}
    (changed : FileTree.ChangedOnly changeable before after)
    (fixed : ∀ location, before.locate path = .ok location → ¬ changeable location)
    (read : InputRead faults after limit path result) :
    InputRead faults before limit path result := by
  cases read with
  | notFound unseen =>
      refine .notFound fun kind seen => unseen kind ?_
      exact (changed.faultyInspect_eq_ok_iff fixed).mpr seen
  | notFile seen irregular =>
      exact .notFile ((changed.faultyInspect_eq_ok_iff fixed).mp seen) irregular
  | tooLarge seen stated beyond =>
      exact .tooLarge ((changed.faultyInspect_eq_ok_iff fixed).mp seen)
        ((changed.faultySize_eq_ok_iff fixed).mp stated) beyond
  | admitted seen within read =>
      refine .admitted ((changed.faultyInspect_eq_ok_iff fixed).mp seen) ?_
        (read.of_changedOnly changed fixed)
      intro size stated
      exact within size ((changed.faultySize_eq_ok_iff fixed).mpr stated)

end CleanSvg.Program
