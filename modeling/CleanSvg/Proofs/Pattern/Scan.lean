import CleanSvg.Proofs.Pattern.Reading

/-!
# Searching and replacing from left to right

A search from left to right finds some of the places where a pattern reads: one
that lies inside an earlier find is passed over.  Replacement changes exactly
the finds.  Where every replacement that differs from what it replaces is also
shorter, the length of the text tells whether anything was replaced at all, and
a chain of replacements gives the text back only if each of them does.
-/

namespace CleanSvg

namespace Pattern

variable {α : Type}

/-- What a search from left to right finds, in order. -/
def found (pattern : Pattern α) : Text → List (Piece α)
  | [] => []
  | character :: ahead =>
      match _ : pattern.read (character :: ahead) with
      | some ⟨value, first :: taken, rest⟩ =>
          ⟨value, first :: taken, rest⟩ :: found pattern rest
      | _ => found pattern ahead
termination_by text => text.length
decreasing_by
  · rename_i read
    have split := congrArg List.length (pattern.splits read)
    simp only [List.cons_append, List.length_cons, List.length_append] at split
    simp only [List.length_cons]
    omega
  · simp

@[simp] theorem found_nil (pattern : Pattern α) : pattern.found [] = [] := by
  rw [found]

theorem found_of_read
    {pattern : Pattern α} {text : Text} {piece : Piece α}
    (read : pattern.read text = some piece) (progress : piece.taken ≠ []) :
    pattern.found text = piece :: pattern.found piece.ahead := by
  obtain ⟨value, taken, ahead⟩ := piece
  cases taken with
  | nil => exact absurd rfl progress
  | cons first taken =>
      cases text with
      | nil => exact absurd (pattern.splits read) (by simp)
      | cons character rest =>
          rw [found]
          split
          · rename_i read'
            rw [read] at read'
            cases read'
            rfl
          · rename_i refused
            exact absurd read (refused value first taken ahead)

theorem found_of_not_read
    {pattern : Pattern α} {character : Char} {ahead : Text}
    (refused : ∀ piece, pattern.read (character :: ahead) = some piece →
      piece.taken = []) :
    pattern.found (character :: ahead) = pattern.found ahead := by
  rw [found]
  split
  · rename_i read
    exact absurd (refused _ read) (by simp)
  · rfl

/-- Induction along a search: over a find as a whole, and over a character
where there is none. -/
theorem scan_induction
    (pattern : Pattern α) {motive : Text → Prop}
    (empty : motive [])
    (find : ∀ text piece, pattern.read text = some piece →
      piece.taken ≠ [] → motive piece.ahead → motive text)
    (pass : ∀ character ahead,
      (∀ piece, pattern.read (character :: ahead) = some piece →
        piece.taken = []) →
      motive ahead → motive (character :: ahead))
    (text : Text) : motive text := by
  induction lengthBound : text.length using Nat.strongRecOn generalizing text with
  | ind length induction =>
      subst lengthBound
      cases text with
      | nil => exact empty
      | cons character ahead =>
          by_cases reads : ∃ piece,
              pattern.read (character :: ahead) = some piece ∧ piece.taken ≠ []
          · obtain ⟨piece, read, progress⟩ := reads
            have split := congrArg List.length (pattern.splits read)
            have positive := List.length_pos_iff.mpr progress
            rw [List.length_append] at split
            exact find _ piece read progress
              (induction _ (by omega) piece.ahead rfl)
          · have refused : ∀ piece,
                pattern.read (character :: ahead) = some piece →
                  piece.taken = [] := by
              intro piece read
              exact Classical.byContradiction fun progress =>
                reads ⟨piece, read, progress⟩
            exact pass character ahead refused
              (induction _ (by simp) ahead rfl)

theorem eraseAll_of_leaves
    {pattern : Pattern α} {text rest : Text} (takes : pattern.TakesAtLeast 1)
    (leaves : pattern.Leaves text rest) :
    pattern.eraseAll text = pattern.eraseAll rest := by
  obtain ⟨piece, read, rfl⟩ := leaves
  have progress := takes text piece read
  rw [eraseAll, replaceAll_of_read read (List.ne_nil_of_length_pos progress), List.nil_append]
  rfl

theorem mem_found
    {pattern : Pattern α} {text : Text} {piece : Piece α}
    (member : piece ∈ pattern.found text) :
    piece.taken ≠ [] ∧ ∃ rest, rest <:+ text ∧ pattern.read rest = some piece := by
  induction text using pattern.scan_induction with
  | empty => simp at member
  | find text first read progress induction =>
      rw [found_of_read read progress] at member
      rcases List.mem_cons.mp member with rfl | later
      · exact ⟨progress, text, List.suffix_refl text, read⟩
      · obtain ⟨nonempty, rest, inside, readRest⟩ := induction later
        have ahead : first.ahead <:+ text := ⟨first.taken, pattern.splits read⟩
        exact ⟨nonempty, rest, inside.trans ahead, readRest⟩
  | pass character ahead refused induction =>
      rw [found_of_not_read refused] at member
      obtain ⟨nonempty, rest, inside, readRest⟩ := induction member
      exact ⟨nonempty, rest, inside.trans (List.suffix_cons character ahead), readRest⟩

theorem occursIn_iff {pattern : Pattern α} {text : Text} :
    pattern.occursIn text = true ↔
      ∃ rest piece, rest <:+ text ∧ pattern.read rest = some piece := by
  induction text with
  | nil => simp [occursIn, Option.isSome_iff_exists]
  | cons character ahead induction =>
      rw [occursIn, Bool.or_eq_true, induction, Option.isSome_iff_exists]
      constructor
      · rintro (⟨piece, read⟩ | ⟨rest, piece, inside, read⟩)
        · exact ⟨character :: ahead, piece, List.suffix_refl _, read⟩
        · exact ⟨rest, piece, inside.trans (List.suffix_cons character ahead), read⟩
      · rintro ⟨rest, piece, inside, read⟩
        rcases List.suffix_cons_iff.mp inside with rfl | later
        · exact Or.inl ⟨piece, read⟩
        · exact Or.inr ⟨rest, piece, later, read⟩

theorem occursIn_eq_false_iff {pattern : Pattern α} {text : Text} :
    pattern.occursIn text = false ↔
      ∀ rest, rest <:+ text → pattern.read rest = none := by
  rw [← Bool.not_eq_true, occursIn_iff]
  constructor
  · intro absent rest inside
    cases read : pattern.read rest with
    | none => rfl
    | some piece => exact absurd ⟨rest, piece, inside, read⟩ absent
  · rintro refused ⟨rest, piece, inside, read⟩
    rw [refused rest inside] at read
    cases read

/-- A pattern that never reads without taking something is found wherever it
occurs at all. -/
theorem found_eq_nil_iff
    {pattern : Pattern α} (takes : pattern.TakesAtLeast 1) {text : Text} :
    pattern.found text = [] ↔ pattern.occursIn text = false := by
  have readless : ∀ piece, pattern.read [] ≠ some piece := by
    intro piece read
    have nothing : piece.taken = [] :=
      (List.append_eq_nil_iff.mp (pattern.splits read)).1
    have positive := takes [] piece read
    rw [nothing] at positive
    exact absurd positive (by simp)
  induction text using pattern.scan_induction with
  | empty =>
      cases read : pattern.read [] with
      | none => simp [occursIn, read]
      | some piece => exact absurd read (readless piece)
  | find text piece read progress induction =>
      rw [found_of_read read progress, occursIn_eq_false_iff]
      constructor
      · intro empty
        cases empty
      · intro refused
        rw [refused text (List.suffix_refl text)] at read
        cases read
  | pass character ahead refused induction =>
      have absent : pattern.read (character :: ahead) = none := by
        cases read : pattern.read (character :: ahead) with
        | none => rfl
        | some piece =>
            have positive := takes _ piece read
            rw [refused piece read] at positive
            exact absurd positive (by simp)
      rw [found_of_not_read refused, occursIn, absent]
      exact induction

end Pattern

/-- Takes a text through steps, one after another. -/
def Text.applyAll (steps : List (Text → Text)) (text : Text) : Text :=
  steps.foldl (fun current step => step current) text

/-- A step that shortens every text that it changes. -/
def Shrinks (step : Text → Text) : Prop :=
  ∀ text, step text = text ∨ (step text).length < text.length

namespace Shrinks

variable {first second : Text → Text}

theorem length_le (shrinks : Shrinks first) (text : Text) :
    (first text).length ≤ text.length := by
  rcases shrinks text with same | shorter
  · exact Nat.le_of_eq (congrArg List.length same)
  · exact Nat.le_of_lt shorter

theorem comp (shrinksFirst : Shrinks first) (shrinksSecond : Shrinks second) :
    Shrinks fun text => second (first text) := by
  intro text
  rcases shrinksFirst text with same | shorter
  · simpa only [same] using shrinksSecond text
  · exact Or.inr (Nat.lt_of_le_of_lt (shrinksSecond.length_le _) shorter)

/-- Nothing that a second step does makes up for what a first one took away. -/
theorem comp_eq_self_iff
    (shrinksFirst : Shrinks first) (shrinksSecond : Shrinks second)
    {text : Text} :
    second (first text) = text ↔ first text = text ∧ second text = text := by
  constructor
  · intro fixed
    have unchanged : first text = text := by
      rcases shrinksFirst text with same | shorter
      · exact same
      · have upper := shrinksSecond.length_le (first text)
        rw [fixed] at upper
        omega
    refine ⟨unchanged, ?_⟩
    rwa [unchanged] at fixed
  · rintro ⟨fixedFirst, fixedSecond⟩
    rw [fixedFirst, fixedSecond]

theorem applyAll
    {steps : List (Text → Text)} (shrink : ∀ step ∈ steps, Shrinks step) :
    Shrinks (Text.applyAll steps) := by
  induction steps with
  | nil => exact fun _ => Or.inl rfl
  | cons step steps induction =>
      obtain ⟨shrinksStep, shrinkOthers⟩ := List.forall_mem_cons.mp shrink
      exact shrinksStep.comp (induction shrinkOthers)

theorem applyAll_eq_self_iff
    {steps : List (Text → Text)} (shrink : ∀ step ∈ steps, Shrinks step)
    {text : Text} :
    Text.applyAll steps text = text ↔ ∀ step ∈ steps, step text = text := by
  induction steps with
  | nil => simp [Text.applyAll]
  | cons step steps induction =>
      obtain ⟨shrinksStep, shrinkOthers⟩ := List.forall_mem_cons.mp shrink
      rw [List.forall_mem_cons, ← induction shrinkOthers]
      exact shrinksStep.comp_eq_self_iff (applyAll shrinkOthers)

theorem filter (keeps : Char → Bool) : Shrinks (List.filter keeps) := by
  intro text
  by_cases kept : ∀ character ∈ text, keeps character = true
  · exact Or.inl (List.filter_eq_self.mpr kept)
  · refine Or.inr (Nat.lt_of_le_of_ne (List.length_filter_le keeps text) ?_)
    intro same
    exact kept (List.length_filter_eq_length_iff.mp same)

end Shrinks

namespace Pattern

variable {α : Type}

/-- A replacement that is never longer than what it stands for, and as long
only where it is the same. -/
def Shortens (pattern : Pattern α) (replacement : Piece α → Text) : Prop :=
  ∀ text piece, pattern.read text = some piece → piece.taken ≠ [] →
    replacement piece = piece.taken ∨
      (replacement piece).length < piece.taken.length

theorem shrinks_replaceAll
    {pattern : Pattern α} {replacement : Piece α → Text}
    (shortens : pattern.Shortens replacement) :
    Shrinks (pattern.replaceAll replacement) := by
  intro text
  induction text using pattern.scan_induction with
  | empty => exact Or.inl (replaceAll_nil pattern replacement)
  | find text piece read progress induction =>
      have split := pattern.splits read
      have lengths := congrArg List.length split
      rw [List.length_append] at lengths
      rw [replaceAll_of_read read progress, List.length_append]
      rcases shortens text piece read progress with same | shorter <;>
        rcases induction with sameAhead | shorterAhead
      · left
        rw [same, sameAhead, split]
      · right
        rw [same]
        omega
      · right
        rw [sameAhead]
        omega
      · right
        omega
  | pass character ahead refused induction =>
      rw [replaceAll_of_not_read refused]
      rcases induction with same | shorter
      · exact Or.inl (congrArg (character :: ·) same)
      · exact Or.inr (by simpa using shorter)

/-- A text comes back as it was exactly if every find is replaced by itself. -/
theorem replaceAll_eq_self_iff
    {pattern : Pattern α} {replacement : Piece α → Text}
    (shortens : pattern.Shortens replacement) {text : Text} :
    pattern.replaceAll replacement text = text ↔
      ∀ piece ∈ pattern.found text, replacement piece = piece.taken := by
  induction text using pattern.scan_induction with
  | empty => simp
  | find text piece read progress induction =>
      have split := pattern.splits read
      have lengths := congrArg List.length split
      rw [List.length_append] at lengths
      rw [replaceAll_of_read read progress, found_of_read read progress,
        List.forall_mem_cons, ← induction]
      constructor
      · intro fixed
        have upper := (shrinks_replaceAll shortens).length_le piece.ahead
        have total := congrArg List.length fixed
        rw [List.length_append] at total
        have same : replacement piece = piece.taken := by
          rcases shortens text piece read progress with same | shorter
          · exact same
          · omega
        rw [same, ← split] at fixed
        exact ⟨same, List.append_cancel_left fixed⟩
      · rintro ⟨same, fixed⟩
        rw [same, fixed, split]
  | pass character ahead refused induction =>
      rw [replaceAll_of_not_read refused, found_of_not_read refused, ← induction]
      simp

theorem shortens_erase (pattern : Pattern α) : pattern.Shortens fun _ => [] := by
  intro text piece read progress
  exact Or.inr (List.length_pos_iff.mpr progress)

theorem shrinks_eraseAll (pattern : Pattern α) : Shrinks pattern.eraseAll :=
  shrinks_replaceAll pattern.shortens_erase

/-- Removal leaves a text alone exactly if the pattern occurs nowhere in it. -/
theorem eraseAll_eq_self_iff
    {pattern : Pattern α} (takes : pattern.TakesAtLeast 1) {text : Text} :
    pattern.eraseAll text = text ↔ pattern.occursIn text = false := by
  rw [← found_eq_nil_iff takes]
  constructor
  · intro fixed
    have kept := (replaceAll_eq_self_iff pattern.shortens_erase).mp fixed
    refine List.eq_nil_iff_forall_not_mem.mpr ?_
    intro piece member
    exact (mem_found member).1 (kept piece member).symm
  · intro none
    refine (replaceAll_eq_self_iff pattern.shortens_erase).mpr ?_
    rw [none]
    simp

theorem eraseAll_of_suffix
    {pattern : Pattern α} (takes : pattern.TakesAtLeast 1) {text rest : Text}
    (absent : pattern.occursIn text = false) (inside : rest <:+ text) :
    pattern.eraseAll rest = rest := by
  refine (eraseAll_eq_self_iff takes).mpr ?_
  refine occursIn_eq_false_iff.mpr fun later within => ?_
  exact occursIn_eq_false_iff.mp absent later (within.trans inside)

end Pattern

end CleanSvg
