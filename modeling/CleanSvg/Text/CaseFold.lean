import CleanSvg.Text.Basic

/-!
# Letters compared without case

Keywords are written in ASCII, and two notions of case reach them.  ASCII
lowering changes the letters A to Z alone.  Simple case folding also brings two
letters from outside ASCII onto it: the long s and the Kelvin sign.
-/

namespace CleanSvg.Text

/-- Lowers the letters A to Z and leaves every other character. -/
def asciiLowercase (text : Text) : Text :=
  text.map Char.toLower

def equalsIgnoringAsciiCase (left right : Text) : Bool :=
  asciiLowercase left == asciiLowercase right

/-- Simple case folding, as far as it ends in ASCII: besides A to Z, the long s
folds to `s` and the Kelvin sign to `k`. -/
def foldCase (character : Char) : Char :=
  if character = '\u017F' then 's'
  else if character = '\u212A' then 'k'
  else character.toLower

/-- What follows `word` at the beginning of a text, letters compared by case folding. -/
def afterKeyword? : Text → Text → Option Text
  | [], ahead => some ahead
  | _ :: _, [] => none
  | letter :: word, character :: ahead =>
      if foldCase character = letter then afterKeyword? word ahead else none

def beginsWith (word text : Text) : Bool :=
  (afterKeyword? word text).isSome

/-- A keyword is found exactly when the text splits into a spelling of it and the rest. -/
theorem afterKeyword?_eq_some_iff {word text ahead : Text} :
    afterKeyword? word text = some ahead ↔
      ∃ spelling, spelling.map foldCase = word ∧ text = spelling ++ ahead := by
  induction word generalizing text with
  | nil =>
      constructor
      · intro found
        cases found
        exact ⟨[], rfl, rfl⟩
      · rintro ⟨spelling, folded, rfl⟩
        rw [List.map_eq_nil_iff.mp folded]
        rfl
  | cons letter word induction =>
      cases text with
      | nil =>
          constructor
          · intro found
            cases found
          · rintro ⟨spelling, folded, split⟩
            rw [(List.append_eq_nil_iff.mp split.symm).1] at folded
            cases folded
      | cons character text =>
          by_cases same : foldCase character = letter
          · simp only [afterKeyword?, same, if_true, induction]
            constructor
            · rintro ⟨spelling, folded, rfl⟩
              exact ⟨character :: spelling, by simp [same, folded], rfl⟩
            · rintro ⟨spelling, folded, split⟩
              cases spelling with
              | nil => cases folded
              | cons first spelling =>
                  simp only [List.map_cons, List.cons.injEq] at folded
                  simp only [List.cons_append, List.cons.injEq] at split
                  exact ⟨spelling, folded.2, split.2⟩
          · simp only [afterKeyword?, same, if_false]
            constructor
            · intro found
              cases found
            · rintro ⟨spelling, folded, split⟩
              cases spelling with
              | nil => cases folded
              | cons first spelling =>
                  simp only [List.map_cons, List.cons.injEq] at folded
                  simp only [List.cons_append, List.cons.injEq] at split
                  exact absurd (split.1 ▸ folded.1) same

end CleanSvg.Text
