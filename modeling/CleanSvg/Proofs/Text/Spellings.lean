import CleanSvg.Proofs.Text.CaseFold

/-!
# How a keyword is spelled

Besides capitals, case folding takes two characters for letters: the long s and the
Kelvin sign.  So a keyword has finitely many spellings without capitals, and it is
found exactly where one of them is, the case of ASCII letters aside.
-/

namespace CleanSvg.Text

/-- The letter that folding takes a character for, capitals aside. -/
def plainLetter (character : Char) : Char :=
  if character = '\u017F' then 's'
  else if character = '\u212A' then 'k'
  else character

/-- The characters that are taken for a letter. -/
def letterForms (letter : Char) : List Char :=
  if letter = 's' then ['s', '\u017F']
  else if letter = 'k' then ['k', '\u212A']
  else [letter]

/-- The spellings of a keyword, capitals aside. -/
def spellings : Text → List Text
  | [] => [[]]
  | letter :: word =>
      (letterForms letter).flatMap fun form => (spellings word).map (form :: ·)

theorem toLower_eq_iff_of_no_letter
    {sign : Char} (noLetter : ¬ ('a' ≤ sign ∧ sign ≤ 'z')) (fixed : sign.toLower = sign)
    (character : Char) : character.toLower = sign ↔ character = sign := by
  constructor
  · intro lowered
    rcases toLower_eq_self_or_letter character with kept | letter
    · exact kept.symm.trans lowered
    · rw [lowered] at letter
      exact absurd letter noLetter
  · intro same
    rw [same]
    exact fixed

theorem foldCase_eq (character : Char) : foldCase character = plainLetter character.toLower := by
  have longS : character.toLower = '\u017F' ↔ character = '\u017F' :=
    toLower_eq_iff_of_no_letter (by decide) (by decide) character
  have kelvin : character.toLower = '\u212A' ↔ character = '\u212A' :=
    toLower_eq_iff_of_no_letter (by decide) (by decide) character
  simp only [foldCase, plainLetter, longS, kelvin]

theorem map_foldCase_eq (text : Text) :
    text.map foldCase = (asciiLowercase text).map plainLetter := by
  rw [asciiLowercase, List.map_map]
  apply List.map_congr_left
  intro character _
  exact foldCase_eq character

theorem plainLetter_eq_iff {form letter : Char} (folded : foldCase letter = letter) :
    plainLetter form = letter ↔ form ∈ letterForms letter := by
  have notLongS : letter ≠ '\u017F' := by
    rintro rfl
    exact absurd folded (by decide)
  have notKelvin : letter ≠ '\u212A' := by
    rintro rfl
    exact absurd folded (by decide)
  unfold plainLetter letterForms
  grind

theorem map_plainLetter_eq_iff {word start : Text} (folded : word.map foldCase = word) :
    start.map plainLetter = word ↔ start ∈ spellings word := by
  induction word generalizing start with
  | nil => simp [spellings]
  | cons letter word induction =>
      obtain ⟨foldedLetter, foldedWord⟩ := List.cons.inj folded
      cases start with
      | nil => simp [spellings]
      | cons form start =>
          rw [List.map_cons, List.cons.injEq, plainLetter_eq_iff foldedLetter,
            induction foldedWord]
          simp [spellings]

/-- A text begins with a keyword exactly if it begins with a spelling of it, the case of
ASCII letters aside. -/
theorem beginsWith_iff {word text : Text} (folded : word.map foldCase = word) :
    beginsWith word text = true ↔
      ∃ spelling ∈ spellings word, spelling <+: asciiLowercase text := by
  rw [beginsWith, Option.isSome_iff_exists]
  constructor
  · rintro ⟨ahead, found⟩
    obtain ⟨start, same, rfl⟩ := afterKeyword?_eq_some_iff.mp found
    rw [map_foldCase_eq] at same
    refine ⟨asciiLowercase start, (map_plainLetter_eq_iff folded).mp same, ?_⟩
    rw [asciiLowercase, asciiLowercase, List.map_append]
    exact List.prefix_append _ _
  · rintro ⟨spelling, spells, begins⟩
    obtain ⟨start, begun, rfl⟩ := List.prefix_map_iff.mp begins
    obtain ⟨ahead, rfl⟩ := begun
    have same := (map_plainLetter_eq_iff folded).mpr spells
    refine ⟨ahead, afterKeyword?_eq_some_iff.mpr ⟨start, ?_, rfl⟩⟩
    rw [map_foldCase_eq]
    exact same

/-- A keyword made of two is found where the second is found behind the first. -/
theorem afterKeyword?_append_word (first second text : Text) :
    afterKeyword? (first ++ second) text =
      (afterKeyword? first text).bind (afterKeyword? second) := by
  induction first generalizing text with
  | nil => rfl
  | cons letter first induction =>
      cases text with
      | nil => rfl
      | cons character text =>
          rw [List.cons_append, afterKeyword?, afterKeyword?]
          split
          · exact induction text
          · rfl

theorem beginsWith_append_iff {first second text : Text} :
    beginsWith (first ++ second) text = true ↔
      ∃ ahead, afterKeyword? first text = some ahead ∧ beginsWith second ahead = true := by
  rw [beginsWith, afterKeyword?_append_word]
  cases afterKeyword? first text with
  | none => simp
  | some ahead => simp [beginsWith]

theorem beginsWith_sign_iff
    {sign : Char} {text : Text} (folded : foldCase sign = sign)
    (noLetter : ¬ ('a' ≤ sign ∧ sign ≤ 'z')) :
    beginsWith [sign] text = true ↔ text.head? = some sign := by
  cases text with
  | nil => simp [beginsWith, afterKeyword?]
  | cons character text =>
      have signs : ∀ letter ∈ [sign],
          foldCase letter = letter ∧ ¬ ('a' ≤ letter ∧ letter ≤ 'z') := by
        intro letter listed
        rw [List.mem_singleton.mp listed]
        exact ⟨folded, noLetter⟩
      have single : foldCase character = sign ↔ character = sign := by
        have whole : [character].map foldCase = [sign] ↔ [character] = [sign] :=
          map_foldCase_eq_iff signs
        simpa using whole
      by_cases same : character = sign
      · simp [beginsWith, afterKeyword?, same, folded]
      · simp [beginsWith, afterKeyword?, single, same]

end CleanSvg.Text
