import CleanSvg.Markup.Reader

/-!
# Where a tag ends

A tag ends at the first closing bracket outside quotes, so what stands inside
it is a text that can be followed to its end.  A part of such a text can be
followed too, though it may begin inside quotes that were opened before it.
-/

namespace CleanSvg.Reader

/-- The quotes that are open after a text, unless a tag ends inside it. -/
def follow : Option Char → Text → Option (Option Char)
  | quote, [] => some quote
  | quote, character :: ahead =>
      (quoteStep quote character).bind fun after => follow after ahead

/-- The quotes that can be open in a tag. -/
def quoteStates : List (Option Char) :=
  [none, some '"', some '\'']

theorem mem_quoteStates {quote : Option Char} :
    quote ∈ quoteStates ↔ quote = none ∨ quote = some '"' ∨ quote = some '\'' := by
  simp [quoteStates]

theorem follow_append (quote : Option Char) (left right : Text) :
    follow quote (left ++ right) =
      (follow quote left).bind fun after => follow after right := by
  induction left generalizing quote with
  | nil => rfl
  | cons character left induction =>
      cases step : quoteStep quote character with
      | none => simp [follow, step]
      | some after => simp [follow, step, induction]

theorem quoteStep_eq_none_iff {quote : Option Char} {character : Char} :
    quoteStep quote character = none ↔ quote = none ∧ character = '>' := by
  cases quote with
  | none => simp [quoteStep]; split <;> simp
  | some opening => simp [quoteStep]; split <;> simp

theorem quoteStep_mem
    {quote after : Option Char} {character : Char} (state : quote ∈ quoteStates)
    (step : quoteStep quote character = some after) : after ∈ quoteStates := by
  cases quote with
  | none =>
      rw [quoteStep] at step
      split at step
      · cases step
      · split at step
        · rename_i opening
          cases step
          rcases opening with rfl | rfl <;> decide
        · cases step
          decide
  | some opening =>
      rw [quoteStep] at step
      split at step
      · cases step
        decide
      · cases step
        exact state

theorem follow_mem
    {quote after : Option Char} {text : Text} (state : quote ∈ quoteStates)
    (followed : follow quote text = some after) : after ∈ quoteStates := by
  induction text generalizing quote with
  | nil =>
      cases followed
      exact state
  | cons character text induction =>
      obtain ⟨next, step, followed⟩ := Option.bind_eq_some_iff.mp followed
      exact induction (quoteStep_mem state step) followed

theorem follow_of_prefix
    {quote : Option Char} {part text : Text} (begins : part <+: text)
    (followed : (follow quote text).isSome = true) :
    (follow quote part).isSome = true := by
  obtain ⟨behind, rfl⟩ := begins
  rw [follow_append] at followed
  exact Option.isSome_of_isSome_bind followed

theorem follow_of_infix
    {quote : Option Char} {part text : Text} (state : quote ∈ quoteStates)
    (inside : part <:+: text) (followed : (follow quote text).isSome = true) :
    ∃ between ∈ quoteStates, (follow between part).isSome = true := by
  obtain ⟨before, behind, rfl⟩ := inside
  have followed := follow_of_prefix (List.prefix_append (before ++ part) behind) followed
  obtain ⟨after, followed⟩ := Option.isSome_iff_exists.mp followed
  rw [follow_append] at followed
  obtain ⟨between, begun, followed⟩ := Option.bind_eq_some_iff.mp followed
  exact ⟨between, follow_mem state begun, Option.isSome_iff_exists.mpr ⟨_, followed⟩⟩

theorem scanFrom_eq_some_iff
    {quote : Option Char} {behind text : Text} {piece : Piece Text} :
    Pattern.scanFrom quoteStep quote behind text = some piece ↔
      ∃ inside ahead, text = inside ++ '>' :: ahead ∧
        follow quote inside = some none ∧
          piece = ⟨behind.reverse ++ inside, behind.reverse ++ inside ++ ['>'], ahead⟩ := by
  induction text generalizing quote behind with
  | nil => simp [Pattern.scanFrom]
  | cons character text induction =>
      rw [Pattern.scanFrom]
      cases step : quoteStep quote character with
      | none =>
          obtain ⟨rfl, rfl⟩ := quoteStep_eq_none_iff.mp step
          constructor
          · intro found
            cases found
            exact ⟨[], text, rfl, rfl, by simp⟩
          · rintro ⟨inside, ahead, same, followed, rfl⟩
            cases inside with
            | nil =>
                cases same
                simp
            | cons first inside =>
                cases same
                cases followed
      | some next =>
          simp only
          rw [induction]
          constructor
          · rintro ⟨inside, ahead, rfl, followed, rfl⟩
            refine ⟨character :: inside, ahead, rfl, ?_, by simp⟩
            rw [follow, step]
            exact followed
          · rintro ⟨inside, ahead, same, followed, rfl⟩
            cases inside with
            | nil =>
                cases same
                cases followed
                cases step
            | cons first inside =>
                cases same
                rw [follow, step] at followed
                exact ⟨inside, ahead, rfl, followed, by simp⟩

/-- The rest of a tag is read exactly when a bracket ends it outside quotes. -/
theorem tagRest_read_eq_some_iff {text : Text} {piece : Piece Text} :
    tagRest.read text = some piece ↔
      ∃ inside ahead, text = inside ++ '>' :: ahead ∧
        follow none inside = some none ∧ piece = ⟨inside, inside ++ ['>'], ahead⟩ :=
  scanFrom_eq_some_iff

end CleanSvg.Reader
