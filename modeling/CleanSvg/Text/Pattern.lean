import CleanSvg.Text.CaseFold
import CleanSvg.Text.CharacterSet

/-!
# Patterns at the beginning of a text

A pattern reads a beginning of a text and hands over what is left.  It carries
the proof that nothing is lost on the way: what it took and what lies ahead
make up the text.  Replacement goes from left to right and never looks again at
what it has put in.
-/

namespace CleanSvg

/-- What a pattern read: a value, the characters it took and the text after them. -/
structure Piece (α : Type) where
  value : α
  taken : Text
  ahead : Text

/-- A way to read a beginning of a text. -/
structure Pattern (α : Type) where
  read : Text → Option (Piece α)
  splits : ∀ {text : Text} {piece : Piece α},
    read text = some piece → piece.taken ++ piece.ahead = text

namespace Pattern

variable {α β : Type}

theorem ahead_suffix {pattern : Pattern α} {text : Text} {piece : Piece α}
    (found : pattern.read text = some piece) : piece.ahead <:+ text :=
  ⟨piece.taken, pattern.splits found⟩

def nothing (value : α) : Pattern α where
  read text := some ⟨value, [], text⟩
  splits found := by
    cases found
    rfl

/-- Takes nothing, at the end of the text only. -/
def atEnd : Pattern Unit where
  read
    | [] => some ⟨(), [], []⟩
    | _ :: _ => none
  splits {text _} found := by
    cases text with
    | nil =>
        cases found
        rfl
    | cons => cases found

def one (belongs : Char → Bool) : Pattern Char where
  read
    | [] => none
    | character :: ahead =>
        if belongs character then some ⟨character, [character], ahead⟩ else none
  splits {text piece} found := by
    cases text with
    | nil => cases found
    | cons character ahead =>
        by_cases member : belongs character = true
        · simp only [member, if_true, Option.some.injEq] at found
          subst found
          rfl
        · simp [member] at found

/-- Takes the longest run of characters of a class, which may be empty. -/
def run (belongs : Char → Bool) : Pattern Text where
  read text := some ⟨text.takeWhile belongs, text.takeWhile belongs, text.dropWhile belongs⟩
  splits found := by
    cases found
    exact List.takeWhile_append_dropWhile

/-- Takes the longest run of at most `most` characters of a class. -/
def runUpTo (most : Nat) (belongs : Char → Bool) : Pattern Text where
  read text :=
    let taken := (text.take most).takeWhile belongs
    some ⟨taken, taken, text.drop taken.length⟩
  splits {text _} found := by
    cases found
    have initial : (text.take most).takeWhile belongs <+: text :=
      (List.takeWhile_prefix belongs).trans (List.take_prefix most text)
    exact List.prefix_iff_eq_append.mp initial

def never : Pattern α where
  read _ := none
  splits found := by cases found

/-- Takes a given text, character by character. -/
def literal (word : Text) : Pattern Unit where
  read text := (Text.after? word text).map fun ahead => ⟨(), word, ahead⟩
  splits {text _} found := by
    obtain ⟨ahead, follows, rfl⟩ := Option.map_eq_some_iff.mp found
    exact (Text.after?_eq_some_iff.mp follows).symm

/-- Takes a keyword, letters compared by case folding. -/
def keyword (word : Text) : Pattern Unit where
  read text :=
    (Text.afterKeyword? word text).map fun ahead => ⟨(), text.take word.length, ahead⟩
  splits {text _} found := by
    obtain ⟨ahead, follows, rfl⟩ := Option.map_eq_some_iff.mp found
    obtain ⟨spelling, folded, rfl⟩ := Text.afterKeyword?_eq_some_iff.mp follows
    simp [← folded]

/-- Reads with one pattern and goes on with another, chosen by the value read. -/
def andThen (first : Pattern α) (second : α → Pattern β) : Pattern β where
  read text :=
    match first.read text with
    | none => none
    | some piece =>
        match (second piece.value).read piece.ahead with
        | none => none
        | some next => some ⟨next.value, piece.taken ++ next.taken, next.ahead⟩
  splits {text piece} found := by
    split at found
    · cases found
    · rename_i piece foundFirst
      split at found
      · cases found
      · rename_i next foundSecond
        cases found
        rw [← first.splits foundFirst, ← (second piece.value).splits foundSecond,
          List.append_assoc]

/-- Reads with the first pattern that reads at all. -/
def orElse (first second : Pattern α) : Pattern α where
  read text :=
    match first.read text with
    | none => second.read text
    | some piece => some piece
  splits {text piece} found := by
    split at found
    · exact second.splits found
    · rename_i foundFirst
      cases found
      exact first.splits foundFirst

instance : Monad Pattern where
  pure := nothing
  bind := andThen

instance : OrElse (Pattern α) where
  orElse first second := first.orElse (second ())

/-- Takes what `inner` takes; the value is the text taken. -/
def spelling (inner : Pattern α) : Pattern Text where
  read text := (inner.read text).map fun piece => ⟨piece.taken, piece.taken, piece.ahead⟩
  splits found := by
    obtain ⟨piece, read, rfl⟩ := Option.map_eq_some_iff.mp found
    exact inner.splits read

/-- Reads with one pattern as often as it takes something. -/
def readMany (inner : Pattern α) (text : Text) : Piece (List α) :=
  match _ : inner.read text with
  | some ⟨value, first :: taken, ahead⟩ =>
      let others := readMany inner ahead
      ⟨value :: others.value, first :: taken ++ others.taken, others.ahead⟩
  | _ => ⟨[], [], text⟩
termination_by text.length
decreasing_by
  rename_i read
  have split := congrArg List.length (inner.splits read)
  simp only [List.cons_append, List.length_cons, List.length_append] at split
  omega

theorem readMany_splits (inner : Pattern α) (text : Text) :
    (readMany inner text).taken ++ (readMany inner text).ahead = text := by
  fun_induction readMany inner text with
  | case1 text value first taken ahead read others induction =>
      rw [← inner.splits read]
      simp only [List.cons_append, List.append_assoc, List.cons.injEq, true_and,
        List.append_cancel_left_eq]
      exact induction
  | case2 => rfl

/-- Takes what one pattern reads, as often as it takes something. -/
def many (inner : Pattern α) : Pattern (List α) where
  read text := some (readMany inner text)
  splits found := by
    cases found
    exact readMany_splits inner _

/-- Looks for the first place where `stop` reads; `behind` holds what was passed, last
character first. -/
def throughFrom (stop : Pattern α) (behind : Text) : Text → Option (Piece Text)
  | [] => (stop.read []).map fun piece =>
      ⟨behind.reverse, behind.reverse ++ piece.taken, piece.ahead⟩
  | character :: ahead =>
      match stop.read (character :: ahead) with
      | some piece => some ⟨behind.reverse, behind.reverse ++ piece.taken, piece.ahead⟩
      | none => throughFrom stop (character :: behind) ahead

theorem throughFrom_splits {stop : Pattern α} {behind text : Text} {piece : Piece Text}
    (found : throughFrom stop behind text = some piece) :
    piece.taken ++ piece.ahead = behind.reverse ++ text := by
  induction text generalizing behind with
  | nil =>
      obtain ⟨inner, read, rfl⟩ := Option.map_eq_some_iff.mp found
      simp [← stop.splits read]
  | cons character ahead induction =>
      rw [throughFrom] at found
      split at found
      · rename_i inner read
        cases found
        simp [← stop.splits read]
      · simpa using induction found

/-- Takes everything through the first place where `stop` reads; the value is what stands
before that place. -/
def through (stop : Pattern α) : Pattern Text where
  read := throughFrom stop []
  splits found := by simpa using throughFrom_splits found

/-- Follows a state from character to character; `behind` holds what was passed, last
character first. -/
def scanFrom {σ : Type} (step : σ → Char → Option σ) (state : σ) (behind : Text) :
    Text → Option (Piece Text)
  | [] => none
  | character :: ahead =>
      match step state character with
      | none => some ⟨behind.reverse, behind.reverse ++ [character], ahead⟩
      | some next => scanFrom step next (character :: behind) ahead

theorem scanFrom_splits {σ : Type} {step : σ → Char → Option σ} {state : σ}
    {behind text : Text} {piece : Piece Text}
    (found : scanFrom step state behind text = some piece) :
    piece.taken ++ piece.ahead = behind.reverse ++ text := by
  induction text generalizing state behind with
  | nil => cases found
  | cons character ahead induction =>
      rw [scanFrom] at found
      split at found
      · cases found
        simp
      · simpa using induction found

/-- Follows a state and takes everything through the character at which the steps end; the
value is what stands before that character. -/
def scan {σ : Type} (step : σ → Char → Option σ) (state : σ) : Pattern Text where
  read := scanFrom step state []
  splits found := by simpa using scanFrom_splits found

/-- Takes what `inner` reads, or nothing. -/
def optional (inner : Pattern α) : Pattern Unit :=
  (inner.andThen fun _ => nothing ()).orElse (nothing ())

def symbol (character : Char) : Pattern Unit :=
  (one fun candidate => candidate == character).andThen fun _ => nothing ()

def blanks : Pattern Unit :=
  (run Text.isBlank).andThen fun _ => nothing ()

/-- Takes everything before a character, or to the end of the text. -/
def upTo (character : Char) : Pattern Unit :=
  (run fun candidate => candidate != character).andThen fun _ => nothing ()

def occursIn (pattern : Pattern α) : Text → Bool
  | [] => (pattern.read []).isSome
  | character :: ahead =>
      (pattern.read (character :: ahead)).isSome || pattern.occursIn ahead

/-- Replaces from left to right; `done` is the result so far, last character first. -/
def replaceFrom (pattern : Pattern α) (replacement : Piece α → Text) (done : Text) :
    Text → Text
  | [] => done.reverse
  | character :: ahead =>
      match _ : pattern.read (character :: ahead) with
      | some ⟨value, first :: taken, rest⟩ =>
          replaceFrom pattern replacement
            ((replacement ⟨value, first :: taken, rest⟩).reverseAux done) rest
      | _ => replaceFrom pattern replacement (character :: done) ahead
termination_by text => text.length
decreasing_by
  · rename_i read
    have split := congrArg List.length (pattern.splits read)
    simp only [List.cons_append, List.length_cons, List.length_append] at split
    simp only [List.length_cons]
    omega
  · simp

/-- Replaces every place, from left to right, where a pattern takes at least one character. -/
def replaceAll (pattern : Pattern α) (replacement : Piece α → Text) (text : Text) : Text :=
  replaceFrom pattern replacement [] text

/-- Removes every place where a pattern takes at least one character. -/
def eraseAll (pattern : Pattern α) (text : Text) : Text :=
  pattern.replaceAll (fun _ => []) text

theorem replaceFrom_eq (pattern : Pattern α) (replacement : Piece α → Text)
    (done text : Text) :
    replaceFrom pattern replacement done text =
      done.reverse ++ pattern.replaceAll replacement text := by
  unfold replaceAll
  induction lengthBound : text.length using Nat.strongRecOn generalizing done text with
  | ind length induction =>
      cases text with
      | nil => simp [replaceFrom]
      | cons character ahead =>
          subst lengthBound
          unfold replaceFrom
          split
          · rename_i value first taken rest read
            have split := congrArg List.length (pattern.splits read)
            simp only [List.cons_append, List.length_cons, List.length_append] at split
            have shorter : rest.length < (character :: ahead).length := by
              simp only [List.length_cons]
              omega
            rw [induction _ shorter _ rest rfl,
              induction _ shorter (List.reverseAux _ []) rest rfl]
            simp [List.reverseAux_eq]
          · rw [induction _ (by simp) _ ahead rfl, induction _ (by simp) [character] ahead rfl]
            simp

@[simp] theorem replaceAll_nil (pattern : Pattern α) (replacement : Piece α → Text) :
    pattern.replaceAll replacement [] = [] := by
  simp [replaceAll, replaceFrom]

theorem replaceAll_of_read {pattern : Pattern α} {replacement : Piece α → Text}
    {text : Text} {piece : Piece α} (read : pattern.read text = some piece)
    (progress : piece.taken ≠ []) :
    pattern.replaceAll replacement text =
      replacement piece ++ pattern.replaceAll replacement piece.ahead := by
  obtain ⟨value, taken, ahead⟩ := piece
  cases taken with
  | nil => exact absurd rfl progress
  | cons first taken =>
      cases text with
      | nil => exact absurd (pattern.splits read) (by simp)
      | cons character rest =>
          unfold replaceAll
          rw [replaceFrom]
          split
          · rename_i value' first' taken' rest' read'
            rw [read] at read'
            cases read'
            rw [replaceFrom_eq, replaceAll]
            simp [List.reverseAux_eq]
          · rename_i refused
            exact absurd read (refused value first taken ahead)

theorem replaceAll_of_not_read {pattern : Pattern α} {replacement : Piece α → Text}
    {character : Char} {ahead : Text}
    (refused : ∀ piece, pattern.read (character :: ahead) = some piece → piece.taken = []) :
    pattern.replaceAll replacement (character :: ahead) =
      character :: pattern.replaceAll replacement ahead := by
  conv => lhs; unfold replaceAll
  rw [replaceFrom]
  split
  · rename_i read
    exact absurd (refused _ read) (by simp)
  · rw [replaceFrom_eq]
    simp

end Pattern

end CleanSvg
