import CleanSvg.Proofs.Style.PlainText
import CleanSvg.Proofs.Style.Tokens

/-!
# What is left of an import rule

The target of an import is read as a whole only after white space, and a target
in a call of `url` only to the first closing parenthesis, be it between quotes or
not.  From there the rule is removed to the next semicolon.  So a rule goes in
full unless a semicolon stands in that part of its target which is not read as a
whole; then the text behind that semicolon stays and is cleaned with the rest.
-/

namespace CleanSvg.Style

/-- What stands behind the first place where a sign stands in a text. -/
def behind (sign : Char) (text : Text) : Text :=
  (text.dropWhile (· != sign)).tail

inductive TargetForm
  /-- Between quotes. -/
  | quoted
  /-- Between quotes in a call of `url`. -/
  | url
deriving DecidableEq, Repr

namespace TargetForm

def written (form : TargetForm) (quote : Char) (target : Text) : Text :=
  match form with
  | .quoted => quote :: target ++ [quote]
  | .url => "url(".toList ++ quote :: target ++ [quote, ')']

end TargetForm

/-- An import rule with its target and what stands between the target and the semicolon. -/
def importText (form : TargetForm) (blanks : Text) (quote : Char) (target media : Text) : Text :=
  "@import".toList ++ blanks ++ form.written quote target ++ media ++ [';']

/-- An import rule that is written without escapes and comments.  Between its keyword and a
quote there may be no white space at all. -/
structure WrittenImport where
  form : TargetForm
  blanks : Text
  quote : Char
  target : Text
  media : Text
  allBlank : ∀ character ∈ blanks, Text.isBlank character = true
  spaced : form = .url → blanks ≠ []
  isQuote : quote ∈ ['"', '\'']
  unquoted : quote ∉ target
  ended : ';' ∉ media
  noBackslash : '\\' ∉ importText form blanks quote target media
  noComment : ¬ "/*".toList <:+: importText form blanks quote target media

namespace WrittenImport

variable (rule : WrittenImport)

def text : Text :=
  importText rule.form rule.blanks rule.quote rule.target rule.media

/-- The part of a rule that is not read as a whole with the target. -/
def openPart : Text :=
  match rule.form with
  | .quoted =>
      if rule.blanks = [] then
        rule.quote :: rule.target ++ rule.quote :: rule.media ++ [';']
      else rule.media ++ [';']
  | .url => behind ')' (rule.quote :: rule.target ++ rule.quote :: ')' :: rule.media ++ [';'])

/-- What removal leaves of a rule. -/
def leftover : Text :=
  behind ';' rule.openPart

/-- Whether a semicolon inside the target ends the removal. -/
def EndsEarly : Prop :=
  match rule.form with
  | .quoted => rule.blanks = [] ∧ ';' ∈ rule.target
  | .url => ';' ∈ behind ')' rule.target

end WrittenImport

theorem behind_append_of_not_mem
    {sign : Char} {front : Text} (absent : sign ∉ front) (ahead : Text) :
    behind sign (front ++ ahead) = behind sign ahead := by
  rw [behind, Text.dropWhile_ne_append absent, behind]

theorem behind_append_cons
    {sign : Char} {front : Text} (absent : sign ∉ front) (ahead : Text) :
    behind sign (front ++ sign :: ahead) = ahead := by
  rw [behind_append_of_not_mem absent, behind, List.dropWhile_cons_of_neg (by simp),
    List.tail_cons]

theorem behind_eq_nil_of_not_mem {sign : Char} {text : Text} (absent : sign ∉ text) :
    behind sign text = [] := by
  rw [← List.append_nil text, behind_append_of_not_mem absent]
  rfl

theorem behind_append
    {sign : Char} {text : Text} (member : sign ∈ text) (more : Text) :
    behind sign (text ++ more) = behind sign text ++ more := by
  obtain ⟨front, ahead, rfl, absent⟩ := List.eq_append_cons_of_mem member
  rw [List.append_assoc, List.cons_append, behind_append_cons absent,
    behind_append_cons absent]

theorem behind_suffix (sign : Char) (text : Text) : behind sign text <:+ text :=
  (List.tail_suffix _).trans (List.dropWhile_suffix _)

theorem behind_concat_eq_nil_iff {sign : Char} {text : Text} :
    behind sign (text ++ [sign]) = [] ↔ sign ∉ text := by
  constructor
  · intro nothing member
    rw [behind_append member] at nothing
    exact List.cons_ne_nil _ _ (List.append_eq_nil_iff.mp nothing).2
  · intro absent
    exact behind_append_cons absent []

theorem isBlank_quote {quote : Char} (isQuote : quote ∈ ['"', '\'']) :
    Text.isBlank quote = false :=
  @forall_mem_of_all _ (fun quote => Text.isBlank quote = false) _ ['"', '\''] (by decide)
    quote isQuote

theorem closedCall_refuses_quote {quote : Char} (isQuote : quote ∈ ['"', '\'']) :
    (closedCall "url").Refuses quote := by
  have noLetter : Text.foldCase quote ≠ 'u' :=
    @forall_mem_of_all _ (fun quote => Text.foldCase quote ≠ 'u') _ ['"', '\''] (by decide)
      quote isQuote
  exact closedCall_refuses noLetter

theorem quoted_leaves {quote : Char} {target : Text} (unquoted : quote ∉ target) (ahead : Text) :
    (quoted quote).Leaves (quote :: target ++ quote :: ahead) ahead :=
  .bind (.symbol quote _) fun _ =>
    .bind (.through_symbol unquoted ahead) fun _ => .pure () ahead

theorem quoted_refuses {quote sign : Char} (differs : sign ≠ quote) :
    (quoted quote).Refuses sign :=
  .bind_left (.symbol differs)

theorem closedCall_leaves {name text : Text}
    (folded : name.map Text.foldCase = name) (closed : ')' ∈ text) :
    (closedCall name).Leaves (name ++ '(' :: text) (behind ')' text) := by
  obtain ⟨body, ahead, rfl, absent⟩ := List.eq_append_cons_of_mem closed
  rw [behind_append_cons absent]
  have opened : (callOpening name).Leaves (name ++ '(' :: (body ++ ')' :: ahead))
      (body ++ ')' :: ahead) :=
    ⟨_, callOpening_read_iff.mpr ⟨name, [], _, folded, nofun, by simp, rfl⟩, rfl⟩
  exact .bind opened fun _ => .bind (.through_symbol absent ahead) fun _ => .pure () ahead

/-- A target between quotes is read as a whole, whatever it holds. -/
theorem importTarget_leaves_quoted
    {blanks target : Text} {quote : Char} (allBlank : ∀ blank ∈ blanks, Text.isBlank blank = true)
    (spaced : blanks ≠ []) (isQuote : quote ∈ ['"', '\'']) (unquoted : quote ∉ target)
    (ahead : Text) :
    importTarget.Leaves (blanks ++ (quote :: target ++ quote :: ahead)) ahead := by
  obtain ⟨first, others, rfl⟩ := List.exists_cons_of_ne_nil spaced
  obtain ⟨firstBlank, otherBlanks⟩ := List.forall_mem_cons.mp allBlank
  have skipped : Pattern.blanks.Leaves (others ++ (quote :: target ++ quote :: ahead))
      (quote :: target ++ quote :: ahead) := by
    have leaves := Pattern.Leaves.blanks (others ++ (quote :: target ++ quote :: ahead))
    rwa [List.cons_append, (dropWhile_isBlank_eq otherBlanks (isBlank_quote isQuote)).2]
      at leaves
  refine .bind (.one firstBlank _) fun _ => .bind skipped fun _ => ?_
  refine .orElse_right (closedCall_refuses_quote isQuote _) ?_
  rcases List.mem_cons.mp isQuote with rfl | isQuote
  · exact .orElse_left (quoted_leaves unquoted ahead) _
  · obtain rfl := List.mem_singleton.mp isQuote
    exact .orElse_right (quoted_refuses (by decide) _) (quoted_leaves unquoted ahead)

theorem importTarget_leaves_url
    {blanks text : Text} (allBlank : ∀ blank ∈ blanks, Text.isBlank blank = true)
    (spaced : blanks ≠ []) (closed : ')' ∈ text) :
    importTarget.Leaves (blanks ++ ("url(".toList ++ text)) (behind ')' text) := by
  obtain ⟨first, others, rfl⟩ := List.exists_cons_of_ne_nil spaced
  obtain ⟨firstBlank, otherBlanks⟩ := List.forall_mem_cons.mp allBlank
  have skipped : Pattern.blanks.Leaves (others ++ ("url(".toList ++ text))
      ("url(".toList ++ text) := by
    have leaves := Pattern.Leaves.blanks (others ++ ("url(".toList ++ text))
    have visible : Text.isBlank 'u' = false := by decide
    rwa [show "url(".toList ++ text = 'u' :: ('r' :: 'l' :: '(' :: text) from rfl,
      (dropWhile_isBlank_eq otherBlanks visible).2] at leaves
  refine .bind (.one firstBlank _) fun _ => .bind skipped fun _ => ?_
  have called := @closedCall_leaves "url" text (by decide) closed
  exact .orElse_left called _

theorem importTarget_refuses_quote {quote : Char} (isQuote : quote ∈ ['"', '\'']) :
    importTarget.Refuses quote :=
  .bind_left (.one (isBlank_quote isQuote))

/-- Behind the target a rule goes on through the next semicolon. -/
theorem importRule_leaves
    {text middle : Text} (target : (Pattern.optional importTarget).Leaves text middle) :
    importRule.Leaves ("@import".toList ++ text) (behind ';' middle) := by
  refine .bind (.keyword (by decide) text) fun _ => .bind target fun _ =>
    .bind (.upTo ';' middle) fun _ => ?_
  rw [behind]
  cases left : middle.dropWhile (· != ';') with
  | nil => exact .optional_of_none rfl
  | cons sign ahead =>
      have head := List.head?_dropWhile_not (· != ';') middle
      rw [left] at head
      obtain rfl : sign = ';' := by simpa using head
      exact .optional (.symbol ';' ahead)

namespace WrittenImport

variable (rule : WrittenImport)

theorem isPlain_text : IsPlain rule.text where
  noBackslash := rule.noBackslash
  noComment := rule.noComment
  noSlashAtEnd := by
    intro ends
    obtain ⟨front, same⟩ := ends
    obtain ⟨_, slash⟩ := List.append_inj' (same : front ++ ['/'] = _ ++ [';']) rfl
    cases slash

theorem quote_ne {sign : Char} (foreign : sign ∉ ['"', '\'']) : sign ≠ rule.quote := by
  rintro rfl
  exact foreign rule.isQuote

theorem behind_quoted (ahead : Text) :
    behind ')' (rule.quote :: rule.target ++ ahead) = behind ')' (rule.target ++ ahead) := by
  have absent : ')' ∉ [rule.quote] := by
    simpa using rule.quote_ne (by decide)
  exact behind_append_of_not_mem absent (rule.target ++ ahead)

/-- What removal does not pass over as a whole ends with the semicolon of the rule, and holds
another one exactly if the removal ends early. -/
theorem openPart_eq :
    ∃ shown, rule.openPart = shown ++ [';'] ∧ (';' ∈ shown ↔ rule.EndsEarly) := by
  have notQuote : ';' ≠ rule.quote := rule.quote_ne (by decide)
  rw [openPart, EndsEarly]
  cases rule.form with
  | quoted =>
      by_cases unspaced : rule.blanks = []
      · refine ⟨rule.quote :: rule.target ++ rule.quote :: rule.media, ?_, ?_⟩
        · simp [unspaced]
        · simp [unspaced, notQuote, rule.ended]
      · exact ⟨rule.media, by simp [unspaced], by simp [unspaced, rule.ended]⟩
  | url =>
      simp only
      rw [List.append_assoc, rule.behind_quoted]
      by_cases closed : ')' ∈ rule.target
      · refine ⟨behind ')' rule.target ++ rule.quote :: ')' :: rule.media, ?_, ?_⟩
        · simp [behind_append closed]
        · simp [notQuote, rule.ended]
      · have behindQuote : ')' ∉ rule.target ++ [rule.quote] := by
          simpa [closed] using rule.quote_ne (by decide)
        refine ⟨rule.media, ?_, ?_⟩
        · have same := behind_append_cons behindQuote (rule.media ++ [';'])
          simpa using same
        · simp [behind_eq_nil_of_not_mem closed, rule.ended]

theorem semicolon_mem_openPart : ';' ∈ rule.openPart := by
  obtain ⟨shown, same, _⟩ := rule.openPart_eq
  rw [same]
  exact List.mem_concat_self

theorem leftover_eq_nil_iff : rule.leftover = [] ↔ ¬ rule.EndsEarly := by
  obtain ⟨shown, same, early⟩ := rule.openPart_eq
  rw [leftover, same, behind_concat_eq_nil_iff, early]

theorem openPart_suffix : rule.openPart <:+ rule.text := by
  unfold openPart text importText
  cases rule.form with
  | quoted =>
      by_cases unspaced : rule.blanks = []
      · exact ⟨"@import".toList, by simp [unspaced, TargetForm.written]⟩
      · exact ⟨"@import".toList ++ rule.blanks ++ rule.quote :: rule.target ++ [rule.quote],
          by simp [unspaced, TargetForm.written]⟩
  | url =>
      refine (behind_suffix ')' _).trans ?_
      exact ⟨"@import".toList ++ rule.blanks ++ "url(".toList, by simp [TargetForm.written]⟩

theorem isPlain_leftover : IsPlain rule.leftover :=
  rule.isPlain_text.of_suffix ((behind_suffix ';' _).trans rule.openPart_suffix)

theorem target_leaves (ahead : Text) :
    (Pattern.optional importTarget).Leaves
      (rule.blanks ++ rule.form.written rule.quote rule.target ++ rule.media ++ ';' :: ahead)
      (rule.openPart ++ ahead) := by
  have allBlank := rule.allBlank
  have spaced := rule.spaced
  rw [openPart]
  cases form : rule.form with
  | quoted =>
      by_cases unspaced : rule.blanks = []
      · have refused := importTarget_refuses_quote rule.isQuote
          (rule.target ++ rule.quote :: (rule.media ++ ';' :: ahead))
        have leaves := Pattern.Leaves.optional_of_none refused
        simpa [unspaced, TargetForm.written] using leaves
      · have leaves := importTarget_leaves_quoted allBlank unspaced rule.isQuote rule.unquoted
          (rule.media ++ ';' :: ahead)
        simpa [unspaced, TargetForm.written] using leaves.optional
  | url =>
      have closed : ')' ∈ rule.quote :: rule.target ++ rule.quote :: ')' :: rule.media ++ [';'] :=
        by simp
      have leaves := importTarget_leaves_url allBlank (spaced form)
        (List.mem_append_left ahead closed)
      rw [behind_append closed] at leaves
      simpa [TargetForm.written] using leaves.optional

theorem importRule_leaves (ahead : Text) :
    importRule.Leaves (rule.text ++ ahead) (rule.leftover ++ ahead) := by
  have leaves := Style.importRule_leaves (rule.target_leaves ahead)
  rw [behind_append rule.semicolon_mem_openPart] at leaves
  unfold text importText leftover
  simpa using leaves

end WrittenImport

/-- An import rule is removed through the first semicolon that is not read as a whole with its
target, and what stands behind that semicolon is cleaned with the rest.  Nothing of the rule
stays exactly if that semicolon is its own. -/
theorem clean_writtenImport (rule : WrittenImport) (rest : Text) :
    clean (rule.text ++ rest) = clean (rule.leftover ++ rest) ∧
      (rule.leftover = [] ↔ ¬ rule.EndsEarly) := by
  refine ⟨clean_eq_of_cleanOnce_eq ?_, rule.leftover_eq_nil_iff⟩
  have removed : importRule.eraseAll (rule.text ++ normalize rest) =
      importRule.eraseAll (rule.leftover ++ normalize rest) :=
    Pattern.eraseAll_of_leaves importRule_takesAtLeast (rule.importRule_leaves _)
  rw [cleanOnce, cleanOnce, rule.isPlain_text.normalize_append,
    rule.isPlain_leftover.normalize_append, removed]

/-- Behind white space a target between quotes is read as a whole. -/
def spacedImport : WrittenImport where
  form := .quoted
  blanks := [' ']
  quote := '"'
  target := "a;b).css".toList
  media := " screen".toList
  allBlank := forall_mem_of_all rfl
  spaced := by decide
  isQuote := by decide
  unquoted := by decide +kernel
  ended := by decide
  noBackslash := by decide +kernel
  noComment := by decide +kernel

theorem clean_spacedImport :
    spacedImport.leftover = [] ∧
      clean (spacedImport.text ++ "rect{}".toList) = "rect{}".toList := by
  have complete : ¬ spacedImport.EndsEarly := by
    rintro ⟨unspaced, _⟩
    cases unspaced
  obtain ⟨cleaned, gone⟩ := clean_writtenImport spacedImport "rect{}".toList
  have nothing := gone.mpr complete
  refine ⟨nothing, ?_⟩
  rw [cleaned, nothing]
  decide +kernel

/-- Without white space in front of it, a target between quotes is not read as a whole. -/
def unspacedImport : WrittenImport where
  form := .quoted
  blanks := []
  quote := '"'
  target := "a;b.css".toList
  media := []
  allBlank := nofun
  spaced := by decide
  isQuote := by decide
  unquoted := by decide +kernel
  ended := by decide
  noBackslash := by decide +kernel
  noComment := by decide +kernel

/-- A closing parenthesis between the quotes ends the call. -/
def parenthesizedImport : WrittenImport where
  form := .url
  blanks := [' ']
  quote := '"'
  target := "a)b;c".toList
  media := []
  allBlank := forall_mem_of_all rfl
  spaced := by decide
  isQuote := by decide
  unquoted := by decide +kernel
  ended := by decide
  noBackslash := by decide +kernel
  noComment := by decide +kernel

theorem clean_unspacedImport :
    unspacedImport.leftover = "b.css\";".toList ∧
      clean (unspacedImport.text ++ "rect{}".toList) = "b.css\";rect{}".toList := by
  constructor
  · decide +kernel
  · decide +kernel

theorem clean_parenthesizedImport :
    parenthesizedImport.leftover = "c\");".toList ∧
      clean (parenthesizedImport.text ++ "rect{}".toList) = "c\");rect{}".toList := by
  constructor
  · decide +kernel
  · decide +kernel

end CleanSvg.Style
