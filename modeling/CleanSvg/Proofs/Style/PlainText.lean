import CleanSvg.Proofs.Style.Spellings

/-!
# Where normalization begins anew

Normalization goes from left to right and begins anew behind every escape and
every comment.  So a text can be cut where a sign stands that goes on no escape,
and behind comments that are closed, and both parts come out on their own.  Text
with neither escapes nor comments comes out as it was before whatever follows it.
-/

namespace CleanSvg.Style

/-- Style text with its escapes decoded and without backslashes, comments still in it. -/
def unescaped (css : Text) : Text :=
  dropBackslashes (decodeEscapes css)

theorem normalize_eq (css : Text) : normalize css = comment.eraseAll (unescaped css) := rfl

theorem normalize_eq_self
    {css : Text} (noBackslash : '\\' ∉ css) (noComment : ¬ "/*".toList <:+: css) :
    normalize css = css := by
  rw [normalize_eq, unescaped, decodeEscapes_eq_self noBackslash,
    dropBackslashes_eq_self_iff.mpr noBackslash]
  exact (Pattern.eraseAll_eq_self_iff comment_takesAtLeast).mpr
    (comment_occursIn_eq_false_iff.mpr noComment)

/-- Texts of which one pass makes the same are cleaned to the same. -/
theorem clean_eq_of_cleanOnce_eq {left right : Text} (same : cleanOnce left = cleanOnce right) :
    clean left = clean right := by
  rw [clean, clean, settled?, settled?, same]

/-- A sign that goes on no escape and begins none. -/
structure EndsEscape (next : Char) : Prop where
  noDigit : isHexDigit next = false
  visible : Text.isBlank next = false
  noBackslash : next ≠ '\\'

theorem EndsEscape.noLineFeed {next : Char} (ends : EndsEscape next) : next ≠ '\n' := by
  rintro rfl
  exact absurd ends.visible (by decide)

theorem codePointEscape_endsBefore {next : Char} (ends : EndsEscape next) (text : Text) :
    codePointEscape.EndsBefore next text :=
  .bind (.symbol ends.noBackslash) fun _ _ => .bind (.one ends.noDigit) fun _ _ =>
    .bind (.runUpTo ends.noDigit) fun _ _ =>
      .bind (.optional (.one ends.visible)) fun _ _ => .pure _

theorem literalEscape_endsBefore
    {next : Char} (ends : EndsEscape next) {text : Text} (more : text ≠ ['\\']) :
    literalEscape.EndsBefore next text := by
  refine .bind (.symbol ends.noBackslash) fun start opens => .one_of_ne_nil ?_
  obtain ⟨ahead, rfl, rfl⟩ := Pattern.read_symbol_eq_some_iff.mp opens
  rintro rfl
  exact more rfl

/-- Only a backslash that stands alone is read together with what comes behind it. -/
theorem escape_endsBefore
    {next : Char} (ends : EndsEscape next) {text : Text} (more : text ≠ ['\\']) :
    escape.EndsBefore next text :=
  .orElse (codePointEscape_endsBefore ends text) (literalEscape_endsBefore ends more)

theorem dropBackslashes_append (left right : Text) :
    dropBackslashes (left ++ right) = dropBackslashes left ++ dropBackslashes right :=
  List.filter_append left right

theorem unescaped_of_read
    {text : Text} {piece : Piece Char} (read : escape.read text = some piece) :
    unescaped text = dropBackslashes [piece.value] ++ unescaped piece.ahead := by
  rw [unescaped, decodeEscapes_of_read read]
  exact dropBackslashes_append [piece.value] _

theorem unescaped_of_not_read
    {character : Char} {ahead : Text} (refused : escape.read (character :: ahead) = none) :
    unescaped (character :: ahead) = dropBackslashes [character] ++ unescaped ahead := by
  have stays : decodeEscapes (character :: ahead) = character :: decodeEscapes ahead :=
    Pattern.replaceAll_of_not_read (by simp [refused])
  rw [unescaped, stays]
  exact dropBackslashes_append [character] _

theorem unescaped_append_of_not_mem
    {plain : Text} (absent : '\\' ∉ plain) (ahead : Text) :
    unescaped (plain ++ ahead) = plain ++ unescaped ahead := by
  rw [unescaped, decodeEscapes_append_of_not_mem absent, dropBackslashes_append,
    dropBackslashes_eq_self_iff.mpr absent, unescaped]

/-- Escapes can be decoded on both sides of a sign that goes on none of them. -/
theorem unescaped_append_cons
    {next : Char} (ends : EndsEscape next) (before ahead : Text) :
    unescaped (before ++ next :: ahead) = unescaped before ++ next :: unescaped ahead := by
  have itself : unescaped (next :: ahead) = next :: unescaped ahead :=
    unescaped_append_of_not_mem (by simpa using ends.noBackslash.symm : '\\' ∉ [next]) ahead
  induction before using escape.scan_induction with
  | empty => simpa [unescaped, decodeEscapes, dropBackslashes] using itself
  | find text piece read progress induction =>
      have more : text ≠ ['\\'] := by
        rintro rfl
        have long := escape_takesAtLeast _ piece read
        have short := congrArg List.length (escape.splits read)
        simp only [List.length_append, List.length_singleton] at short
        omega
      have extended := escape_endsBefore ends more ahead
      rw [read] at extended
      rw [unescaped_of_read extended, unescaped_of_read read, induction, List.append_assoc]
  | pass character others refused induction =>
      have refused : escape.read (character :: others) = none := by
        refine Option.eq_none_iff_forall_not_mem.mpr fun piece read => ?_
        have long := escape_takesAtLeast _ piece read
        rw [refused piece read] at long
        exact absurd long (by decide)
      by_cases alone : character :: others = ['\\']
      · have nothing : unescaped ['\\'] = [] := by decide +kernel
        have read := escape_read_literal ends.noDigit ends.noLineFeed ahead
        have kept : dropBackslashes [next] = [next] :=
          dropBackslashes_eq_self_iff.mpr (by simpa using ends.noBackslash.symm)
        have spelled := unescaped_of_read read
        rw [kept] at spelled
        rw [alone, nothing]
        exact spelled
      · have extended := escape_endsBefore ends alone ahead
        rw [refused] at extended
        rw [List.cons_append] at extended ⊢
        rw [unescaped_of_not_read extended, unescaped_of_not_read refused, induction,
          List.append_assoc]

/-- Every comment that is opened in the text is closed in it. -/
def ClosesComments (text : Text) : Prop :=
  ∀ shown hidden, text = shown ++ "/*".toList ++ hidden → "*/".toList <:+: hidden

namespace ClosesComments

theorem of_unopened {text : Text} (noComment : ¬ "/*".toList <:+: text) :
    ClosesComments text := by
  rintro shown hidden rfl
  exact absurd ⟨shown, hidden, rfl⟩ noComment

theorem of_suffix {text rest : Text} (closes : ClosesComments text) (inside : rest <:+ text) :
    ClosesComments rest := by
  obtain ⟨front, rfl⟩ := inside
  rintro shown hidden rfl
  exact closes (front ++ shown) hidden (by simp)

end ClosesComments

theorem exists_first_infix
    {mark text : Text} (nonempty : mark ≠ []) (inside : mark <:+: text) :
    ∃ body ahead, text = body ++ mark ++ ahead ∧ ¬ mark <:+: body := by
  induction text with
  | nil => exact absurd (List.eq_nil_of_infix_nil inside) nonempty
  | cons character text induction =>
      rcases List.infix_cons_iff.mp inside with begins | later
      · obtain ⟨ahead, same⟩ := begins
        exact ⟨[], ahead, same.symm, fun found => nonempty (List.eq_nil_of_infix_nil found)⟩
      · by_cases begins : mark <+: character :: text
        · obtain ⟨ahead, same⟩ := begins
          exact ⟨[], ahead, same.symm, fun found => nonempty (List.eq_nil_of_infix_nil found)⟩
        · obtain ⟨body, ahead, rfl, first⟩ := induction later
          refine ⟨character :: body, ahead, rfl, fun found => ?_⟩
          rcases List.infix_cons_iff.mp found with here | behind
          · exact begins (here.trans ⟨mark ++ ahead, by simp⟩)
          · exact first behind

theorem eraseAll_comment_cons
    {character : Char} {ahead : Text} (unopened : ¬ "/*".toList <+: character :: ahead) :
    comment.eraseAll (character :: ahead) = character :: comment.eraseAll ahead := by
  refine Pattern.replaceAll_of_not_read fun piece read => ?_
  exact absurd (comment_read_isSome_iff.mp (Option.isSome_of_mem read)) unopened

/-- Comments can be dropped on both sides of a place where none is open, unless the last slash
before it and the star after it open one. -/
theorem eraseAll_comment_append
    {front ahead : Text} (closes : ClosesComments front)
    (apart : ['/'] <:+ front → ¬ ['*'] <+: ahead) :
    comment.eraseAll (front ++ ahead) = comment.eraseAll front ++ comment.eraseAll ahead := by
  induction front using comment.scan_induction with
  | empty => simp [Pattern.eraseAll]
  | find text piece read progress induction =>
      obtain ⟨hidden, rfl⟩ := comment_read_isSome_iff.mp (Option.isSome_of_mem read)
      obtain ⟨body, behind, rfl, first⟩ := exists_first_infix (by decide) (closes [] hidden rfl)
      have reads (more : Text) :
          comment.read ("/*".toList ++ (body ++ "*/".toList ++ behind) ++ more) =
            some ⟨body, "/*".toList ++ body ++ "*/".toList, behind ++ more⟩ := by
        simpa using comment_read_append first (behind ++ more)
      have same := reads []
      rw [List.append_nil, List.append_nil] at same
      obtain rfl := Option.some.inj (same.symm.trans read)
      have inside := Pattern.ahead_suffix same
      rw [Pattern.eraseAll_of_leaves comment_takesAtLeast ⟨_, reads ahead, rfl⟩,
        Pattern.eraseAll_of_leaves comment_takesAtLeast ⟨_, same, rfl⟩]
      exact induction (closes.of_suffix inside) fun ends => apart (ends.trans inside)
  | pass character others refused induction =>
      have unopened : ¬ "/*".toList <+: character :: others := by
        intro opens
        obtain ⟨piece, read⟩ := Option.isSome_iff_exists.mp (comment_read_isSome_iff.mpr opens)
        have long := comment_takesAtLeast _ piece read
        rw [refused piece read] at long
        exact absurd long (by decide)
      have unopenedBefore : ¬ "/*".toList <+: character :: (others ++ ahead) := by
        intro opens
        cases others with
        | nil =>
            obtain ⟨rfl, star⟩ : '/' = character ∧ ['*'] <+: ahead := by simpa using opens
            exact apart (List.suffix_refl _) star
        | cons second others => exact unopened (by simpa using opens)
      have inside := List.suffix_cons character others
      rw [List.cons_append, eraseAll_comment_cons unopened, eraseAll_comment_cons unopenedBefore]
      exact congrArg (character :: ·)
        (induction (closes.of_suffix inside) fun ends => apart (ends.trans inside))

/-- Text that normalization passes over, whatever follows. -/
structure IsPlain (text : Text) : Prop where
  noBackslash : '\\' ∉ text
  noComment : ¬ "/*".toList <:+: text
  noSlashAtEnd : ¬ ['/'] <:+ text

namespace IsPlain

theorem of_suffix {rest text : Text} (plain : IsPlain text) (inside : rest <:+ text) :
    IsPlain rest where
  noBackslash member := plain.noBackslash (inside.subset member)
  noComment opens := plain.noComment (opens.trans inside.isInfix)
  noSlashAtEnd ends := plain.noSlashAtEnd (ends.trans inside)

theorem of_not_mem {text : Text} (noBackslash : '\\' ∉ text) (noSlash : '/' ∉ text) :
    IsPlain text where
  noBackslash := noBackslash
  noComment opens := noSlash (opens.subset (by decide))
  noSlashAtEnd ends := noSlash (ends.subset (by decide))

theorem eraseAll_comment {text : Text} (plain : IsPlain text) (ahead : Text) :
    comment.eraseAll (text ++ ahead) = text ++ comment.eraseAll ahead := by
  have fixed : comment.eraseAll text = text :=
    (Pattern.eraseAll_eq_self_iff comment_takesAtLeast).mpr
      (comment_occursIn_eq_false_iff.mpr plain.noComment)
  rw [eraseAll_comment_append (.of_unopened plain.noComment)
    fun ends => absurd ends plain.noSlashAtEnd, fixed]

theorem normalize_append {text : Text} (plain : IsPlain text) (ahead : Text) :
    normalize (text ++ ahead) = text ++ normalize ahead := by
  rw [normalize_eq, unescaped_append_of_not_mem plain.noBackslash,
    plain.eraseAll_comment, normalize_eq]

end IsPlain

end CleanSvg.Style
