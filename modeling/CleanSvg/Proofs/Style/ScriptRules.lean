import Mathlib.Data.List.DropRight
import CleanSvg.Proofs.Style.PlainText
import CleanSvg.Proofs.Style.Tokens

/-!
# What the removal of a declaration takes along

A declaration is removed up to the next semicolon.  The brace that closes its
block does not end it, so the last declaration of a rule takes along the brace
and everything of the following rules that stands before their first semicolon.
Only the opening of its own rule, in which no token begins, stays in front of
what is left of them.
-/

namespace CleanSvg.Style

/-- The letters and signs with which the tokens begin that a pass looks for. -/
def tokenBeginnings : List Char :=
  ['@', 'e', '-', 'b', 'i', 'u']

/-- Text that a pass leaves as it is before whatever follows it. -/
structure IsInert (text : Text) : Prop where
  plain : IsPlain text
  beginsNothing : ∀ sign ∈ text, Text.foldCase sign ∉ tokenBeginnings

/-- The first steps of a pass: everything is removed but addresses and choices among images. -/
def eraseRules (css : Text) : Text :=
  behaviorDeclaration.eraseAll (bindingDeclaration.eraseAll
    (expressionCall.eraseAll (importRule.eraseAll (normalize css))))

theorem cleanOnce_eq (css : Text) :
    cleanOnce css = filterUrls (disarmImageSets (eraseRules css)) := rfl

theorem importRule_refuses {sign : Char} (differs : Text.foldCase sign ≠ '@') :
    importRule.Refuses sign :=
  .bind_left (.keyword differs)

theorem declaration_refuses
    {sign letter : Char} {property : Text} (differs : Text.foldCase sign ≠ letter) :
    (declaration (letter :: property)).Refuses sign :=
  .bind_left (.keyword differs)

theorem imageSetOpening_refuses
    {sign : Char} (noDash : Text.foldCase sign ≠ '-') (noLetter : Text.foldCase sign ≠ 'i') :
    imageSetOpening.Refuses sign :=
  .bind_optional (.keyword noDash) (.bind_left (.keyword noLetter))

theorem urlToken_refuses {sign : Char} (differs : Text.foldCase sign ≠ 'u') :
    urlToken.Refuses sign :=
  .bind_left (.bind_left (.keyword differs))

namespace IsInert

variable {front : Text}

theorem fold_ne (inert : IsInert front) {sign letter : Char} (inside : sign ∈ front)
    (listed : letter ∈ tokenBeginnings) : Text.foldCase sign ≠ letter := by
  rintro rfl
  exact inert.beginsNothing sign inside listed

theorem eraseDeclarations_append
    (inert : IsInert front) {letter : Char} (listed : letter ∈ tokenBeginnings)
    (property css : Text) :
    (declaration (letter :: property)).eraseAll (front ++ css) =
      front ++ (declaration (letter :: property)).eraseAll css :=
  Pattern.eraseAll_append_of_refuses
    (fun _ inside => declaration_refuses (inert.fold_ne inside listed)) css

theorem eraseRules_append (inert : IsInert front) (css : Text) :
    eraseRules (front ++ css) = front ++ eraseRules css := by
  have imports (css : Text) :
      importRule.eraseAll (front ++ css) = front ++ importRule.eraseAll css :=
    Pattern.eraseAll_append_of_refuses
      (fun _ inside => importRule_refuses (inert.fold_ne inside (by decide))) css
  have expressions (css : Text) :
      expressionCall.eraseAll (front ++ css) = front ++ expressionCall.eraseAll css :=
    Pattern.eraseAll_append_of_refuses
      (fun _ inside => closedCall_refuses (inert.fold_ne inside (by decide))) css
  have bindings (css : Text) :
      bindingDeclaration.eraseAll (front ++ css) = front ++ bindingDeclaration.eraseAll css :=
    inert.eraseDeclarations_append (by decide) _ css
  have behaviors (css : Text) :
      behaviorDeclaration.eraseAll (front ++ css) = front ++ behaviorDeclaration.eraseAll css :=
    inert.eraseDeclarations_append (by decide) _ css
  simp only [eraseRules, inert.plain.normalize_append, imports, expressions, bindings, behaviors]

theorem cleanOnce_append (inert : IsInert front) (css : Text) :
    cleanOnce (front ++ css) = front ++ cleanOnce css := by
  have choices (css : Text) : disarmImageSets (front ++ css) = front ++ disarmImageSets css :=
    Pattern.replaceAll_append_of_refuses
      (fun _ inside => imageSetOpening_refuses
        (inert.fold_ne inside (by decide)) (inert.fold_ne inside (by decide))) _ css
  have addresses (css : Text) : filterUrls (front ++ css) = front ++ filterUrls css :=
    Pattern.replaceAll_append_of_refuses
      (fun _ inside => urlToken_refuses (inert.fold_ne inside (by decide))) _ css
  simp only [cleanOnce_eq, inert.eraseRules_append, choices, addresses]

theorem settle?_append (inert : IsInert front) (passes : Nat) (css : Text) :
    settle? passes (front ++ css) = (settle? passes css).map (front ++ ·) := by
  induction passes generalizing css with
  | zero => rfl
  | succ passes induction =>
      simp only [settle?, inert.cleanOnce_append, List.append_cancel_left_eq]
      split
      · rfl
      · exact induction (cleanOnce css)

/-- Text in which nothing begins stays in front of what becomes of the rest. -/
theorem settled?_append (inert : IsInert front) (css : Text) :
    settled? (front ++ css) = (settled? css).map (front ++ ·) := by
  rw [settled?, inert.cleanOnce_append, inert.settle?_append, settled?]

end IsInert

theorem declaration_leaves
    {name property : Text} (named : name.map Text.foldCase = property) (css : Text) :
    (declaration property).Leaves (name ++ ':' :: css) (css.dropWhile (· != ';')) := by
  have keyword : (Pattern.keyword property).Leaves (name ++ ':' :: css) (':' :: css) :=
    ⟨_, Pattern.read_keyword_eq_some_iff.mpr ⟨name, _, named, rfl, rfl⟩, rfl⟩
  have colon : Pattern.blanks.Leaves (':' :: css) (':' :: css) := .blanks (':' :: css)
  exact .bind keyword fun _ => .bind colon fun _ => .bind (.symbol ':' css) fun _ =>
    .upTo ';' css

/-- Whatever declaration is read, the text goes on at its first semicolon. -/
theorem declaration_read_ahead
    {property text : Text} {piece : Piece Unit} (foreign : ';' ∉ property)
    (read : (declaration property).read text = some piece) :
    piece.ahead = text.dropWhile (· != ';') := by
  obtain ⟨_, _, foundName, foundBehind, rfl⟩ := Pattern.read_bind_eq_some_iff.mp read
  obtain ⟨name, ahead, named, rfl, rfl⟩ := Pattern.read_keyword_eq_some_iff.mp foundName
  obtain ⟨_, _, foundBlanks, foundValue, rfl⟩ := Pattern.read_bind_eq_some_iff.mp foundBehind
  rw [Pattern.read_blanks] at foundBlanks
  cases foundBlanks
  obtain ⟨_, _, foundColon, foundEnd, rfl⟩ := Pattern.read_bind_eq_some_iff.mp foundValue
  obtain ⟨css, split, rfl⟩ := Pattern.read_symbol_eq_some_iff.mp foundColon
  cases foundEnd
  have noBlank : ';' ∉ ahead.takeWhile Text.isBlank := by
    intro member
    have blank := List.all_eq_true.mp List.all_takeWhile _ member
    exact absurd blank (by decide)
  have whole : ahead = ahead.takeWhile Text.isBlank ++ ':' :: css := by
    rw [← split, List.takeWhile_append_dropWhile]
  rw [whole, Text.dropWhile_ne_append (Text.not_mem_of_map_foldCase named (by decide) foreign),
    Text.dropWhile_ne_append noBlank]
  rfl

/-- The removal of declarations begins anew at every semicolon. -/
theorem eraseAll_declaration
    {property : Text} (foreign : ';' ∉ property) (css : Text) :
    ∃ kept, ';' ∉ kept ∧ (declaration property).eraseAll css =
      kept ++ (declaration property).eraseAll (css.dropWhile (· != ';')) := by
  induction css using (declaration property).scan_induction with
  | empty => exact ⟨[], List.not_mem_nil, rfl⟩
  | find text piece read progress induction =>
      refine ⟨[], List.not_mem_nil, ?_⟩
      rw [← declaration_read_ahead foreign read]
      exact Pattern.replaceAll_of_read read progress
  | pass character ahead refused induction =>
      by_cases ends : character = ';'
      · refine ⟨[], List.not_mem_nil, ?_⟩
        simp [ends]
      · obtain ⟨kept, absent, same⟩ := induction
        refine ⟨character :: kept, by simp [absent, Ne.symm ends], ?_⟩
        have stays : (declaration property).eraseAll (character :: ahead) =
            character :: (declaration property).eraseAll ahead :=
          Pattern.replaceAll_of_not_read refused
        have later : (character :: ahead).dropWhile (· != ';') = ahead.dropWhile (· != ';') :=
          List.dropWhile_cons_of_pos (bne_iff_ne.mpr ends)
        rw [stays, same, later, List.cons_append]

/-- No binding begins in the name of a behavior, but one may begin behind it. -/
theorem eraseAll_binding_of_behavior
    {name : Text} (named : name.map Text.foldCase = "behavior") (css : Text) :
    ∃ kept, ';' ∉ kept ∧ bindingDeclaration.eraseAll (name ++ ':' :: css) =
      name ++ ':' :: (kept ++ bindingDeclaration.eraseAll (css.dropWhile (· != ';'))) := by
  have refuses : ∀ sign ∈ name ++ [':'], bindingDeclaration.Refuses sign := by
    intro sign member
    refine declaration_refuses fun folds => ?_
    rcases List.mem_append.mp member with inName | colon
    · have letter := List.mem_map_of_mem inName (f := Text.foldCase)
      rw [named, folds] at letter
      exact absurd letter (by decide)
    · rw [List.mem_singleton.mp colon] at folds
      exact absurd folds (by decide)
  obtain ⟨kept, absent, erased⟩ := @eraseAll_declaration "-moz-binding" (by decide) css
  refine ⟨kept, absent, ?_⟩
  have passed := Pattern.eraseAll_append_of_refuses refuses css
  rw [List.append_assoc, List.append_assoc] at passed
  exact passed.trans (congrArg (name ++ ':' :: ·) erased)

/-- Of clean text nothing is removed, wherever it is cut off. -/
theorem IsClean.eraseRules_suffix
    {css rest : Text} (isClean : IsClean css) (inside : rest <:+ css) :
    eraseRules rest = rest := by
  have plain : normalize rest = rest :=
    normalize_eq_self (fun member => isClean.noBackslash (inside.subset member))
      fun opens => isClean.noComment (opens.trans inside.isInfix)
  simp only [eraseRules, plain,
    Pattern.eraseAll_of_suffix importRule_takesAtLeast isClean.noImport inside,
    Pattern.eraseAll_of_suffix expressionCall_takesAtLeast isClean.noExpression inside,
    Pattern.eraseAll_of_suffix bindingDeclaration_takesAtLeast isClean.noBinding inside,
    Pattern.eraseAll_of_suffix behaviorDeclaration_takesAtLeast isClean.noBehavior inside]

/-- A rule with a single declaration that binds a script or attaches a behavior.  No other
token reaches from its value into what follows. -/
structure ScriptRule where
  property : Text
  name : Text
  value : Text
  binds : property ∈ (["-moz-binding", "behavior"] : List Text)
  named : name.map Text.foldCase = property
  noSign : ∀ sign ∈ [';', '(', '\\', '/', '@'], sign ∉ value

namespace ScriptRule

variable (rule : ScriptRule)

/-- How the rule begins. -/
def opening : Text :=
  ['a', '{']

def text : Text :=
  opening ++ (rule.name ++ ':' :: (rule.value ++ ['}']))

theorem isInert_opening : IsInert opening where
  plain := .of_not_mem (by decide) (by decide)
  beginsNothing := forall_mem_of_all (by decide)

theorem not_mem_name {sign : Char} (listed : sign ∈ [';', '(', '\\', '/', '@', '}']) :
    sign ∉ rule.name := by
  have fixed : ∀ sign ∈ [';', '(', '\\', '/', '@', '}'], Text.foldCase sign = sign ∧
      ∀ property ∈ (["-moz-binding", "behavior"] : List Text), sign ∉ property :=
    forall_mem_of_all (by decide)
  obtain ⟨same, foreign⟩ := fixed sign listed
  exact Text.not_mem_of_map_foldCase rule.named same (foreign rule.property rule.binds)

theorem not_mem_text {sign : Char} (listed : sign ∈ [';', '(', '\\', '/', '@']) :
    sign ∉ rule.text := by
  have apart : ∀ sign ∈ [';', '(', '\\', '/', '@'], sign ∉ opening ∧ sign ≠ ':' ∧ sign ≠ '}' :=
    forall_mem_of_all (by decide)
  obtain ⟨notOpening, notColon, notBrace⟩ := apart sign listed
  have notName := rule.not_mem_name (List.mem_append_left ['}'] listed)
  simp [text, notOpening, notColon, notBrace, notName, rule.noSign sign listed]

theorem eraseAll_importRule {rest : Text} (absent : importRule.occursIn rest = false) :
    importRule.eraseAll (rule.text ++ rest) = rule.text ++ rest := by
  have refuses : ∀ sign ∈ rule.text, importRule.Refuses sign := by
    intro sign inside
    refine importRule_refuses fun folds => ?_
    rcases Text.foldCase_eq_self_or_letter sign with kept | letter
    · rw [kept.symm.trans folds] at inside
      exact rule.not_mem_text (by decide) inside
    · rw [folds] at letter
      exact absurd letter (by decide)
  rw [Pattern.eraseAll_append_of_refuses refuses,
    Pattern.eraseAll_of_suffix importRule_takesAtLeast absent (List.suffix_refl rest)]

/-- A call that begins in the rule would have to be opened before its brace. -/
theorem eraseAll_expressionCall {rest : Text} (absent : expressionCall.occursIn rest = false) :
    expressionCall.eraseAll (rule.text ++ rest) = rule.text ++ rest := by
  have refused : ∀ inner, inner <:+ rule.text → inner ≠ [] →
      expressionCall.read (inner ++ rest) = none := by
    intro inner inside nonempty
    refine Option.eq_none_iff_forall_not_mem.mpr fun call read => ?_
    obtain ⟨opening, _, opens, _⟩ := Pattern.read_bind_eq_some_iff.mp read
    have noBrace : '}' ∉ opening.taken :=
      not_mem_callOpening opens (by decide) (by decide) (by decide)
    have parenthesis : '(' ∈ opening.taken := by
      obtain ⟨_, _, _, _, _, _, rfl⟩ := callOpening_read_iff.mp opens
      exact List.mem_concat_self
    have brace : '}' ∈ inner := by
      have ends : rule.text =
          (ScriptRule.opening ++ (rule.name ++ ':' :: rule.value)) ++ ['}'] := by
        simp [text]
      rw [ends] at inside
      rcases List.suffix_concat_iff.mp inside with empty | ⟨front, rfl, _⟩
      · exact absurd empty nonempty
      · exact List.mem_concat_self
    rcases List.append_eq_append_iff.mp ((callOpening _).splits opens) with
      ⟨left, rfl, _⟩ | ⟨left, same, _⟩
    · exact rule.not_mem_text (by decide) (inside.subset (List.mem_append_left left parenthesis))
    · rw [same] at noBrace
      exact noBrace (List.mem_append_left left brace)
  rw [Pattern.eraseAll, Pattern.replaceAll_append_of_not_read refused, ← Pattern.eraseAll,
    Pattern.eraseAll_of_suffix expressionCall_takesAtLeast absent (List.suffix_refl rest)]

theorem eraseDeclarations
    {rest : Text} (noBinding : bindingDeclaration.occursIn rest = false)
    (noBehavior : behaviorDeclaration.occursIn rest = false) :
    behaviorDeclaration.eraseAll (bindingDeclaration.eraseAll (rule.text ++ rest)) =
      opening ++ rest.dropWhile (· != ';') := by
  have inside := List.dropWhile_suffix (· != ';') (l := rest)
  have bindingsLeft := Pattern.eraseAll_of_suffix bindingDeclaration_takesAtLeast noBinding inside
  have behaviorsLeft :=
    Pattern.eraseAll_of_suffix behaviorDeclaration_takesAtLeast noBehavior inside
  generalize left : rest.dropWhile (· != ';') = after at bindingsLeft behaviorsLeft ⊢
  have valueEnds : (rule.value ++ '}' :: rest).dropWhile (· != ';') = after := by
    have absent : ';' ∉ rule.value ++ ['}'] := by
      simp [rule.noSign ';' (by decide)]
    have passed := Text.dropWhile_ne_append absent rest
    rwa [List.append_assoc, List.singleton_append, left] at passed
  have afterEnds : after.dropWhile (· != ';') = after := by
    rw [← left, List.dropWhile_idempotent]
  have bindings (css : Text) : bindingDeclaration.eraseAll (opening ++ css) =
      opening ++ bindingDeclaration.eraseAll css :=
    isInert_opening.eraseDeclarations_append (by decide) _ css
  have behaviors (css : Text) : behaviorDeclaration.eraseAll (opening ++ css) =
      opening ++ behaviorDeclaration.eraseAll css :=
    isInert_opening.eraseDeclarations_append (by decide) _ css
  have whole : rule.text ++ rest =
      opening ++ (rule.name ++ ':' :: (rule.value ++ '}' :: rest)) := by
    simp [text]
  rw [whole, bindings]
  have named := rule.named
  rcases List.mem_cons.mp rule.binds with same | listed
  · rw [same] at named
    have leaves := declaration_leaves named (rule.value ++ '}' :: rest)
    rw [valueEnds] at leaves
    rw [Pattern.eraseAll_of_leaves bindingDeclaration_takesAtLeast leaves, bindingsLeft,
      behaviors, behaviorsLeft]
  · rw [List.mem_singleton.mp listed] at named
    -- A binding inside the value goes first.  The behavior then ends where the binding ended.
    obtain ⟨kept, absent, erased⟩ := eraseAll_binding_of_behavior named (rule.value ++ '}' :: rest)
    rw [valueEnds, bindingsLeft] at erased
    have leaves := declaration_leaves named (kept ++ after)
    rw [Text.dropWhile_ne_append absent, afterEnds] at leaves
    rw [erased, behaviors, Pattern.eraseAll_of_leaves behaviorDeclaration_takesAtLeast leaves,
      behaviorsLeft]

theorem eraseRules_eq {rest : Text} (isClean : IsClean rest) :
    eraseRules (rule.text ++ rest) = opening ++ rest.dropWhile (· != ';') := by
  have plain : IsPlain rule.text :=
    .of_not_mem (rule.not_mem_text (by decide)) (rule.not_mem_text (by decide))
  rw [eraseRules, plain.normalize_append,
    normalize_eq_self isClean.noBackslash isClean.noComment,
    rule.eraseAll_importRule isClean.noImport,
    rule.eraseAll_expressionCall isClean.noExpression]
  exact rule.eraseDeclarations isClean.noBinding isClean.noBehavior

end ScriptRule

/-- Of a rule that binds a script only the opening stays in front of clean text, and the rest
is cut off up to its first semicolon before it is cleaned once more.  The brace of the rule is
lost at any rate. -/
theorem clean_scriptRule (rule : ScriptRule) {rest : Text} (fixed : clean rest = rest) :
    clean (rule.text ++ rest) =
        ((settled? (rest.dropWhile (· != ';'))).map (ScriptRule.opening ++ ·)).getD [] ∧
      clean (rule.text ++ rest) ≠ "a{}".toList ++ rest := by
  have isClean := isClean_of_fixed fixed
  have inside := List.dropWhile_suffix (· != ';') (l := rest)
  generalize left : rest.dropWhile (· != ';') = after at inside ⊢
  have samePass : cleanOnce (rule.text ++ rest) = cleanOnce (ScriptRule.opening ++ after) := by
    rw [cleanOnce_eq, cleanOnce_eq, rule.eraseRules_eq isClean,
      ScriptRule.isInert_opening.eraseRules_append, isClean.eraseRules_suffix inside, left]
  have same := clean_eq_of_cleanOnce_eq samePass
  constructor
  · rw [same, clean, ScriptRule.isInert_opening.settled?_append]
  · intro kept
    have upper := clean_length_le (ScriptRule.opening ++ after)
    have shorter := inside.length_le
    rw [← same, kept] at upper
    simp [ScriptRule.opening] at upper
    omega

/-- A behavior in front of other rules. -/
def behaviorRule : ScriptRule where
  property := "behavior"
  name := "BeHavior"
  value := "x"
  binds := by decide
  named := by decide
  noSign := forall_mem_of_all (by decide)

/-- The rule behind the behavior goes with it, and the next one loses all but its end. -/
theorem clean_behaviorRule :
    clean (behaviorRule.text ++ "b{fill:red}c{x:y;z:w}".toList) = "a{;z:w}".toList ∧
      clean (behaviorRule.text ++ "b{fill:red}c{x:y;z:w}".toList) ≠
        "a{}b{fill:red}c{x:y;z:w}".toList := by
  have fixed : clean "b{fill:red}c{x:y;z:w}" = "b{fill:red}c{x:y;z:w}".toList := by
    decide +kernel
  obtain ⟨same, differs⟩ := clean_scriptRule behaviorRule fixed
  refine ⟨same.trans ?_, differs⟩
  decide +kernel

end CleanSvg.Style
