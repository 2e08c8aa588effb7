import CleanSvg.Proofs.Link.Address
import CleanSvg.Proofs.Style.NormalForm
import CleanSvg.Proofs.Style.Tokens

/-!
# Where the openings of addresses lead

A `url` token is judged by its payload alone, and a search from left to right
passes over everything that a token takes.  So an opening inside a token that
was kept is never judged, and white space that the pattern skips but the test
of an address does not can stand before a payload.  The main statement says
that these are the only two ways in which an opening of cleaned text leads
outside the document.
-/

namespace CleanSvg.Style

def dropQuote : Text → Text
  | '"' :: ahead => ahead
  | '\'' :: ahead => ahead
  | text => text

/-- Whether an address is a reference into the document or a harmless `data:` address. -/
def isAllowedAddress (address : Text) : Bool :=
  Link.isFragment address || MediaTypes.styleResource.accept address

/-- Whether what stands after an opening, a quote aside, is an allowed address. -/
def leadsInside (ahead : Text) : Bool :=
  isAllowedAddress (dropQuote (Text.stripInvisible ahead))

/-- An opening at the beginning of a text, if there is one, leads inside. -/
def OpensInside (text : Text) : Prop :=
  ∀ opening, urlOpening.read text = some opening → leadsInside opening.ahead = true

/-- Every opening of style text, at whatever place it stands, leads inside. -/
def Contained (css : Text) : Prop :=
  ∀ rest, rest <:+ css → OpensInside rest

/-- The white space between the parenthesis and the payload of a token. -/
def leadingBlanks (token : Text) : Text :=
  match urlOpening.read token with
  | some opening => opening.ahead.takeWhile Text.isBlank
  | none => []

theorem isAllowedAddress_append_right
    {address : Text} (allowed : isAllowedAddress address = true) (more : Text) :
    isAllowedAddress (address ++ more) = true := by
  rcases Bool.or_eq_true _ _ ▸ allowed with fragment | resource
  · cases address with
    | nil => cases fragment
    | cons sign address => exact Bool.or_eq_true_iff.mpr (Or.inl fragment)
  · exact Bool.or_eq_true_iff.mpr (Or.inr (MediaTypes.accept_append_right resource more))

theorem isAllowedAddress_append_of_mem
    {address : Text} (closed : ')' ∈ address) (more : Text) :
    isAllowedAddress (address ++ more) = isAllowedAddress address := by
  have resource : MediaTypes.styleResource.accept (address ++ more) =
      MediaTypes.styleResource.accept address :=
    MediaTypes.accept_append_of_mem (by decide) (by decide) (by decide +kernel)
      closed more
  cases address with
  | nil => cases closed
  | cons sign address =>
      rw [isAllowedAddress, resource]
      rfl

theorem isAllowedAddress_begins
    {address : Text} (allowed : isAllowedAddress address = true) :
    ∃ sign rest, address = sign :: rest ∧ (sign = '#' ∨ Text.foldCase sign = 'd') := by
  cases address with
  | nil => cases allowed
  | cons sign rest =>
      refine ⟨sign, rest, rfl, ?_⟩
      rcases Bool.or_eq_true_iff.mp allowed with fragment | resource
      · exact Or.inl (by simpa [Link.isFragment] using fragment)
      · right
        refine Classical.byContradiction fun different => ?_
        rw [MediaTypes.accept, show "data:".toList = 'd' :: "ata:".toList from rfl,
          Text.afterKeyword?, if_neg different] at resource
        cases resource

theorem dropQuote_of_allowed
    {address : Text} (allowed : isAllowedAddress address = true) (more : Text) :
    dropQuote (address ++ more) = address ++ more := by
  obtain ⟨sign, rest, rfl, begins⟩ := isAllowedAddress_begins allowed
  rw [List.cons_append, dropQuote.eq_def]
  split
  · rename_i same
    cases same
    exact absurd begins (by decide)
  · rename_i same
    cases same
    exact absurd begins (by decide)
  · rfl

theorem dropQuote_append
    {text : Text} (nonempty : text ≠ []) (more : Text) :
    dropQuote (text ++ more) = dropQuote text ++ more := by
  cases text with
  | nil => exact absurd rfl nonempty
  | cons sign text =>
      rw [List.cons_append, dropQuote.eq_def, dropQuote.eq_def (sign :: text)]
      split <;> split <;> simp_all

theorem mem_dropQuote {text : Text} (closed : ')' ∈ text) : ')' ∈ dropQuote text := by
  rw [dropQuote.eq_def]
  split
  · simpa using closed
  · simpa using closed
  · exact closed

/-- Where an opening leads is decided before the next closing parenthesis. -/
theorem leadsInside_append_of_mem
    {ahead : Text} (closed : ')' ∈ ahead) (more : Text) :
    leadsInside (ahead ++ more) = leadsInside ahead := by
  have kept : ')' ∈ Text.stripInvisible ahead :=
    List.mem_filter.mpr ⟨closed, by decide⟩
  rw [leadsInside, leadsInside, Text.stripInvisible_append,
    dropQuote_append (List.ne_nil_of_mem kept),
    isAllowedAddress_append_of_mem (mem_dropQuote kept)]

theorem stripInvisible_eq_nil_iff {text : Text} :
    Text.stripInvisible text = [] ↔
      ∀ character ∈ text, Text.isInvisible character = true := by
  simp [Text.stripInvisible]

theorem not_leadsInside_of_visible
    {blanks : Text} (allBlank : ∀ blank ∈ blanks, Text.isBlank blank = true)
    (visible : ¬ ∀ blank ∈ blanks, Text.isInvisible blank = true) (ahead : Text) :
    leadsInside (blanks ++ ahead) = false := by
  rw [leadsInside, Text.stripInvisible_append]
  cases stripped : Text.stripInvisible blanks with
  | nil => exact absurd (stripInvisible_eq_nil_iff.mp stripped) visible
  | cons blank others =>
      have member : blank ∈ Text.stripInvisible blanks := by simp [stripped]
      obtain ⟨inside, shows⟩ := List.mem_filter.mp member
      have odd : blank = '\u0085' ∨ blank = '\u202F' :=
        Text.isBlank_and_visible_iff.mp ⟨allBlank blank inside, by simpa using shows⟩
      refine Bool.eq_false_iff.mpr fun allowed => ?_
      have kept : dropQuote (blank :: others ++ Text.stripInvisible ahead) =
          blank :: (others ++ Text.stripInvisible ahead) := by
        rcases odd with rfl | rfl <;> rfl
      rw [kept] at allowed
      obtain ⟨sign, rest, same, begins⟩ := isAllowedAddress_begins allowed
      cases same
      rcases odd with rfl | rfl <;> exact absurd begins (by decide)

/-- A token's own opening leads inside, unless white space that shows stands
before the payload. -/
theorem leadsInside_of_token
    {text : Text} {token : Piece Text} {opening : Piece Unit}
    (read : urlToken.read text = some token)
    (opens : urlOpening.read text = some opening)
    (allowed : isAllowedPayload token.value = true) :
    leadsInside opening.ahead = true ↔
      ∀ blank ∈ opening.ahead.takeWhile Text.isBlank,
        Text.isInvisible blank = true := by
  obtain ⟨opening', payload, quote, opens', rfl, quotes, closing, _, ahead, _⟩ :=
    urlToken_read read
  rw [opens] at opens'
  cases opens'
  have allBlank : ∀ blank ∈ opening.ahead.takeWhile Text.isBlank,
      Text.isBlank blank = true :=
    fun blank member => List.all_eq_true.mp List.all_takeWhile blank member
  have split : opening.ahead = opening.ahead.takeWhile Text.isBlank ++
      (quote ++ payload.value ++ closing ++ payload.ahead) := by
    rw [← ahead, List.takeWhile_append_dropWhile]
  generalize opening.ahead.takeWhile Text.isBlank = blanks at split allBlank ⊢
  rw [split]
  constructor
  · intro leads
    refine Classical.byContradiction fun visible => ?_
    rw [not_leadsInside_of_visible allBlank visible] at leads
    cases leads
  · intro invisible
    have address : isAllowedAddress (Text.stripInvisible payload.value) = true := allowed
    rw [leadsInside]
    simp only [Text.stripInvisible_append, stripInvisible_eq_nil_iff.mpr invisible,
      List.nil_append, List.append_assoc]
    rcases quotes with rfl | rfl | rfl
    · show isAllowedAddress (dropQuote (Text.stripInvisible payload.value ++ _)) = true
      rw [dropQuote_of_allowed address]
      exact isAllowedAddress_append_right address _
    · exact isAllowedAddress_append_right address _
    · exact isAllowedAddress_append_right address _

/-- Inside a token, an opening leads where it would lead if the text ended with the token. -/
theorem opensInside_append_iff
    {inner ahead : Text} (closed : ahead = [] ∨ ')' ∈ inner) :
    OpensInside (inner ++ ahead) ↔ OpensInside inner := by
  rcases closed with rfl | closed
  · rw [List.append_nil]
  · have closedAhead : ∀ {taken left : Text}, ')' ∉ taken → inner = taken ++ left →
        ')' ∈ left := by
      rintro taken left foreign rfl
      exact (List.mem_append.mp closed).resolve_left foreign
    constructor
    · intro opensInside opening opens
      have split := urlOpening.splits opens
      have foreign := parenthesis_not_mem_callOpening opens (by decide)
      have extended := callOpening_read_append opens (opening.ahead ++ ahead)
      rw [← List.append_assoc, split] at extended
      have leads := opensInside _ extended
      rwa [leadsInside_append_of_mem (closedAhead foreign split.symm)] at leads
    · intro opensInside opening opens
      have foreign := parenthesis_not_mem_callOpening opens (by decide)
      rcases List.append_eq_append_iff.mp (urlOpening.splits opens) with
        ⟨left, split, rest⟩ | ⟨left, split, rest⟩
      · have restricted := callOpening_read_append opens left
        rw [← split] at restricted
        rw [rest, leadsInside_append_of_mem (closedAhead foreign split)]
        exact opensInside _ restricted
      · rw [split] at foreign
        exact absurd (List.mem_append_left left closed) foreign

/-- A token ends with its closing parenthesis or with the text, and so does every
part of it that reaches its end. -/
theorem closed_of_token
    {text inner : Text} {token : Piece Text} (read : urlToken.read text = some token)
    (nonempty : inner ≠ []) (inside : inner <:+ token.taken) :
    token.ahead = [] ∨ ')' ∈ inner := by
  obtain ⟨opening, payload, quote, _, rfl, _, closing, taken, _, ends⟩ :=
    urlToken_read read
  rcases ends with ended | ⟨front, rfl⟩
  · exact Or.inl ended
  · right
    simp only [taken, ← List.append_assoc] at inside
    rcases List.suffix_concat_iff.mp inside with empty | ⟨front, rfl, _⟩
    · exact absurd empty nonempty
    · exact List.mem_append_right front (by simp)

theorem leadingBlanks_of_token
    {text : Text} {token : Piece Text} {opening : Piece Unit}
    (read : urlToken.read text = some token)
    (opens : urlOpening.read text = some opening)
    (allowed : isAllowedPayload token.value = true) :
    leadingBlanks token.taken = opening.ahead.takeWhile Text.isBlank := by
  obtain ⟨opening', payload, quote, opens', rfl, _, closing, taken, ahead, _⟩ :=
    urlToken_read read
  rw [opens] at opens'
  cases opens'
  have begins : ∃ sign rest, payload.taken = sign :: rest ∧
      Text.isBlank sign = false := by
    have split : opening.ahead.dropWhile Text.isBlank =
        payload.taken ++ payload.ahead := by
      rw [ahead, taken]
    have boundary := List.head?_dropWhile_not Text.isBlank opening.ahead
    rw [split] at boundary
    cases parts : payload.taken with
    | nil =>
        rw [parts] at taken
        have empty : payload.value = [] := by
          have parts := taken.symm
          simp only [List.append_eq_nil_iff] at parts
          exact parts.1.2
        rw [empty] at allowed
        cases allowed
    | cons sign rest =>
        rw [parts] at boundary
        exact ⟨sign, rest, rfl, boundary⟩
  obtain ⟨sign, rest, parts, shown⟩ := begins
  have reopened := callOpening_read_append opens
    (opening.ahead.takeWhile Text.isBlank ++ payload.taken)
  have allBlank : ∀ blank ∈ opening.ahead.takeWhile Text.isBlank,
      Text.isBlank blank = true :=
    fun blank member => List.all_eq_true.mp List.all_takeWhile blank member
  rw [leadingBlanks, show urlOpening.read _ = _ from reopened]
  simp only
  rw [parts]
  exact (dropWhile_isBlank_eq allBlank shown).1

theorem suffix_append_iff {rest first last : Text} :
    rest <:+ first ++ last ↔
      rest <:+ last ∨ ∃ inner, inner <:+ first ∧ rest = inner ++ last := by
  constructor
  · intro inside
    rcases List.suffix_or_suffix_of_suffix inside (List.suffix_append first last) with
      within | ⟨inner, rfl⟩
    · exact Or.inl within
    · exact Or.inr ⟨inner, List.suffix_append_self_iff.mp inside, rfl⟩
  · rintro (within | ⟨inner, inside, rfl⟩)
    · exact within.trans (List.suffix_append first last)
    · exact List.suffix_append_self_iff.mpr inside

theorem contained_token_iff
    {text : Text} {token : Piece Text} (read : urlToken.read text = some token) :
    Contained text ↔
      OpensInside text ∧ Contained token.taken.tail ∧ Contained token.ahead := by
  have split := urlToken.splits read
  have progress : token.taken ≠ [] := by
    have positive := urlToken_takesAtLeast text token read
    exact List.ne_nil_of_length_pos positive
  obtain ⟨first, others, parts⟩ := List.exists_cons_of_ne_nil progress
  rw [parts] at split
  have within : ∀ inner, inner ≠ [] → inner <:+ others →
      (OpensInside (inner ++ token.ahead) ↔ OpensInside inner) := by
    intro inner nonempty inside
    refine opensInside_append_iff (closed_of_token read nonempty ?_)
    rw [parts]
    exact inside.trans (List.suffix_cons first others)
  rw [parts, List.tail_cons, ← split]
  constructor
  · intro contained
    refine ⟨contained _ (List.suffix_refl _), ?_, ?_⟩
    · intro inner inside
      cases inner with
      | nil =>
          intro opening opens
          cases opens
      | cons sign inner =>
          refine (within _ (by simp) inside).mp (contained _ ?_)
          exact List.suffix_append_self_iff.mpr
            (inside.trans (List.suffix_cons first others))
    · intro rest inside
      exact contained rest (inside.trans (List.suffix_append _ _))
  · rintro ⟨opensInside, containedInner, containedAhead⟩ rest inside
    rcases suffix_append_iff.mp inside with later | ⟨inner, part, rfl⟩
    · exact containedAhead rest later
    · rcases List.suffix_cons_iff.mp part with rfl | proper
      · exact opensInside
      · cases inner with
        | nil => exact containedAhead _ (List.suffix_refl _)
        | cons sign inner =>
            exact (within _ (by simp) proper).mpr (containedInner _ proper)

/-- Text in which every token is allowed is contained exactly if, in every token,
nothing that shows stands before the payload and the openings inside it lead
inside too. -/
theorem contained_iff_of_allowed
    {css : Text}
    (allowed : ∀ token ∈ urlToken.found css, isAllowedPayload token.value = true) :
    Contained css ↔ ∀ token ∈ urlToken.found css,
      (∀ blank ∈ leadingBlanks token.taken, Text.isInvisible blank = true) ∧
        Contained token.taken.tail := by
  induction css using urlToken.scan_induction with
  | empty =>
      simp only [Pattern.found_nil, List.not_mem_nil, false_imp_iff, implies_true,
        iff_true]
      intro rest inside opening opens
      rw [List.suffix_nil.mp inside] at opens
      cases opens
  | find text token read progress induction =>
      rw [Pattern.found_of_read read progress] at allowed ⊢
      obtain ⟨allowedToken, allowedAhead⟩ := List.forall_mem_cons.mp allowed
      obtain ⟨opening, _, _, opens, _⟩ := urlToken_read read
      have own : OpensInside text ↔ ∀ blank ∈ leadingBlanks token.taken,
          Text.isInvisible blank = true := by
        rw [leadingBlanks_of_token read opens allowedToken,
          ← leadsInside_of_token read opens allowedToken]
        constructor
        · intro opensInside
          exact opensInside opening opens
        · intro leads opening' opens'
          rw [opens] at opens'
          cases opens'
          exact leads
      rw [List.forall_mem_cons, contained_token_iff read, own,
        induction allowedAhead, and_assoc]
  | pass character ahead refused induction =>
      rw [Pattern.found_of_not_read refused] at allowed ⊢
      rw [← induction allowed]
      constructor
      · intro contained rest inside
        exact contained rest (inside.trans (List.suffix_cons character ahead))
      · intro contained rest inside
        rcases List.suffix_cons_iff.mp inside with rfl | later
        · intro opening opens
          obtain ⟨token, read⟩ := urlToken_read_of_opening opens
          have positive := urlToken_takesAtLeast _ token read
          rw [refused token read] at positive
          exact absurd positive (by simp)
        · exact contained rest later

theorem invisible_leadingBlanks_iff {token : Text} :
    (∀ blank ∈ leadingBlanks token, Text.isInvisible blank = true) ↔
      '\u0085' ∉ leadingBlanks token ∧ '\u202F' ∉ leadingBlanks token := by
  have allBlank : ∀ blank ∈ leadingBlanks token, Text.isBlank blank = true := by
    intro blank member
    rw [leadingBlanks] at member
    split at member
    · exact List.all_eq_true.mp List.all_takeWhile blank member
    · cases member
  constructor
  · intro invisible
    constructor
    · intro member
      exact absurd (invisible _ member) (by decide)
    · intro member
      exact absurd (invisible _ member) (by decide)
  · rintro ⟨noNextLine, noNarrowSpace⟩ blank member
    cases shows : Text.isInvisible blank with
    | true => rfl
    | false =>
        rcases Text.isBlank_and_visible_iff.mp ⟨allBlank blank member, shows⟩ with
          rfl | rfl
        · exact absurd member noNextLine
        · exact absurd member noNarrowSpace

/-- The openings of cleaned text all lead inside exactly if no kept token has a next
line or a narrow no-break space before its payload, or an opening inside it
that leads elsewhere. -/
theorem contained_clean_iff (css : Text) :
    Contained (clean css) ↔ ∀ token ∈ urlToken.found (clean css),
      '\u0085' ∉ leadingBlanks token.taken ∧ '\u202F' ∉ leadingBlanks token.taken ∧
        Contained token.taken.tail := by
  rw [contained_iff_of_allowed (isClean_clean css).urlsAllowed]
  refine forall₂_congr fun token member => ?_
  rw [← and_assoc, invisible_leadingBlanks_iff]

/-- An opening inside the payload of a kept token is not judged. -/
theorem not_contained_nested_opening :
    ¬ Contained (clean "url(#a url(https://evil.example/x)") := by
  intro contained
  have leads := contained "url(https://evil.example/x)".toList
    (by decide +kernel) ⟨(), "url(".toList, "https://evil.example/x)".toList⟩ rfl
  exact absurd leads (by decide +kernel)

end CleanSvg.Style
