import CleanSvg.Proofs.Markup.RoundTrip
import CleanSvg.Proofs.Sanitize.WrittenNames

/-!
# Names that are allowed for how they begin

A name that begins with `data-` or `aria-` is never a handler, so it is kept
whatever else it holds.  Every readable one stands in some accepted document:
where it needs open quotes, an attribute before it opens them and one after it
closes them, and both of those are removed.
-/

namespace CleanSvg

namespace HasOpenPrefix

theorem begins_letter
    {name : Text} (begins : HasOpenPrefix name) :
    ∃ first others, name = first :: others ∧ first ≠ '\u03A3' ∧
      ((Text.lowerLetter first).head? = some 'd' ∨
        (Text.lowerLetter first).head? = some 'a') := by
  have head : (Text.lowercase name).head? = some 'd' ∨
      (Text.lowercase name).head? = some 'a' := by
    rcases begins with ⟨rest, same⟩ | ⟨rest, same⟩
    · exact Or.inl (by rw [← same]; rfl)
    · exact Or.inr (by rw [← same]; rfl)
  cases name with
  | nil => exact absurd head (by decide)
  | cons first others =>
      have noSigma : first ≠ '\u03A3' := by
        rintro rfl
        rw [Text.lowercase, Text.lowercaseAfter, if_pos rfl] at head
        split at head <;> simp at head
      rw [Text.head?_lowercase_cons noSigma] at head
      exact ⟨first, others, rfl, noSigma, head⟩

/-- What the beginning of a name says cannot be undone by invisible characters. -/
theorem not_handler
    {name : Text} (begins : HasOpenPrefix name) :
    AttributeClass.isEventHandlerName name = false := by
  obtain ⟨first, others, rfl, noSigma, head⟩ := begins.begins_letter
  have visible : Text.isInvisible first = false := by
    refine Bool.eq_false_iff.mpr fun invisible => ?_
    rw [(Text.keepsCase_of_isInvisible invisible).1] at head
    rcases head with same | same <;>
      · cases same
        exact absurd invisible (by decide)
  have stripped : Text.stripInvisible (first :: others) =
      first :: Text.stripInvisible others :=
    List.filter_cons_of_pos (by rw [visible]; rfl)
  rw [not_handler_iff, stripped]
  rintro ⟨rest, same⟩
  have headO := congrArg List.head? same
  rw [Text.head?_lowercase_cons noSigma] at headO
  rw [← headO] at head
  simp at head

theorem classify_eq
    {name : Text} (begins : HasOpenPrefix name) (mode : Mode) (value : Text) :
    AttributeClass.classify mode name value = .dataOrAria := by
  have prefixes := hasOpenPrefix_iff.mpr begins
  simp only [AttributeClass.classify, begins.not_handler, prefixes]
  rfl

theorem kept?_eq
    {name : Text} (begins : HasOpenPrefix name) (mode : Mode) (tag value : Text) :
    (Attribute.mk name value).kept? mode tag = some ⟨name, value⟩ := by
  rw [Attribute.kept?, begins.classify_eq]

theorem not_equals_digit
    {name : Text} (begins : HasOpenPrefix name) {digit : Char} (isDigit : digit ∈ ['0', '1'])
    (others : Text) : Text.equalsIgnoringAsciiCase (digit :: others) name = false := by
  obtain ⟨first, rest, rfl, _, head⟩ := begins.begins_letter
  have plain : ∀ digit ∈ ['0', '1'], ¬ ('a' ≤ digit ∧ digit ≤ 'z') ∧
      digit.toLower = digit ∧ ¬ ((Text.lowerLetter digit).head? = some 'd' ∨
        (Text.lowerLetter digit).head? = some 'a') := forall_mem_of_all (by decide)
  obtain ⟨noLetter, fixed, noHead⟩ := plain digit isDigit
  refine Text.equalsIgnoringAsciiCase_of_sign noLetter fixed ?_ others rest
  rintro rfl
  exact noHead head

end HasOpenPrefix

/-- The attributes of a tag that holds a name between the quotes that it needs. -/
def carriedAttributes (name : Text) (before after : Option Char) : List Attribute :=
  [⟨'0' :: before.toList, []⟩, ⟨name, []⟩, ⟨'1' :: after.toList, []⟩]

/-- A graphic with one element, which has these attributes. -/
def carrier (attributes : List Attribute) : Element :=
  ⟨"svg".toList, [], .element "g".toList attributes .empty .empty⟩

theorem readable_spare
    {digit : Char} (isDigit : digit ∈ ['0', '1']) {quote : Option Char}
    (state : quote ∈ Reader.quoteStates) : Tag.Readable (digit :: quote.toList) := by
  simp only [List.mem_cons, List.not_mem_nil, or_false] at isDigit
  rcases isDigit with rfl | rfl <;>
    rcases Reader.mem_quoteStates.mp state with rfl | rfl | rfl <;>
      exact ⟨List.cons_ne_nil _ _, forall_mem_of_all (by decide), by decide,
        none, by decide, by decide⟩

section

variable {name : Text} {before after : Option Char}

theorem balanced_carriedAttributes
    (state : before ∈ Reader.quoteStates) (followed : Reader.follow before name = some after) :
    Tag.Balanced "g" (carriedAttributes name before after) := by
  have opens : ∀ quote ∈ Reader.quoteStates,
      Reader.follow none ('0' :: quote.toList) = some quote :=
    forall_mem_of_all (by decide)
  have closes : ∀ quote ∈ Reader.quoteStates,
      Reader.follow quote ('1' :: quote.toList) = some none :=
    forall_mem_of_all (by decide)
  simp only [Tag.Balanced, carriedAttributes, List.flatMap_cons, List.flatMap_nil,
    List.append_nil, Reader.follow_append]
  rw [opens before state, Option.bind_some, followed, Option.bind_some,
    closes after (Reader.follow_mem state followed)]

theorem sound_carriedAttributes
    (begins : HasOpenPrefix name) (readable : Tag.Readable name)
    (state : before ∈ Reader.quoteStates) (followed : Reader.follow before name = some after) :
    Tag.Sound (carriedAttributes name before after) where
  readable := by
    simp only [carriedAttributes, List.forall_mem_cons]
    exact ⟨readable_spare (by decide) state, readable,
      readable_spare (by decide) (Reader.follow_mem state followed), nofun⟩
  distinct := by
    have unlikeFirst : Text.equalsIgnoringAsciiCase ('0' :: before.toList) name = false :=
      begins.not_equals_digit (by decide) before.toList
    have unlikeLast : Text.equalsIgnoringAsciiCase name ('1' :: after.toList) = false := by
      rw [Text.equalsIgnoringAsciiCase_comm]
      exact begins.not_equals_digit (by decide) after.toList
    have unlikeEachOther : Text.equalsIgnoringAsciiCase ('0' :: before.toList)
        ('1' :: after.toList) = false :=
      Text.equalsIgnoringAsciiCase_of_sign (by decide) (by decide) (by decide) _ _
    refine .cons ?_ (.cons ?_ (.cons nofun .nil))
    · exact List.forall_mem_cons.mpr
        ⟨unlikeFirst, List.forall_mem_cons.mpr ⟨unlikeEachOther, nofun⟩⟩
    · exact List.forall_mem_cons.mpr ⟨unlikeLast, nofun⟩

theorem parse_carrier
    (begins : HasOpenPrefix name) (readable : Tag.Readable name)
    (state : before ∈ Reader.quoteStates) (followed : Reader.follow before name = some after) :
    Element.parse (carrier (carriedAttributes name before after)).written =
      .ok (carrier (carriedAttributes name before after)) := by
  have root : Tag.Legible "svg".toList [] :=
    ⟨⟨nofun, .nil⟩, by decide, forall_mem_of_all (by decide)⟩
  have child : Tag.Legible "g".toList (carriedAttributes name before after) :=
    ⟨sound_carriedAttributes begins readable state followed, by decide,
      forall_mem_of_all (by decide)⟩
  have balanced := balanced_carriedAttributes state followed
  exact @Element.parse_written (carrier (carriedAttributes name before after))
    ⟨root, child, trivial, trivial⟩ ⟨rfl, balanced, trivial, trivial⟩

/-- The element of a carrier when its attributes are cleaned. -/
def carriedElement (attributes : List Attribute) : Element :=
  ⟨"g".toList, attributes.filterMap (Attribute.kept? .vectorGraphics "g".toList), .empty⟩

theorem carrier_child (attributes : List Attribute) :
    carriedElement attributes ∈ (carrier attributes).sanitize.value.childElements := by
  have kept : Treatment.ofElement .vectorGraphics "g".toList attributes =
      .keep .vectorGraphics := rfl
  have left : (Element.mk "g".toList attributes .empty).kept? .vectorGraphics =
      some (carriedElement attributes) := by
    rw [Element.kept?, show (Element.mk "g".toList attributes .empty).tag = "g".toList from rfl,
      kept]
    rfl
  rw [Element.childElements, Element.content_sanitize]
  exact Content.mem_elements_sanitize_iff.mpr ⟨_, List.mem_cons_self, left⟩

theorem carrier_tag (attributes : List Attribute) :
    (carrier attributes).tag = Names.root := rfl

theorem carrier_inhabited (attributes : List Attribute) :
    (carrier attributes).sanitize.value.childElements ≠ [] :=
  List.ne_nil_of_mem (carrier_child attributes)

theorem carrier_bears
    (begins : HasOpenPrefix name) :
    (carrier (carriedAttributes name before after)).sanitize.value.Bears name := by
  have member : Attribute.mk name [] ∈
      (carriedElement (carriedAttributes name before after)).attributes := by
    rw [carriedElement, List.mem_filterMap]
    refine ⟨⟨name, []⟩, ?_, begins.kept?_eq .vectorGraphics "g".toList []⟩
    simp [carriedAttributes]
  exact .of_child (carrier_child _) member

end

/-- A name that is allowed for how it begins is written for some document exactly when a
tag can hold it. -/
theorem exists_document_bearing_iff
    {name : Text} (begins : HasOpenPrefix name) :
    (∃ text sanitized parsed, sanitizeDocument text = .ok sanitized ∧
      Element.parse text = .ok parsed ∧ sanitized.svg = parsed.sanitize.value.written ∧
        parsed.sanitize.value.Bears name) ↔ Tag.Readable name := by
  constructor
  · rintro ⟨text, sanitized, parsed, accepted, read, _, bears⟩
    obtain ⟨_, other, accepted⟩ := sanitizeWithin_eq_ok_iff.mp accepted
    obtain rfl : other = parsed := Except.ok.inj (accepted.read.symm.trans read)
    exact readable_of_parse read (bears.original accepted.isRoot)
  · intro readable
    obtain ⟨before, state, followed⟩ := readable.hidden
    obtain ⟨after, followed⟩ := Option.isSome_iff_exists.mp followed
    let attributes := carriedAttributes name before after
    have read := parse_carrier begins readable state followed
    have accepted := Accepted.of_parse read (carrier_tag attributes)
      (carrier_inhabited attributes)
    exact ⟨_, _, _, sanitizeWithin_eq_ok_iff.mpr ⟨nofun, _, accepted⟩, read, rfl,
      carrier_bears begins⟩

end CleanSvg
