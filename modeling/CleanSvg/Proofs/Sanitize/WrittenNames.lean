import CleanSvg.Proofs.Markup.WrittenTags
import CleanSvg.Proofs.Sanitize.FailClosed
import CleanSvg.Proofs.Text.Lowercase

/-!
# Names in a cleaned document

Values are written with references for the signs of markup, but names are
written as they were read.  A listed name holds no such sign.  A name that is
allowed for how it begins may hold any sign that reading does not refuse, and
those are enough to end a tag or to begin another attribute.
-/

namespace CleanSvg

/-- The signs that mean something to a reader of markup inside a tag. -/
def markupSigns : List Char :=
  [' ', '\t', '\n', '\x0C', '\r', '"', '\'', '<', '>', '/', '=']

/-- The signs of markup that reading does not refuse in a name. -/
def looseSigns : List Char :=
  ['\x0C', '"', '\'', '<', '>', '/']

/-- A name that no reader of markup can take apart. -/
def Inert (name : Text) : Prop :=
  ∀ sign ∈ markupSigns, sign ∉ name

/-- An attribute of this name stands somewhere in the tree. -/
def Element.Bears (root : Element) (name : Text) : Prop :=
  ∃ mode element, Within root mode element ∧ ∃ attr ∈ element.attributes, attr.name = name

theorem Element.Bears.of_child
    {root element : Element} {attr : Attribute} (child : element ∈ root.childElements)
    (member : attr ∈ element.attributes) : root.Bears attr.name :=
  ⟨_, element, .child .root child, attr, member, rfl⟩

theorem Within.everyTag
    {holds : Text → List Attribute → Prop} {root element : Element} {mode : Mode}
    (within : Within root mode element) (every : root.EveryTag holds) :
    element.EveryTag holds := by
  induction within with
  | root => exact every
  | child _ member induction =>
      exact Content.everyTag_iff_elements.mp induction.2 _ member

theorem Within.written_infix
    {root element : Element} {mode : Mode} (within : Within root mode element) :
    element.written <:+: root.written := by
  induction within with
  | root => exact List.infix_rfl
  | child _ member induction =>
      exact ((Content.written_infix member).trans (Element.content_infix _)).trans induction

/-- A name is written as it is, between a space and the beginning of its value. -/
theorem Element.Bears.written
    {root : Element} {name : Text} (bears : root.Bears name) :
    ' ' :: name ++ ['=', '"'] <:+: root.written := by
  obtain ⟨mode, element, within, attr, member, rfl⟩ := bears
  exact (Attribute.name_infix member).trans within.written_infix

theorem Element.Bears.original
    {root : Element} {name : Text} (isRoot : root.tag = Names.root)
    (bears : root.sanitize.value.Bears name) : root.Bears name := by
  obtain ⟨mode, kept, within, attr, member, rfl⟩ := bears
  obtain ⟨original, place, left⟩ := within.original isRoot
  rw [(Element.kept?_eq_some left).2] at member
  obtain ⟨candidate, inside, leftAttr⟩ := List.mem_filterMap.mp member
  exact ⟨mode, original, place, candidate, inside, (Attribute.kept?_eq_some leftAttr).1.symm⟩

theorem Element.Bears.allowed
    {root : Element} {name : Text} (isRoot : root.tag = Names.root)
    (bears : root.sanitize.value.Bears name) :
    HasOpenPrefix name ∨ ∃ mode : Mode, Text.lowercase name ∈ mode.allowedAttributes := by
  obtain ⟨mode, kept, within, attr, member, rfl⟩ := bears
  obtain ⟨original, _, left⟩ := within.original isRoot
  have trusted := (Element.Trusted.of_kept? left).attributes attr member
  exact trusted.listed.imp_right fun listed => ⟨mode, listed⟩

theorem readable_of_parse
    {text name : Text} {root : Element} (parsed : Element.parse text = .ok root)
    (bears : root.Bears name) : Tag.Readable name := by
  obtain ⟨mode, element, within, attr, member, rfl⟩ := bears
  have every := Element.everyTag_parse Tag.ensures_sound parsed
  exact (within.everyTag every).1.readable attr member

/-- A hyphen, a digit, a colon, or anything from the letter `a` on. -/
def isListedCharacter (character : Char) : Bool :=
  45 ≤ character.toNat && character.toNat != 47 &&
    (character.toNat ≤ 58 || 97 ≤ character.toNat)

theorem listed_characters (mode : Mode) :
    (mode.allowedAttributes.all fun name => name.all isListedCharacter) = true := by
  cases mode <;> decide +kernel

theorem not_mem_of_listed
    {names : List Text} {name : Text} {sign : Char}
    (plain : (names.all fun listed => listed.all isListedCharacter) = true)
    (listed : Text.lowercase name ∈ names) (keeps : Text.KeepsCase sign)
    (unlisted : isListedCharacter sign = false) : sign ∉ name := by
  intro member
  have listedSign := List.all_eq_true.mp (List.all_eq_true.mp plain _ listed) sign
    (Text.mem_lowercase keeps member)
  rw [unlisted] at listedSign
  cases listedSign

theorem inert_of_listed
    {mode : Mode} {name : Text} (listed : Text.lowercase name ∈ mode.allowedAttributes) :
    Inert name := by
  have apart : ∀ sign ∈ markupSigns,
      Text.KeepsCase sign ∧ isListedCharacter sign = false :=
    forall_mem_of_all (by decide)
  intro sign isSign
  obtain ⟨keeps, unlisted⟩ := apart sign isSign
  exact not_mem_of_listed (listed_characters mode) listed keeps unlisted

theorem HasOpenPrefix.no_equals
    {name : Text} (begins : HasOpenPrefix name) (readable : Tag.Readable name) :
    '=' ∉ name := by
  have keeps : Text.KeepsCase '=' := by decide
  intro member
  cases name with
  | nil => cases member
  | cons first others =>
      rcases List.mem_cons.mp member with rfl | member
      · rw [HasOpenPrefix, Text.lowercase,
          Text.lowercaseAfter_cons_of_keepsCase keeps] at begins
        simp at begins
      · exact readable.noEquals member

/-- A readable name that is allowed for how it begins is inert unless it holds one of the
signs that reading leaves in it. -/
theorem HasOpenPrefix.inert_iff
    {name : Text} (begins : HasOpenPrefix name) (readable : Tag.Readable name) :
    Inert name ↔ ∀ sign ∈ looseSigns, sign ∉ name := by
  have split : ∀ sign ∈ markupSigns,
      sign ∈ looseSigns ∨ sign = '=' ∨ Tag.isSpace sign = true :=
    forall_mem_of_all (by decide)
  have loose : ∀ sign ∈ looseSigns, sign ∈ markupSigns := forall_mem_of_all (by decide)
  constructor
  · intro inert sign isLoose
    exact inert sign (loose sign isLoose)
  · intro free sign isSign member
    rcases split sign isSign with isLoose | rfl | isSpace
    · exact free sign isLoose member
    · exact begins.no_equals readable member
    · rw [readable.noSpace sign member] at isSpace
      cases isSpace

/-- No name that is written holds white space of markup or an equals sign.  It is inert
unless it is allowed for how it begins and holds a form feed, a quote, a bracket or a slash. -/
theorem sanitizeWithin_names
    {limit : Option Nat} {text : Text} {sanitized : Sanitized}
    (accepted : sanitizeWithin limit text = .ok sanitized) :
    ∃ parsed, Element.parse text = .ok parsed ∧
      sanitized.svg = parsed.sanitize.value.written ∧
      ∀ name, parsed.sanitize.value.Bears name →
        ' ' :: name ++ ['=', '"'] <:+: sanitized.svg ∧ Tag.Readable name ∧ '=' ∉ name ∧
          (Inert name ↔ (HasOpenPrefix name → ∀ sign ∈ looseSigns, sign ∉ name)) := by
  obtain ⟨_, parsed, accepted⟩ := sanitizeWithin_eq_ok_iff.mp accepted
  refine ⟨parsed, accepted.read, accepted.written, ?_⟩
  intro name bears
  have readable := readable_of_parse accepted.read (bears.original accepted.isRoot)
  have standing := bears.written
  rw [← accepted.written] at standing
  refine ⟨standing, readable, ?_⟩
  by_cases begins : HasOpenPrefix name
  · refine ⟨begins.no_equals readable, ?_⟩
    rw [begins.inert_iff readable]
    exact ⟨fun free _ => free, fun free => free begins⟩
  · obtain ⟨mode, listed⟩ := (bears.allowed accepted.isRoot).resolve_left begins
    have inert := inert_of_listed listed
    exact ⟨inert '=' (by decide), fun _ wrong => absurd wrong begins, fun _ => inert⟩

/-- A document with a name in which a slash stands before the name of a handler. -/
def slashDocument : Text :=
  "<svg><g data-a/onclick=\"f()\"/></svg>"

theorem slashDocument_names :
    sanitizeWithin none slashDocument = .ok ⟨slashDocument, ⟨0, 0, 0⟩⟩ ∧
      ∃ parsed, Element.parse slashDocument = .ok parsed ∧
        slashDocument = parsed.sanitize.value.written ∧
        ∀ name, parsed.sanitize.value.Bears name →
          ' ' :: name ++ ['=', '"'] <:+: slashDocument ∧ Tag.Readable name ∧ '=' ∉ name ∧
            (Inert name ↔ (HasOpenPrefix name → ∀ sign ∈ looseSigns, sign ∉ name)) := by
  have accepted : sanitizeWithin none slashDocument =
      .ok ⟨slashDocument, ⟨0, 0, 0⟩⟩ := by decide +kernel
  exact ⟨accepted, sanitizeWithin_names accepted⟩

/-- The document is accepted and written as it was, with a name that is not inert. -/
theorem slashDocument_not_inert :
    sanitizeDocument slashDocument = .ok ⟨slashDocument, ⟨0, 0, 0⟩⟩ ∧
      ∃ parsed, Element.parse slashDocument = .ok parsed ∧
        parsed.sanitize.value.Bears "data-a/onclick" ∧ ¬ Inert "data-a/onclick" := by
  let element : Element := ⟨"g".toList, [⟨"data-a/onclick".toList, "f()".toList⟩], .empty⟩
  let root : Element := ⟨"svg".toList, [], .element element.name element.attributes .empty .empty⟩
  have parsed : Element.parse slashDocument = .ok root := by decide +kernel
  have child : element ∈ root.sanitize.value.childElements := by decide +kernel
  refine ⟨by decide +kernel, root, parsed, .of_child child List.mem_cons_self, ?_⟩
  intro inert
  exact inert '/' (by decide) (by decide)

end CleanSvg
