import CleanSvg.Proofs.Markup.Balance
import CleanSvg.Proofs.Sanitize.OpenNames
import CleanSvg.Proofs.Sanitize.Retained

/-!
# Reading back a cleaned document

Cleaning leaves elements with listed names and attributes whose names a tag can
hold, and none of those begins with the end of a tag.  So a cleaned document is
read back as the tree that was written, unless a name that is allowed for how it
begins holds quotes or a bracket and nothing that is left undoes them.
-/

namespace CleanSvg

namespace Mode.Keeps

variable {mode : Mode} {attributes : List Attribute}

theorem listed {tag : Text} (stays : mode.Keeps tag attributes) : tag ∈ mode.allowedElements := by
  cases mode with
  | vectorGraphics =>
      rcases stays with rfl | rfl | ⟨listed, _⟩
      · decide
      · decide
      · exact listed
  | embeddedDocument => exact stays.1

theorem root : vectorGraphics.Keeps Names.root attributes := by
  refine Or.inr (Or.inr ⟨by decide, ?_⟩)
  intro ⟨animated, _⟩
  exact absurd animated (by decide)

theorem listed_characters (mode : Mode) :
    (mode.allowedElements.all fun name => name.all isListedCharacter) = true := by
  cases mode <;> decide

theorem nonempty {name : Text} (stays : mode.Keeps (Text.lowercase name) attributes) :
    name ≠ [] := by
  have named : ∀ mode : Mode, [] ∉ mode.allowedElements := by
    intro mode
    cases mode <;> decide
  rintro rfl
  exact named mode stays.listed

theorem plain {name : Text} (stays : mode.Keeps (Text.lowercase name) attributes) :
    ∀ sign ∈ Tag.nameSigns, sign ∉ name := by
  have apart : ∀ sign ∈ Tag.nameSigns,
      Text.KeepsCase sign ∧ isListedCharacter sign = false :=
    forall_mem_of_all (by decide)
  intro sign isSign
  obtain ⟨keeps, unlisted⟩ := apart sign isSign
  exact not_mem_of_listed (listed_characters mode) stays.listed keeps unlisted

end Mode.Keeps

namespace Tag

variable {mode : Mode} {name tag : Text} {attributes : List Attribute}

theorem Sound.kept (sound : Sound attributes) :
    Sound (attributes.filterMap (Attribute.kept? mode tag)) where
  readable kept member := by
    obtain ⟨candidate, inside, left⟩ := List.mem_filterMap.mp member
    rw [(Attribute.kept?_eq_some left).1]
    exact sound.readable candidate inside
  distinct := by
    apply List.Pairwise.filterMap _ _ sound.distinct
    intro left right apart keptLeft leftKept keptRight rightKept
    rw [(Attribute.kept?_eq_some leftKept).1, (Attribute.kept?_eq_some rightKept).1]
    exact apart

theorem Sound.legible
    (sound : Sound attributes) (stays : mode.Keeps (Text.lowercase name) attributes) :
    Legible name (attributes.filterMap (Attribute.kept? mode (Text.lowercase name))) where
  toSound := sound.kept
  nonempty := stays.nonempty
  plain := stays.plain

theorem BeginsWithEnd.bracket_mem (begins : BeginsWithEnd name) : '>' ∈ name := by
  rcases begins with ⟨rest, rfl⟩ | ⟨rest, rfl⟩
  · exact List.mem_cons_self
  · exact List.mem_cons_of_mem '/' List.mem_cons_self

theorem noStray_kept :
    NoStray name (attributes.filterMap (Attribute.kept? mode tag)) := by
  intro kept member begins
  rcases (Attribute.trusted_of_filterMap kept member).listed with opened | listed
  · obtain ⟨first, others, same, _, head⟩ := opened.begins_letter
    rw [same] at begins
    rcases begins with ⟨rest, same⟩ | ⟨rest, same⟩
    · cases same
      exact absurd head (by decide)
    · cases same
      exact absurd head (by decide)
  · exact inert_of_listed listed '>' (by decide) begins.bracket_mem

end Tag

section

variable {before after : Text → List Attribute → Prop}

theorem Content.everyTag_ofText
    {holds : Text → List Attribute → Prop} (css : Text) : (ofText css).EveryTag holds := by
  cases css <;> trivial

/-- What holds for the tags of elements that stay, once their attributes are cleaned, holds
for every tag of what is left. -/
theorem Content.Retained.everyTag
    {mode : Mode} {content kept : Content} (retained : content.Retained mode kept)
    (every : content.EveryTag before)
    (keeps : ∀ mode name attributes, Mode.Keeps mode (Text.lowercase name) attributes →
      before name attributes →
        after name (attributes.filterMap (Attribute.kept? mode (Text.lowercase name)))) :
    kept.EveryTag after := by
  induction retained with
  | empty => trivial
  | text _ behind => exact behind every
  | element stays _ _ _ within behind =>
      exact ⟨keeps _ _ _ stays every.1, within every.2.1, behind every.2.2⟩
  | style stays _ _ behind =>
      exact ⟨keeps _ _ _ stays every.1, everyTag_ofText _, behind every.2.2⟩
  | removed _ _ behind => exact behind every.2.2

theorem Element.everyTag_sanitize
    {root : Element} (isRoot : root.tag = Names.root) (every : root.EveryTag before)
    (keeps : ∀ mode name attributes, Mode.Keeps mode (Text.lowercase name) attributes →
      before name attributes →
        after name (attributes.filterMap (Attribute.kept? mode (Text.lowercase name)))) :
    root.sanitize.value.EveryTag after := by
  refine ⟨?_, root.retained_sanitize.everyTag every.2 keeps⟩
  have stays : Mode.vectorGraphics.Keeps root.tag root.attributes := by
    rw [isRoot]
    exact .root
  rw [attributes_sanitize]
  exact keeps .vectorGraphics root.name root.attributes stays every.1

end

namespace Accepted

variable {text : Text} {parsed : Element} {sanitized : Sanitized}

theorem legible (accepted : Accepted text parsed sanitized) :
    parsed.sanitize.value.EveryTag Tag.Legible := by
  apply Element.everyTag_sanitize accepted.isRoot
    (Element.everyTag_parse Tag.ensures_sound accepted.read)
  intro mode name attributes stays sound
  exact sound.legible stays

theorem noStray (accepted : Accepted text parsed sanitized) :
    parsed.sanitize.value.EveryTag Tag.NoStray := by
  apply Element.everyTag_sanitize accepted.isRoot
    (Element.everyTag_parse Tag.ensures_sound accepted.read)
  intro mode name attributes _ _
  exact Tag.noStray_kept

end Accepted

/-- An accepted document is written as markup that is read back as the cleaned tree, texts
joined, exactly if the quotes that names open in a tag are closed by names of the same tag,
and no bracket in a name stands outside them. -/
theorem sanitizeWithin_readBack_iff
    {limit : Option Nat} {text : Text} {sanitized : Sanitized}
    (accepted : sanitizeWithin limit text = .ok sanitized) :
    ∃ parsed, Element.parse text = .ok parsed ∧
      sanitized.svg = parsed.sanitize.value.written ∧
      ((∃ read, Element.parse sanitized.svg = .ok read ∧
          read.joined = parsed.sanitize.value.joined) ↔
        parsed.sanitize.value.EveryTag Tag.Balanced) := by
  obtain ⟨_, parsed, accepted⟩ := sanitizeWithin_eq_ok_iff.mp accepted
  refine ⟨parsed, accepted.read, accepted.written, ?_⟩
  rw [accepted.written]
  exact Element.parse_written_iff accepted.legible accepted.noStray

/-- A document with balanced quotes in a name, and with texts that are empty or side by
side. -/
def scatteredDocument : Text :=
  "<svg><g data-a'>'=\"1\">x<![CDATA[]]><!---->y</g></svg>"

theorem scatteredDocument_readBack :
    sanitizeWithin (some 60) scatteredDocument =
        .ok ⟨"<svg><g data-a'>'=\"1\">xy</g></svg>", ⟨0, 0, 0⟩⟩ ∧
      ∃ parsed, Element.parse scatteredDocument = .ok parsed ∧
        "<svg><g data-a'>'=\"1\">xy</g></svg>" = parsed.sanitize.value.written ∧
        ((∃ read, Element.parse "<svg><g data-a'>'=\"1\">xy</g></svg>" = .ok read ∧
            read.joined = parsed.sanitize.value.joined) ↔
          parsed.sanitize.value.EveryTag Tag.Balanced) := by
  have accepted : sanitizeWithin (some 60) scatteredDocument =
      .ok ⟨"<svg><g data-a'>'=\"1\">xy</g></svg>", ⟨0, 0, 0⟩⟩ := by decide +kernel
  exact ⟨accepted, sanitizeWithin_readBack_iff accepted⟩

/-- A document with a name that opens a quote, before the name of a handler that closes it. -/
def halfQuotedDocument : Text :=
  "<svg><g data-a'=\"x\" onclick'=\"y\"/></svg>"

/-- The document is accepted without the handler, and then the tag has no end. -/
theorem halfQuotedDocument_not_readBack :
    sanitizeDocument halfQuotedDocument =
        .ok ⟨"<svg><g data-a'=\"x\"/></svg>", ⟨0, 1, 0⟩⟩ ∧
      Element.parse "<svg><g data-a'=\"x\"/></svg>" =
        .error (.malformedMarkup .unclosedTag) := by
  constructor
  · decide +kernel
  · decide +kernel

end CleanSvg
