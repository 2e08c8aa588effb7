import CleanSvg.Proofs.Markup.RoundTrip
import CleanSvg.Proofs.Markup.Symbols

/-!
# Trees with plain names

Values and texts are written so that they are read back whatever they hold, and
plain names are read back as they stand.  So a tree with plain names is read
back, however it was built, and all that reading changes is where one text ends
and the next begins.
-/

namespace CleanSvg

namespace Tag

/-- The signs of markup that no plain name holds. -/
def reservedSigns : List Char :=
  ['<', '>', '"', '\'', '=', '/', '!', '?', '&']

/-- A name without white space and without signs of markup. -/
structure PlainName (name : Text) : Prop where
  nonempty : name ≠ []
  noSpace : ∀ character ∈ name, isSpace character = false
  noSign : ∀ sign ∈ reservedSigns, sign ∉ name

/-- A tag with plain names only, and with no two attributes whose names differ in nothing but
the case of ASCII letters. -/
structure Plain (name : Text) (attributes : List Attribute) : Prop where
  elementName : PlainName name
  attributeNames : ∀ attr ∈ attributes, PlainName attr.name
  distinct : Distinct attributes

instance (name : Text) : Decidable (PlainName name) :=
  haveI : Decidable (∀ character ∈ name, isSpace character = false) :=
    List.decidableBAll _ name
  haveI : Decidable (∀ sign ∈ reservedSigns, sign ∉ name) := List.decidableBAll _ reservedSigns
  decidable_of_iff (name ≠ [] ∧ (∀ character ∈ name, isSpace character = false) ∧
      ∀ sign ∈ reservedSigns, sign ∉ name)
    ⟨fun ⟨nonempty, noSpace, noSign⟩ => ⟨nonempty, noSpace, noSign⟩,
      fun plain => ⟨plain.nonempty, plain.noSpace, plain.noSign⟩⟩

instance (attributes : List Attribute) : Decidable (Distinct attributes) :=
  inferInstanceAs (Decidable (attributes.Pairwise _))

instance (name : Text) (attributes : List Attribute) : Decidable (Plain name attributes) :=
  decidable_of_iff (PlainName name ∧ (∀ attr ∈ attributes, PlainName attr.name) ∧
      Distinct attributes)
    ⟨fun ⟨elementName, attributeNames, distinct⟩ => ⟨elementName, attributeNames, distinct⟩,
      fun plain => ⟨plain.elementName, plain.attributeNames, plain.distinct⟩⟩

namespace PlainName

variable {name : Text}

theorem bland (plain : PlainName name) : ∀ character ∈ name, Reader.Bland character := by
  intro character member
  refine ⟨?_, ?_, ?_⟩ <;>
    · rintro rfl
      exact plain.noSign _ (by decide) member

/-- A plain name is not refused, as it holds no equals sign and leaves quotes alone. -/
theorem readable (plain : PlainName name) : Readable name where
  nonempty := plain.nonempty
  noSpace := plain.noSpace
  noEquals := by
    intro member
    exact plain.noSign '=' (by decide) (List.mem_of_mem_tail member)
  hidden := by
    refine ⟨none, by decide, ?_⟩
    rw [Reader.follow_bland (by decide) plain.bland]
    rfl

end PlainName

namespace Plain

variable {name : Text} {attributes : List Attribute}

theorem legible (plain : Plain name attributes) : Legible name attributes where
  readable attr member := (plain.attributeNames attr member).readable
  distinct := plain.distinct
  nonempty := plain.elementName.nonempty
  plain := by
    have spaceOrReserved : ∀ sign ∈ nameSigns, isSpace sign = true ∨ sign ∈ reservedSigns :=
      forall_mem_of_all (by decide)
    intro sign isSign member
    rcases spaceOrReserved sign isSign with space | reserved
    · rw [plain.elementName.noSpace sign member] at space
      cases space
    · exact plain.elementName.noSign sign reserved member

theorem balanced (plain : Plain name attributes) : Balanced name attributes := by
  apply Reader.follow_bland (by decide)
  intro character member
  obtain ⟨attr, inside, within⟩ := List.mem_flatMap.mp member
  exact (plain.attributeNames attr inside).bland character within

end Plain

end Tag

/-- A tree with plain names and any values and texts is read back with its texts joined, that
is, as the one tree with the same symbols and no text that is empty or stands beside
another. -/
theorem Element.parse_written_of_plain {root : Element} (plain : root.EveryTag Tag.Plain) :
    Element.parse root.written = .ok root.joined ∧
      ∀ other : Element, other = root.joined ↔
        other.Separated ∧ other.symbols = root.symbols := by
  have legible : root.EveryTag Tag.Legible := plain.imp fun _ _ => Tag.Plain.legible
  have balanced : root.EveryTag Tag.Balanced := plain.imp fun _ _ => Tag.Plain.balanced
  exact ⟨parse_written legible balanced, fun _ => eq_joined_iff⟩

/-- A tree with values and texts that look like markup, and with texts that are blank, empty
or side by side. -/
def mimickingTree : Element :=
  ⟨"a:b", [⟨"x", "\"'<&amp;>\n\x00"⟩, ⟨"y", ""⟩],
    .text "" (.text "]]></a:b><!--" (.text "&lt;\r\n" (.element "c" [] (.text "" .empty)
      (.element "C" [] .empty (.text " " (.text "" .empty))))))⟩

theorem mimickingTree_read :
    mimickingTree.EveryTag Tag.Plain ∧
      Element.parse mimickingTree.written = .ok mimickingTree.joined ∧
        ∀ other : Element, other = mimickingTree.joined ↔
          other.Separated ∧ other.symbols = mimickingTree.symbols := by
  have plain : mimickingTree.EveryTag Tag.Plain := by decide +kernel
  exact ⟨plain, Element.parse_written_of_plain plain⟩

example : mimickingTree.joined =
    ⟨"a:b", [⟨"x", "\"'<&amp;>\n\x00"⟩, ⟨"y", ""⟩],
      .text "]]></a:b><!--&lt;\r\n" (.element "c" [] .empty
        (.element "C" [] .empty (.text " " .empty)))⟩ := by
  decide

end CleanSvg
