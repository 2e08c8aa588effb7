import Mathlib.Control.Monad.Basic
import CleanSvg.Proofs.Markup.PlainNames
import CleanSvg.Proofs.Text.ForeignCase

/-!
# Attributes that share a key

An attribute is judged by the lowercase form of its name, but reading a tag refuses
two names only if they agree within ASCII.  So two attributes of an element may share
a key, and then their names differ in a capital from outside ASCII.
-/

namespace CleanSvg

namespace Attribute

/-- What an attribute is judged by. -/
def key (attr : Attribute) : Text :=
  Text.lowercase attr.name

/-- How far two attributes of one element are apart. -/
structure ToldApart (left right : Attribute) : Prop where
  names : Text.equalsIgnoringAsciiCase left.name right.name = false
  foreign : left.key = right.key →
    ∃ character ∈ left.name ++ right.name, Text.ForeignCapital character
  kelvin : left.key = right.key → (∀ letter ∈ left.key, Text.IsAscii letter) →
    '\u212A' ∈ left.name ++ right.name

theorem ToldApart.of_names
    {left right : Attribute}
    (apart : Text.equalsIgnoringAsciiCase left.name right.name = false) :
    left.ToldApart right where
  names := apart
  foreign same := Text.exists_foreignCapital apart same
  kelvin same ascii := Text.kelvin_mem apart same ascii

end Attribute

/-- Two attributes on one element of a parsed tree share a key only if one of their names has
a capital from outside ASCII, and a key in ASCII only if it has a Kelvin sign. -/
theorem Element.parse_toldApart
    {text : Text} {root : Element} (parsed : Element.parse text = .ok root) :
    root.EveryTag fun _ attributes => attributes.Pairwise Attribute.ToldApart := by
  apply (Element.everyTag_parse Tag.ensures_sound parsed).imp
  intro _ attributes sound
  exact sound.distinct.imp Attribute.ToldApart.of_names

/-- Two pairs of names that agree in lowercase, one of them in ASCII. -/
def spelledDocument : Text :=
  "<svg stroke='1' stro\u212Ae='2'><g \u00C9='1' \u00E9='2' fill='3'/></svg>"

theorem spelledDocument_toldApart :
    ∃ root, Element.parse spelledDocument = .ok root ∧
      root.EveryTag fun _ attributes => attributes.Pairwise Attribute.ToldApart := by
  have parsed : Element.parse spelledDocument = .ok
      ⟨"svg", [⟨"stroke", "1"⟩, ⟨"stro\u212Ae", "2"⟩],
        .element "g" [⟨"\u00C9", "1"⟩, ⟨"\u00E9", "2"⟩, ⟨"fill", "3"⟩] .empty .empty⟩ := by
    decide +kernel
  exact ⟨_, parsed, Element.parse_toldApart parsed⟩

/-- Nothing more is asked of plain names: they stand on one element as soon as they differ
within ASCII, whether they share a key or not. -/
theorem Element.parse_bare_iff
    {name : Text} {attributes : List Attribute} (plainName : Tag.PlainName name)
    (plainNames : ∀ attr ∈ attributes, Tag.PlainName attr.name) :
    Element.parse (Element.written ⟨name, attributes, .empty⟩) =
        .ok ⟨name, attributes, .empty⟩ ↔
      Tag.Distinct attributes := by
  constructor
  · intro parsed
    exact (Element.everyTag_parse Tag.ensures_sound parsed).1.distinct
  · intro distinct
    have plain : Tag.Plain name attributes := ⟨plainName, plainNames, distinct⟩
    exact Element.parse_written ⟨plain.legible, trivial⟩ ⟨plain.balanced, trivial⟩

/-- A letter and the Kelvin sign, which have the same small form. -/
def kelvinDocument : Text :=
  "<svg k=\"1\" \u212A=\"2\"/>"

theorem kelvinDocument_sharesKey :
    Element.parse kelvinDocument = .ok ⟨"svg", [⟨"k", "1"⟩, ⟨"\u212A", "2"⟩], .empty⟩ ∧
      Attribute.key ⟨"k", "1"⟩ = Attribute.key ⟨"\u212A", "2"⟩ := by
  decide +kernel

end CleanSvg
