import CleanSvg.Proofs.Markup.Brackets
import CleanSvg.Proofs.Sanitize.ReadBack
import CleanSvg.Proofs.Sanitize.Settled

/-!
# Cleaning what was cleaned

What is read back of a cleaned document is settled, so cleaning it again can
change no more than reading it did: an element that held empty texts only is
written in another form.  And where a document is not read back, a name that is
found instead is removed, with a bracket that nothing brings back.
-/

namespace CleanSvg

namespace Content

theorem Settled.prependText
    {mode : Mode} {content : Content} (settled : content.Settled mode) (characters : Text) :
    (content.prependText characters).Settled mode := by
  cases settled with
  | text behind => exact .text behind
  | empty =>
      cases characters with
      | nil => exact .empty
      | cons => exact .text .empty
  | keep treatment trusted within behind =>
      cases characters with
      | nil => exact .keep treatment trusted within behind
      | cons => exact .text (.keep treatment trusted within behind)
  | restyle treatment trusted fixed behind =>
      cases characters with
      | nil => exact .restyle treatment trusted fixed behind
      | cons => exact .text (.restyle treatment trusted fixed behind)

theorem joined_ofText (css : Text) : (ofText css).joined = ofText css := by
  cases css <;> rfl

theorem Settled.joined
    {mode : Mode} {content : Content} (settled : content.Settled mode) :
    content.joined.Settled mode := by
  induction settled with
  | empty => exact .empty
  | text _ induction => exact induction.prependText _
  | keep treatment trusted _ _ within behind => exact .keep treatment trusted within behind
  | restyle treatment trusted fixed _ behind =>
      rw [Content.joined, joined_ofText]
      exact .restyle treatment trusted fixed behind

end Content

theorem Element.Settled.joined {root : Element} (settled : root.Settled) :
    root.joined.Settled :=
  ⟨settled.attributes, settled.content.joined⟩

namespace Tag

variable {name : Text} {attributes : List Attribute}

theorem brackets_kept_le (mode : Mode) (tag : Text) (attributes : List Attribute) :
    brackets (attributes.filterMap (Attribute.kept? mode tag)) ≤ brackets attributes := by
  induction attributes with
  | nil => exact Nat.le_refl _
  | cons attr attributes induction =>
      rw [brackets, brackets] at induction
      rw [brackets, brackets, List.filterMap_cons, List.flatMap_cons, List.count_append]
      cases left : attr.kept? mode tag with
      | none => exact Nat.le_add_left_of_le induction
      | some kept =>
          rw [List.flatMap_cons, List.count_append, (Attribute.kept?_eq_some left).1]
          exact Nat.add_le_add_left induction _

/-- A name that begins with the end of a tag takes a bracket with it when it is removed. -/
theorem noStray_of_brackets_le
    (mode : Mode) (tag : Text) (notFewer : brackets attributes ≤
      brackets (attributes.filterMap (Attribute.kept? mode tag))) :
    NoStray name attributes := by
  induction attributes with
  | nil => exact nofun
  | cons attr attributes induction =>
      have others := brackets_kept_le mode tag attributes
      rw [brackets, brackets] at induction others
      rw [brackets, brackets, List.filterMap_cons, List.flatMap_cons,
        List.count_append] at notFewer
      cases left : attr.kept? mode tag with
      | none =>
          rw [left] at notFewer
          have noBracket : '>' ∉ attr.name := by
            apply List.count_eq_zero.mp
            simp only at notFewer
            omega
          refine List.forall_mem_cons.mpr ⟨?_, induction ?_⟩
          · intro begins
            exact noBracket begins.bracket_mem
          · simp only at notFewer
            omega
      | some kept =>
          have sound : NoStray name ([attr].filterMap (Attribute.kept? mode tag)) := noStray_kept
          rw [List.filterMap_cons, left] at sound
          have sameName := (Attribute.kept?_eq_some left).1
          rw [left] at notFewer
          simp only [List.flatMap_cons, List.count_append, sameName] at notFewer
          refine List.forall_mem_cons.mpr ⟨?_, induction (Nat.le_of_add_le_add_left notFewer)⟩
          rw [← sameName]
          exact sound kept List.mem_cons_self

end Tag

namespace Content

@[simp] theorem brackets_ofText (css : Text) : (ofText css).brackets = 0 := by
  cases css <;> rfl

variable {mode : Mode} {content kept : Content}

theorem Retained.eq_empty (retained : Retained mode .empty kept) : kept = .empty := by
  cases retained
  rfl

theorem tagCount_restyled_le (inner : Content) :
    (ofText (Style.clean inner.textContent)).tagCount ≤ inner.tagCount := by
  apply tagCount_le_of_imp
  rintro rfl
  rw [textContent, Style.clean_eq_self Style.isClean_nil]
  rfl

theorem Retained.tagCount_le (retained : content.Retained mode kept) :
    kept.tagCount ≤ content.tagCount := by
  apply tagCount_le_of_imp
  rintro rfl
  exact retained.eq_empty

theorem Retained.brackets_le (retained : content.Retained mode kept) :
    kept.brackets ≤ content.brackets := by
  induction retained with
  | empty => exact Nat.le_refl _
  | text _ behind => exact behind
  | @element mode name attributes _ _ _ _ _ _ inside _ within behind =>
      have names := Tag.brackets_kept_le mode (Text.lowercase name) attributes
      have tags := inside.tagCount_le
      rw [brackets, brackets]
      omega
  | @style mode name attributes inner _ _ _ _ _ behind =>
      have names := Tag.brackets_kept_le mode (Text.lowercase name) attributes
      have tags := inner.tagCount_restyled_le
      rw [brackets, brackets, brackets_ofText]
      omega
  | removed _ _ behind =>
      rw [brackets]
      omega

/-- Content that loses no bracket has no name that begins with the end of a tag, not even in
what is removed. -/
theorem Retained.noStray
    (retained : content.Retained mode kept) (notFewer : content.brackets ≤ kept.brackets) :
    content.EveryTag Tag.NoStray := by
  induction retained with
  | empty => trivial
  | text _ behind => exact behind notFewer
  | @element mode name attributes _ _ _ _ _ _ inside rest within behind =>
      have names := Tag.brackets_kept_le mode (Text.lowercase name) attributes
      have tags := inside.tagCount_le
      have inner := inside.brackets_le
      have after := rest.brackets_le
      rw [brackets, brackets] at notFewer
      refine ⟨Tag.noStray_of_brackets_le mode (Text.lowercase name) ?_, within ?_, behind ?_⟩
      all_goals omega
  | @style mode name attributes inner _ _ _ _ rest behind =>
      have names := Tag.brackets_kept_le mode (Text.lowercase name) attributes
      have tags := inner.tagCount_restyled_le
      have after := rest.brackets_le
      rw [brackets, brackets, brackets_ofText] at notFewer
      refine ⟨Tag.noStray_of_brackets_le mode (Text.lowercase name) ?_,
        everyTag_of_brackets_eq_zero ?_, behind ?_⟩ <;> omega
  | @removed _ _ _ inner _ _ _ rest behind =>
      have tags := inner.tagCount_pos
      have after := rest.brackets_le
      rw [brackets] at notFewer
      omega

end Content

theorem Element.noStray_of_brackets_le
    {root : Element} (notFewer : root.brackets ≤ root.sanitize.value.brackets) :
    root.EveryTag Tag.NoStray := by
  have retained := root.retained_sanitize
  have names := Tag.brackets_kept_le .vectorGraphics root.tag root.attributes
  have tags := retained.tagCount_le
  have inner := retained.brackets_le
  rw [brackets, brackets, attributes_sanitize] at notFewer
  refine ⟨Tag.noStray_of_brackets_le .vectorGraphics root.tag ?_, retained.noStray ?_⟩ <;> omega

theorem Accepted.sanitizeSvg_eq
    {text : Text} {parsed : Element} {sanitized : Sanitized}
    (accepted : Accepted text parsed sanitized) :
    sanitizeSvg text = parsed.sanitize.value.written := by
  have result : sanitizeDocument text = .ok sanitized :=
    sanitizeWithin_eq_ok_iff.mpr ⟨nofun, parsed, accepted⟩
  rw [sanitizeSvg, result, ← accepted.written]

theorem accepted_of_sanitizeSvg_ne_nil {text : Text} (written : sanitizeSvg text ≠ []) :
    ∃ parsed sanitized, Accepted text parsed sanitized := by
  cases result : sanitizeDocument text with
  | error cause =>
      rw [sanitizeSvg, result] at written
      exact absurd rfl written
  | ok sanitized =>
      obtain ⟨_, parsed, accepted⟩ := sanitizeWithin_eq_ok_iff.mp result
      exact ⟨parsed, sanitized, accepted⟩

theorem sanitizeSvg_of_parse_eq_error
    {text : Text} {cause : ParseError} (refused : Element.parse text = .error cause) :
    sanitizeSvg text = [] := by
  refine Decidable.byContradiction fun written => ?_
  obtain ⟨parsed, sanitized, accepted⟩ := accepted_of_sanitizeSvg_ne_nil written
  have read := accepted.read
  rw [refused] at read
  cases read

namespace Accepted

variable {text : Text} {parsed : Element} {sanitized : Sanitized}

theorem plain (accepted : Accepted text parsed sanitized) :
    parsed.sanitize.value.EveryTag fun name _ => '>' ∉ name := by
  apply accepted.legible.imp
  intro name attributes legible
  exact legible.plain '>' (by decide)

theorem inhabited_joined (accepted : Accepted text parsed sanitized) :
    parsed.sanitize.value.joined.childElements ≠ [] := by
  intro vacant
  apply accepted.inhabited
  rw [Element.childElements, Element.joined, Content.elements_joined,
    List.map_eq_nil_iff] at vacant
  exact vacant

/-- A cleaned document that is read back is accepted again, and only its texts are joined. -/
theorem sanitizeSvg_again
    (accepted : Accepted text parsed sanitized)
    (balanced : parsed.sanitize.value.EveryTag Tag.Balanced) :
    sanitizeSvg parsed.sanitize.value.written = parsed.sanitize.value.joined.written := by
  have read := Element.parse_written accepted.legible balanced
  have settled := (Element.settled_sanitize parsed).joined.sanitize_eq
  have inhabited : parsed.sanitize.value.joined.sanitize.value.childElements ≠ [] := by
    rw [settled]
    exact accepted.inhabited_joined
  rw [(Accepted.of_parse read accepted.isRoot inhabited).sanitizeSvg_eq, settled]
  rfl

theorem balanced_of_same
    (accepted : Accepted text parsed sanitized)
    (same : sanitizeSvg parsed.sanitize.value.written = parsed.sanitize.value.written) :
    parsed.sanitize.value.EveryTag Tag.Balanced := by
  have written : sanitizeSvg parsed.sanitize.value.written ≠ [] := by
    obtain ⟨markup, begins⟩ := parsed.sanitize.value.written_begins
    rw [same, begins]
    exact List.cons_ne_nil _ _
  obtain ⟨read, again, acceptedAgain⟩ := accepted_of_sanitizeSvg_ne_nil written
  rw [acceptedAgain.sanitizeSvg_eq] at same
  apply Decidable.byContradiction
  intro unbalanced
  apply Element.stray_of_parse accepted.legible accepted.noStray unbalanced acceptedAgain.read
  apply Element.noStray_of_brackets_le
  have fewer := Element.brackets_le_of_parse acceptedAgain.read
  rwa [← same, Element.count_written acceptedAgain.plain] at fewer

theorem written_joined_of_filled
    (accepted : Accepted text parsed sanitized)
    (filled : parsed.sanitize.value.content.Filled) :
    parsed.sanitize.value.joined.written = parsed.sanitize.value.written := by
  have inhabited : parsed.sanitize.value.content.joined ≠ .empty := by
    intro vacant
    apply accepted.inhabited_joined
    rw [Element.childElements, Element.joined, vacant]
    rfl
  have whole : (Content.element parsed.sanitize.value.name parsed.sanitize.value.attributes
      parsed.sanitize.value.content .empty).Filled :=
    ⟨fun vacant => absurd vacant inhabited, filled, trivial⟩
  exact whole.written_joined

end Accepted

/-- Cleaning a document twice is cleaning it once exactly if, in what is written for it, the
quotes that names open are closed in the same tag, no bracket in a name stands outside them,
and no element holds empty texts and nothing else. -/
theorem sanitizeSvg_idem_iff (text : Text) :
    sanitizeSvg (sanitizeSvg text) = sanitizeSvg text ↔
      ∀ parsed sanitized, Accepted text parsed sanitized →
        parsed.sanitize.value.EveryTag Tag.Balanced ∧
          parsed.sanitize.value.content.Filled := by
  constructor
  · intro same parsed sanitized accepted
    rw [accepted.sanitizeSvg_eq] at same
    have balanced := accepted.balanced_of_same same
    refine ⟨balanced, Element.filled_of_written_joined accepted.plain ?_⟩
    rw [← accepted.sanitizeSvg_again balanced, same]
  · intro stable
    by_cases refused : sanitizeSvg text = []
    · rw [refused]
      decide +kernel
    · obtain ⟨parsed, sanitized, accepted⟩ := accepted_of_sanitizeSvg_ne_nil refused
      obtain ⟨balanced, filled⟩ := stable parsed sanitized accepted
      rw [accepted.sanitizeSvg_eq, accepted.sanitizeSvg_again balanced,
        accepted.written_joined_of_filled filled]

/-- A document with an element that holds an empty text and nothing else. -/
def hollowDocument : Text :=
  "<svg><g><![CDATA[]]></g></svg>"

theorem hollowDocument_twice :
    sanitizeSvg hollowDocument = "<svg><g></g></svg>".toList ∧
      sanitizeSvg (sanitizeSvg hollowDocument) = "<svg><g/></svg>".toList := by
  have once : sanitizeSvg hollowDocument = "<svg><g></g></svg>".toList := by decide +kernel
  refine ⟨once, ?_⟩
  rw [once]
  decide +kernel

/-- The tag that has no end is refused when the document is cleaned again. -/
theorem halfQuotedDocument_twice :
    sanitizeSvg halfQuotedDocument = "<svg><g data-a'=\"x\"/></svg>".toList ∧
      sanitizeSvg (sanitizeSvg halfQuotedDocument) = [] := by
  obtain ⟨accepted, refused⟩ := halfQuotedDocument_not_readBack
  have once : sanitizeSvg halfQuotedDocument = "<svg><g data-a'=\"x\"/></svg>".toList := by
    rw [sanitizeSvg, accepted]
  exact ⟨once, by rw [once, sanitizeSvg_of_parse_eq_error refused]⟩

end CleanSvg
