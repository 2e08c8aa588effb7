import CleanSvg.CommandLine.Run
import CleanSvg.Proofs.Sanitize.Tally
import CleanSvg.Proofs.Sanitize.Twice

/-!
# When cleaning changes nothing

A report is clean exactly if nothing goes, every attribute is kept as it is and
all style text is clean already.  The document is then written as it would be
without cleaning, but for style elements that hold empty texts and nothing else:
these are emptied, which is counted for nothing, and so become single tags.
Conversely every other change shows in what is written.  What goes takes closing
brackets with it, and where none is lost the markup before and after is compared
tag by tag, attribute by attribute and text by text.
-/

namespace CleanSvg

/-- An element that holds empty texts and nothing else. -/
def Element.IsHollow (element : Element) : Prop :=
  element.content ≠ .empty ∧ element.content.joined = .empty

/-- No style element among these holds empty texts and nothing else. -/
def NoHollowStyle (elements : List Element) : Prop :=
  ∀ element ∈ elements, element.tag = Names.style → ¬ element.IsHollow

/-- Content in which cleaning has nothing to count where a mode governs. -/
inductive Content.Unaltered : Mode → Content → Prop where
  | empty {mode : Mode} : Unaltered mode .empty
  | text {mode : Mode} {characters : Text} {after : Content}
      (behind : Unaltered mode after) : Unaltered mode (.text characters after)
  | element {mode : Mode} {name : Text} {attributes : List Attribute} {inner after : Content}
      (stays : mode.Keeps (Text.lowercase name) attributes)
      (noStyle : Text.lowercase name ≠ Names.style)
      (kept : ∀ attr ∈ attributes, attr.kept? mode (Text.lowercase name) = some attr)
      (within : Unaltered (mode.below (Text.lowercase name)) inner)
      (behind : Unaltered mode after) :
      Unaltered mode (.element name attributes inner after)
  | style {mode : Mode} {name : Text} {attributes : List Attribute} {inner after : Content}
      (stays : mode.Keeps (Text.lowercase name) attributes)
      (isStyle : Text.lowercase name = Names.style)
      (kept : ∀ attr ∈ attributes, attr.kept? mode (Text.lowercase name) = some attr)
      (noElements : inner.elements = [])
      (fixed : Style.clean inner.textContent = inner.textContent)
      (behind : Unaltered mode after) :
      Unaltered mode (.element name attributes inner after)

theorem Report.add_eq_zero_iff {first second : Report} :
    first + second = 0 ↔ first = 0 ∧ second = 0 := by
  obtain ⟨elements, attributes, values⟩ := first
  obtain ⟨elements', attributes', values'⟩ := second
  simp only [zero_def, mk_add_mk, Report.mk.injEq]
  omega

namespace Attribute

theorem report_sanitize_eq_zero_iff {mode : Mode} {tag : Text} {attr : Attribute} :
    Report.ofChanges (attr.sanitize mode tag).changes = 0 ↔ attr.kept? mode tag = some attr := by
  rw [report_sanitize]
  cases left : attr.kept? mode tag with
  | none => simp [Report.zero_def]
  | some after =>
      have sameName := (kept?_eq_some left).1
      obtain ⟨name, value⟩ := attr
      obtain ⟨nameAfter, valueAfter⟩ := after
      cases sameName
      simp [isRewritten, Report.zero_def]

theorem report_sanitizeAll_eq_zero_iff
    {mode : Mode} {tag : Text} {attributes : List Attribute} :
    Report.ofChanges (sanitizeAll mode tag attributes).changes = 0 ↔
      ∀ attr ∈ attributes, attr.kept? mode tag = some attr := by
  induction attributes with
  | nil => simp [sanitizeAll]
  | cons attr attributes induction =>
      simp only [sanitizeAll, Journaled.changes_bind, Journaled.changes_pure, List.append_nil,
        Report.ofChanges_append, Report.add_eq_zero_iff, report_sanitize_eq_zero_iff, induction,
        List.forall_mem_cons]

theorem filterMap_kept?_eq_self_iff
    {mode : Mode} {tag : Text} {attributes : List Attribute} :
    attributes.filterMap (kept? mode tag) = attributes ↔
      ∀ attr ∈ attributes, attr.kept? mode tag = some attr := by
  simpa using List.filterMap_eq_map_iff_forall_eq_some (f := kept? mode tag) (g := id)

end Attribute

namespace Content

theorem report_restyle_eq_zero_iff {inner : Content} :
    Report.ofChanges inner.restyle.changes = 0 ↔
      inner.elements = [] ∧ Style.clean inner.textContent = inner.textContent := by
  rw [report_restyle]
  split
  · rename_i altered
    refine iff_of_false (by simp [Report.zero_def]) ?_
    rintro ⟨noElements, fixed⟩
    exact altered.elim (absurd noElements) (absurd fixed)
  · rename_i unaltered
    obtain ⟨noElements, fixed⟩ := not_or.mp unaltered
    exact iff_of_true rfl ⟨not_not.mp noElements, not_not.mp fixed⟩

theorem report_sanitize_eq_zero_iff {mode : Mode} {content : Content} :
    Report.ofChanges (content.sanitize mode).changes = 0 ↔ content.Unaltered mode := by
  induction content generalizing mode with
  | empty => exact iff_of_true rfl .empty
  | text characters after induction =>
      rw [sanitize, Journaled.changes_bind, Journaled.changes_pure, List.append_nil, induction]
      constructor
      · exact .text
      · rintro ⟨behind⟩
        assumption
  | element name attributes inner after within behind =>
      by_cases stays : mode.Keeps (Text.lowercase name) attributes
      · by_cases isStyle : Text.lowercase name = Names.style
        · rw [report_sanitize_style inner after stays isStyle, Report.add_eq_zero_iff,
            Report.add_eq_zero_iff, Attribute.report_sanitizeAll_eq_zero_iff,
            report_restyle_eq_zero_iff, behind]
          constructor
          · rintro ⟨⟨kept, noElements, fixed⟩, behind⟩
            exact .style stays isStyle kept noElements fixed behind
          · intro unaltered
            cases unaltered with
            | element _ noStyle => exact absurd isStyle noStyle
            | style _ _ kept noElements fixed behind => exact ⟨⟨kept, noElements, fixed⟩, behind⟩
        · rw [report_sanitize_keep inner after stays isStyle, Report.add_eq_zero_iff,
            Report.add_eq_zero_iff, Attribute.report_sanitizeAll_eq_zero_iff, within, behind]
          constructor
          · rintro ⟨⟨kept, within⟩, behind⟩
            exact .element stays isStyle kept within behind
          · intro unaltered
            cases unaltered with
            | element _ _ kept within behind => exact ⟨⟨kept, within⟩, behind⟩
            | style _ same => exact absurd same isStyle
      · rw [report_sanitize_remove inner after stays, Report.add_eq_zero_iff]
        refine iff_of_false (fun nothing => ?_) (fun unaltered => ?_)
        · exact absurd nothing.1 (by simp [Report.zero_def])
        · cases unaltered with
          | element kept | style kept => exact stays kept

theorem elements_eq_nil_of_brackets {content : Content} (none : content.brackets = 0) :
    content.elements = [] := by
  induction content with
  | empty => rfl
  | text characters after induction => exact induction none
  | element name attributes inner after =>
      have tags := inner.tagCount_pos
      rw [brackets] at none
      omega

theorem descendants_of_elements_eq_nil {content : Content} (noElements : content.elements = []) :
    content.descendants = [] := by
  induction content with
  | empty => rfl
  | text characters after induction => exact induction noElements
  | element name attributes inner after => cases noElements

theorem ofText_eq_empty_iff {characters : Text} : ofText characters = .empty ↔ characters = [] := by
  cases characters with
  | nil => exact iff_of_true rfl rfl
  | cons => exact iff_of_false nofun nofun

@[simp] theorem written_ofText (characters : Text) :
    (ofText characters).written = Reference.escapeText characters := by
  rw [written_of_elements_eq_nil (elements_ofText characters), textContent_ofText]

/-- What is written behind the attributes of an element, and what follows the element. -/
def writtenBehind (name : Text) (inner : Content) (rest : Text) : Text :=
  if inner = .empty then '/' :: '>' :: rest
  else '>' :: (inner.written ++ '<' :: '/' :: (name ++ '>' :: rest))

theorem written_element_append
    (name : Text) (attributes : List Attribute) (inner after : Content) (rest : Text) :
    (Content.element name attributes inner after).written ++ rest =
      '<' :: (name ++ (attributes.flatMap Attribute.written ++
        inner.writtenBehind name (after.written ++ rest))) := by
  by_cases vacant : inner = .empty
  · subst vacant
    simp [writtenBehind, written, Element.tagOpening]
  · simp [writtenBehind, vacant, written_element_of_ne vacant, Element.tagOpening]

theorem head?_writtenBehind (name : Text) (inner : Content) (rest : Text) :
    (inner.writtenBehind name rest).head? ≠ some ' ' := by
  unfold writtenBehind
  split <;> simp

theorem writtenBehind_eq
    {name rest keptRest : Text} {inner kept : Content}
    (same : kept.writtenBehind name keptRest = inner.writtenBehind name rest) :
    (kept = .empty ∧ inner = .empty ∧ keptRest = rest) ∨
      (kept ≠ .empty ∧ inner ≠ .empty ∧
        kept.written ++ '<' :: '/' :: (name ++ '>' :: keptRest) =
          inner.written ++ '<' :: '/' :: (name ++ '>' :: rest)) := by
  unfold writtenBehind at same
  by_cases vacantKept : kept = .empty <;> by_cases vacant : inner = .empty <;>
    simp only [vacantKept, vacant, if_true, if_false, List.cons.injEq, false_and,
      true_and, Char.reduceEq] at same
  · exact Or.inl ⟨vacantKept, vacant, same⟩
  · exact Or.inr ⟨vacantKept, vacant, same⟩

theorem eq_of_endTag_eq {name rest keptRest : Text}
    (same : '<' :: '/' :: (name ++ '>' :: keptRest) = '<' :: '/' :: (name ++ '>' :: rest)) :
    keptRest = rest := by
  simpa using same

variable {mode : Mode} {name : Text} {attributes : List Attribute}

/-- Attributes that are written in the same way after they are cleaned were all kept. -/
theorem kept_of_written
    {tag rest keptRest : Text} {inner keptInner : Content} (sound : Tag.Sound attributes)
    (same : '<' :: (name ++ ((attributes.filterMap (Attribute.kept? mode tag)).flatMap
        Attribute.written ++ keptInner.writtenBehind name keptRest)) =
      '<' :: (name ++ (attributes.flatMap Attribute.written ++
        inner.writtenBehind name rest))) :
    (∀ attr ∈ attributes, attr.kept? mode tag = some attr) ∧
      keptInner.writtenBehind name keptRest = inner.writtenBehind name rest := by
  have unnamed := List.append_cancel_left (List.cons.inj same).2
  obtain ⟨kept, behind⟩ := Tag.flatMap_written_append_inj sound.kept.readable sound.readable
    (head?_writtenBehind _ _ _) (head?_writtenBehind _ _ _) unnamed
  exact ⟨Attribute.filterMap_kept?_eq_self_iff.mp kept, behind⟩

/-- A style element without elements that is written in the same way after it is cleaned was
clean, and it holds a text unless it is empty. -/
theorem fixed_of_written
    {rest keptRest : Text} {inner : Content} (noElements : inner.elements = [])
    (same : (ofText (Style.clean inner.textContent)).writtenBehind name keptRest =
      inner.writtenBehind name rest) :
    Style.clean inner.textContent = inner.textContent ∧
      ¬ Element.IsHollow ⟨name, attributes, inner⟩ ∧ keptRest = rest := by
  rcases writtenBehind_eq same with ⟨vacantKept, rfl, rests⟩ | ⟨inhabited, _, inside⟩
  · exact ⟨ofText_eq_empty_iff.mp vacantKept, fun hollow => hollow.1 rfl, rests⟩
  · rw [written_ofText, written_of_elements_eq_nil noElements] at inside
    obtain ⟨fixed, ends⟩ := Reference.escapeText_append_inj inside
    refine ⟨fixed, fun hollow => inhabited ?_, by simpa using ends⟩
    rw [fixed, ← joined_of_elements_eq_nil noElements]
    exact hollow.2

/-- Content that loses no bracket and is written in the same way after it is cleaned was left
as it was. -/
theorem Retained.unaltered_of_written
    {content kept : Content} (retained : content.Retained mode kept)
    (sound : content.EveryTag fun _ attributes => Tag.Sound attributes)
    (notFewer : content.brackets ≤ kept.brackets) {rest keptRest : Text}
    (same : kept.written ++ keptRest = content.written ++ rest) :
    content.Unaltered mode ∧ NoHollowStyle content.descendants ∧ keptRest = rest := by
  -- what follows is part of the induction: inside an element it is the end tag
  induction retained generalizing rest keptRest with
  | empty => exact ⟨.empty, nofun, same⟩
  | text _ behind =>
      rw [written, written, List.append_assoc, List.append_assoc] at same
      obtain ⟨unaltered, noHollow, rests⟩ :=
        behind sound notFewer (List.append_cancel_left same)
      exact ⟨.text unaltered, noHollow, rests⟩
  | @element mode name attributes inner after keptInner keptAfter stays noStyle inside rest' within
      behind =>
      obtain ⟨soundTag, soundInner, soundAfter⟩ := sound
      have names := Tag.brackets_kept_le mode (Text.lowercase name) attributes
      have tags := inside.tagCount_le
      have fewerInside := inside.brackets_le
      have fewerAfter := rest'.brackets_le
      rw [brackets, brackets] at notFewer
      rw [written_element_append, written_element_append] at same
      obtain ⟨keptAttributes, behindTag⟩ := kept_of_written soundTag same
      have parts : inner.Unaltered (mode.below (Text.lowercase name)) ∧
          NoHollowStyle inner.descendants ∧
            keptAfter.written ++ keptRest = after.written ++ rest := by
        rcases writtenBehind_eq behindTag with ⟨_, rfl, rests⟩ | ⟨_, _, insides⟩
        · exact ⟨.empty, nofun, rests⟩
        · obtain ⟨unaltered, noHollow, ends⟩ := within soundInner (by omega) insides
          exact ⟨unaltered, noHollow, eq_of_endTag_eq ends⟩
      obtain ⟨unalteredInner, noHollowInner, rests⟩ := parts
      obtain ⟨unalteredAfter, noHollowAfter, rests⟩ := behind soundAfter (by omega) rests
      refine ⟨.element stays noStyle keptAttributes unalteredInner unalteredAfter, ?_, rests⟩
      refine List.forall_mem_cons.mpr ⟨fun isStyle => absurd isStyle noStyle, ?_⟩
      exact List.forall_mem_append.mpr ⟨noHollowInner, noHollowAfter⟩
  | @style mode name attributes inner after keptAfter stays isStyle rest' behind =>
      obtain ⟨soundTag, _, soundAfter⟩ := sound
      have names := Tag.brackets_kept_le mode (Text.lowercase name) attributes
      have tags := inner.tagCount_restyled_le
      have fewerAfter := rest'.brackets_le
      rw [brackets, brackets, brackets_ofText] at notFewer
      have noElements : inner.elements = [] := elements_eq_nil_of_brackets (by omega)
      rw [written_element_append, written_element_append] at same
      obtain ⟨keptAttributes, behindTag⟩ := kept_of_written soundTag same
      obtain ⟨fixed, notHollow, rests⟩ := fixed_of_written noElements behindTag
      obtain ⟨unalteredAfter, noHollowAfter, rests⟩ := behind soundAfter (by omega) rests
      refine ⟨.style stays isStyle keptAttributes noElements fixed unalteredAfter, ?_, rests⟩
      refine List.forall_mem_cons.mpr ⟨fun _ => notHollow, ?_⟩
      rwa [descendants_of_elements_eq_nil noElements, List.nil_append]
  | @removed _ _ _ inner _ _ _ rest' _ =>
      have tags := inner.tagCount_pos
      have fewerAfter := rest'.brackets_le
      rw [brackets] at notFewer
      omega

theorem writtenBehind_congr
    {name rest : Text} {inner kept : Content} (vacant : kept = .empty ↔ inner = .empty)
    (same : kept.written = inner.written) :
    kept.writtenBehind name rest = inner.writtenBehind name rest := by
  simp only [writtenBehind, vacant, same]

/-- Where there is nothing to count, cleaning shows in nothing but hollow style elements. -/
theorem Unaltered.written_sanitize
    {content : Content} (unaltered : content.Unaltered mode)
    (noHollow : NoHollowStyle content.descendants) :
    ((content.sanitize mode).value = .empty ↔ content = .empty) ∧
      (content.sanitize mode).value.written = content.written := by
  induction unaltered with
  | empty => exact ⟨Iff.rfl, rfl⟩
  | text _ behind =>
      rw [sanitize, Journaled.value_bind, Journaled.value_pure, written, written,
        (behind noHollow).2]
      exact ⟨by simp, rfl⟩
  | @element mode name attributes inner after stays noStyle kept _ _ within behind =>
      obtain ⟨_, noHollowBelow⟩ := List.forall_mem_cons.mp noHollow
      obtain ⟨noHollowInner, noHollowAfter⟩ := List.forall_mem_append.mp noHollowBelow
      obtain ⟨vacant, same⟩ := within noHollowInner
      rw [value_sanitize_keep inner after stays noStyle,
        Attribute.filterMap_kept?_eq_self_iff.mpr kept]
      refine ⟨by simp, ?_⟩
      have parts := written_element_append name attributes
      rw [← List.append_nil (written _), parts, writtenBehind_congr vacant same,
        (behind noHollowAfter).2, ← parts, List.append_nil]
  | @style mode name attributes inner after stays isStyle kept noElements fixed _ behind =>
      obtain ⟨notHollow, noHollowBelow⟩ := List.forall_mem_cons.mp noHollow
      obtain ⟨_, noHollowAfter⟩ := List.forall_mem_append.mp noHollowBelow
      have vacant : ofText inner.textContent = .empty ↔ inner = .empty := by
        constructor
        · intro hollow
          refine Decidable.byContradiction fun inhabited => notHollow isStyle ⟨inhabited, ?_⟩
          rw [joined_of_elements_eq_nil noElements, hollow]
        · rintro rfl
          rfl
      have same : (ofText inner.textContent).written = inner.written := by
        rw [written_ofText, written_of_elements_eq_nil noElements]
      rw [value_sanitize_style inner after stays isStyle, fixed,
        Attribute.filterMap_kept?_eq_self_iff.mpr kept]
      refine ⟨by simp, ?_⟩
      have parts := written_element_append name attributes
      rw [← List.append_nil (written _), parts, writtenBehind_congr vacant same,
        (behind noHollowAfter).2, ← parts, List.append_nil]

end Content

namespace Element

def alone (element : Element) : Content :=
  .element element.name element.attributes element.content .empty

theorem descendants_alone (element : Element) : element.alone.descendants = element.family := by
  rw [alone, Content.descendants, Content.descendants, List.append_nil, family]

section

variable {root : Element} (isRoot : root.tag = Names.root)
include isRoot

theorem keeps_root : Mode.vectorGraphics.Keeps root.tag root.attributes := by
  rw [isRoot]
  exact .root

theorem noStyle_root : root.tag ≠ Names.style := by
  rw [isRoot]
  decide

theorem below_root : Mode.vectorGraphics.below root.tag = .vectorGraphics := by
  rw [isRoot]
  rfl

theorem value_sanitize_alone :
    (root.alone.sanitize .vectorGraphics).value = root.sanitize.value.alone := by
  rw [alone, Content.value_sanitize_keep _ _ (keeps_root isRoot) (noStyle_root isRoot),
    show Mode.vectorGraphics.below (Text.lowercase root.name) = .vectorGraphics from
      below_root isRoot, alone, attributes_sanitize, content_sanitize]
  rfl

theorem report_sanitize_alone :
    Report.ofChanges (root.alone.sanitize .vectorGraphics).changes =
      Report.ofChanges root.sanitize.changes := by
  rw [alone, Content.report_sanitize_keep _ _ (keeps_root isRoot) (noStyle_root isRoot),
    show Mode.vectorGraphics.below (Text.lowercase root.name) = .vectorGraphics from
      below_root isRoot]
  simp [sanitize, sanitizeAttributes, Content.sanitize, Report.ofChanges_append, tag]

/-- A cleaned root is written as it was before exactly if nothing was counted and no style
element in it is hollow. -/
theorem written_sanitize_eq_iff
    (sound : root.EveryTag fun _ attributes => Tag.Sound attributes)
    (plain : root.sanitize.value.EveryTag fun name _ => '>' ∉ name) :
    root.sanitize.value.written = root.written ↔
      Report.ofChanges root.sanitize.changes = 0 ∧ NoHollowStyle root.family := by
  have retained := Content.retained_sanitize .vectorGraphics root.alone
  rw [value_sanitize_alone isRoot] at retained
  rw [← report_sanitize_alone isRoot, Content.report_sanitize_eq_zero_iff, ← descendants_alone]
  constructor
  · intro same
    have notFewer : root.alone.brackets ≤ root.sanitize.value.alone.brackets := by
      have written := Content.brackets_le_count_written root.alone
      rwa [show root.alone.written = root.sanitize.value.written from same.symm,
        count_written plain] at written
    obtain ⟨unaltered, noHollow, _⟩ := retained.unaltered_of_written
      ⟨sound.1, sound.2, trivial⟩ notFewer (congrArg (· ++ []) same)
    exact ⟨unaltered, noHollow⟩
  · rintro ⟨unaltered, noHollow⟩
    have same := (unaltered.written_sanitize noHollow).2
    rw [value_sanitize_alone isRoot] at same
    exact same

end

end Element

theorem Report.line_eq_iff {report : Report} :
    report.line = "変更なし".toList ↔ report.isClean = true := by
  unfold line
  split
  · rename_i clean
    exact iff_of_true rfl clean
  · rename_i unclean
    refine iff_of_false (fun same => ?_) unclean
    simp at same

/-- An accepted document is written as it would be without cleaning exactly if its report is
clean and no style element in it holds empty texts and nothing else.  The reader is told that
nothing changed exactly if the report is clean. -/
theorem sanitizeWithin_unchanged_iff
    {limit : Option Nat} {text : Text} {sanitized : Sanitized}
    (accepted : sanitizeWithin limit text = .ok sanitized) :
    ∃ parsed, Element.parse text = .ok parsed ∧
      (sanitized.svg = parsed.written ↔
        sanitized.report.isClean = true ∧ NoHollowStyle parsed.family) ∧
      (sanitized.report.line = "変更なし".toList ↔ sanitized.report.isClean = true) := by
  obtain ⟨_, parsed, accepted⟩ := sanitizeWithin_eq_ok_iff.mp accepted
  refine ⟨parsed, accepted.read, ?_, Report.line_eq_iff⟩
  rw [accepted.written, accepted.reported, Report.isClean_iff]
  exact Element.written_sanitize_eq_iff accepted.isRoot
    (Element.everyTag_parse Tag.ensures_sound accepted.read) accepted.plain

/-- A document with clean style text in two pieces, and with a reference and a tag that are
spelled in another way than they are written. -/
def splitStylesheet : Text :=
  "<svg><style>a<!-- -->&#62;b</style><g /></svg>"

theorem splitStylesheet_unchanged :
    sanitizeWithin (some 60) splitStylesheet =
        .ok ⟨"<svg><style>a&gt;b</style><g/></svg>", ⟨0, 0, 0⟩⟩ ∧
      ∃ parsed, Element.parse splitStylesheet = .ok parsed ∧
        (("<svg><style>a&gt;b</style><g/></svg>".toList = parsed.written ↔
          Report.isClean ⟨0, 0, 0⟩ = true ∧ NoHollowStyle parsed.family) ∧
        (Report.line ⟨0, 0, 0⟩ = "変更なし".toList ↔ Report.isClean ⟨0, 0, 0⟩ = true)) := by
  have accepted : sanitizeWithin (some 60) splitStylesheet =
      .ok ⟨"<svg><style>a&gt;b</style><g/></svg>", ⟨0, 0, 0⟩⟩ := by
    decide +kernel
  exact ⟨accepted, sanitizeWithin_unchanged_iff accepted⟩

/-- A document with a style element that holds an empty text and nothing else. -/
def hollowStylesheet : Text :=
  "<svg><style><![CDATA[]]></style><g/></svg>"

theorem hollowStylesheet_changed :
    sanitizeDocument hollowStylesheet = .ok ⟨"<svg><style/><g/></svg>", ⟨0, 0, 0⟩⟩ ∧
      (Element.parse hollowStylesheet).map Element.written =
        .ok "<svg><style></style><g/></svg>".toList := by
  constructor
  · decide +kernel
  · decide +kernel

end CleanSvg
