import CleanSvg.Proofs.Sanitize.Acceptance
import CleanSvg.Proofs.Sanitize.Tree

/-!
# Nothing safe is lost

`Mode.Keeps` says which elements may stay, and `Content.Retained` what a tree has
to become: the elements that may stay and all texts beside them, in the order in
which they stood, and nothing else.  Cleaning gives the one tree that is related
in this way, and a root is refused only if none of its children may stay.
-/

namespace CleanSvg

/-- An element of this name and with these attributes may stay where a mode governs. -/
def Mode.Keeps (mode : Mode) (tag : Text) (attributes : List Attribute) : Prop :=
  match mode with
  | .vectorGraphics =>
      tag = Names.embeddingElement ∨ tag = Names.style ∨
        (tag ∈ Names.vectorElements ∧
          ¬ (tag ∈ Names.animationElements ∧ Animation.isDangerous attributes = true))
  | .embeddedDocument =>
      tag ∈ Names.embeddedElements ∧ tag ∉ Names.blockedEmbeddedElements

/-- What content has to become where a mode governs, member by member. -/
inductive Content.Retained : Mode → Content → Content → Prop where
  | empty {mode : Mode} : Retained mode .empty .empty
  | text {mode : Mode} {characters : Text} {after kept : Content}
      (behind : Retained mode after kept) :
      Retained mode (.text characters after) (.text characters kept)
  | element {mode : Mode} {name : Text} {attributes : List Attribute}
      {inner after keptInner keptAfter : Content}
      (stays : mode.Keeps (Text.lowercase name) attributes)
      (noStyle : Text.lowercase name ≠ Names.style)
      (within : Retained (mode.below (Text.lowercase name)) inner keptInner)
      (behind : Retained mode after keptAfter) :
      Retained mode (.element name attributes inner after)
        (.element name (attributes.filterMap (Attribute.kept? mode (Text.lowercase name)))
          keptInner keptAfter)
  | style {mode : Mode} {name : Text} {attributes : List Attribute}
      {inner after keptAfter : Content}
      (stays : mode.Keeps (Text.lowercase name) attributes)
      (isStyle : Text.lowercase name = Names.style)
      (behind : Retained mode after keptAfter) :
      Retained mode (.element name attributes inner after)
        (.element name (attributes.filterMap (Attribute.kept? mode (Text.lowercase name)))
          (.ofText (Style.clean inner.textContent)) keptAfter)
  | removed {mode : Mode} {name : Text} {attributes : List Attribute}
      {inner after kept : Content}
      (goes : ¬ mode.Keeps (Text.lowercase name) attributes)
      (behind : Retained mode after kept) :
      Retained mode (.element name attributes inner after) kept

namespace Treatment

theorem ofElement_ne_remove_iff
    {mode : Mode} {tag : Text} {attributes : List Attribute} :
    ofElement mode tag attributes ≠ .remove ↔ mode.Keeps tag attributes := by
  cases mode with
  | vectorGraphics =>
      unfold ofElement Mode.Keeps
      simp only [Mode.allowedElements, Bool.and_eq_true, List.contains_iff_mem]
      split_ifs <;> simp_all
  | embeddedDocument =>
      unfold ofElement Mode.Keeps
      simp only [Mode.allowedElements, List.contains_iff_mem]
      split_ifs <;> simp_all

theorem ofElement_eq_keep
    {mode : Mode} {tag : Text} {attributes : List Attribute}
    (stays : mode.Keeps tag attributes) (noStyle : tag ≠ Names.style) :
    ofElement mode tag attributes = .keep (mode.below tag) := by
  have kept := ofElement_ne_remove_iff.mpr stays
  have founded := ofElement_founded mode tag attributes
  generalize ofElement mode tag attributes = treatment at kept founded
  cases founded with
  | remove => exact absurd rfl kept
  | keep below => rw [below]
  | restyle _ isStyle => exact absurd isStyle noStyle

theorem ofElement_eq_restyle
    {mode : Mode} {tag : Text} {attributes : List Attribute}
    (stays : mode.Keeps tag attributes) (isStyle : tag = Names.style) :
    ofElement mode tag attributes = .restyle := by
  have kept := ofElement_ne_remove_iff.mpr stays
  have founded := ofElement_founded mode tag attributes
  generalize ofElement mode tag attributes = treatment at kept founded
  cases founded with
  | remove => exact absurd rfl kept
  | keep _ _ noStyle => exact absurd isStyle noStyle
  | restyle => rfl

theorem ofElement_eq_remove
    {mode : Mode} {tag : Text} {attributes : List Attribute}
    (goes : ¬ mode.Keeps tag attributes) : ofElement mode tag attributes = .remove :=
  not_not.mp fun stays => goes (ofElement_ne_remove_iff.mp stays)

end Treatment

namespace Content

theorem value_sanitize_keep
    {mode : Mode} {name : Text} {attributes : List Attribute} (inner after : Content)
    (stays : mode.Keeps (Text.lowercase name) attributes)
    (noStyle : Text.lowercase name ≠ Names.style) :
    (sanitize mode (.element name attributes inner after)).value =
      .element name (attributes.filterMap (Attribute.kept? mode (Text.lowercase name)))
        (inner.sanitize (mode.below (Text.lowercase name))).value
        (after.sanitize mode).value := by
  simp [sanitize, Treatment.ofElement_eq_keep stays noStyle]

theorem value_sanitize_style
    {mode : Mode} {name : Text} {attributes : List Attribute} (inner after : Content)
    (stays : mode.Keeps (Text.lowercase name) attributes)
    (isStyle : Text.lowercase name = Names.style) :
    (sanitize mode (.element name attributes inner after)).value =
      .element name (attributes.filterMap (Attribute.kept? mode (Text.lowercase name)))
        (.ofText (Style.clean inner.textContent)) (after.sanitize mode).value := by
  simp [sanitize, Treatment.ofElement_eq_restyle stays isStyle]

theorem value_sanitize_remove
    {mode : Mode} {name : Text} {attributes : List Attribute} (inner after : Content)
    (goes : ¬ mode.Keeps (Text.lowercase name) attributes) :
    (sanitize mode (.element name attributes inner after)).value =
      (after.sanitize mode).value := by
  simp [sanitize, Treatment.ofElement_eq_remove goes]

theorem Retained.eq_sanitize
    {mode : Mode} {content kept : Content} (retained : content.Retained mode kept) :
    (content.sanitize mode).value = kept := by
  induction retained with
  | empty => rfl
  | text _ behind => rw [sanitize, Journaled.value_bind, Journaled.value_pure, behind]
  | element stays noStyle _ _ within behind =>
      rw [value_sanitize_keep _ _ stays noStyle, within, behind]
  | style stays isStyle _ behind => rw [value_sanitize_style _ _ stays isStyle, behind]
  | removed goes _ behind => rw [value_sanitize_remove _ _ goes, behind]

theorem retained_sanitize (mode : Mode) (content : Content) :
    content.Retained mode (content.sanitize mode).value := by
  induction content generalizing mode with
  | empty => exact .empty
  | text characters after behind => exact .text (behind mode)
  | element name attributes inner after within behind =>
      by_cases stays : mode.Keeps (Text.lowercase name) attributes
      · by_cases isStyle : Text.lowercase name = Names.style
        · rw [value_sanitize_style _ _ stays isStyle]
          exact .style stays isStyle (behind mode)
        · rw [value_sanitize_keep _ _ stays isStyle]
          exact .element stays isStyle (within _) (behind mode)
      · rw [value_sanitize_remove _ _ stays]
        exact .removed stays (behind mode)

/-- Cleaning gives the one content that is related to what was there. -/
theorem retained_iff {mode : Mode} {content kept : Content} :
    content.Retained mode kept ↔ (content.sanitize mode).value = kept := by
  constructor
  · exact Retained.eq_sanitize
  · rintro rfl
    exact retained_sanitize mode content

end Content

namespace Element

theorem retained_sanitize (root : Element) :
    root.content.Retained .vectorGraphics root.sanitize.value.content := by
  rw [content_sanitize]
  exact Content.retained_sanitize .vectorGraphics root.content

theorem kept?_isSome_iff {mode : Mode} {element : Element} :
    (element.kept? mode).isSome = true ↔ mode.Keeps element.tag element.attributes := by
  rw [← Treatment.ofElement_ne_remove_iff, kept?]
  cases Treatment.ofElement mode element.tag element.attributes <;> simp

/-- A root keeps an element inside exactly if one of its children may stay. -/
theorem inhabited_sanitize_iff {root : Element} :
    root.sanitize.value.childElements ≠ [] ↔
      ∃ child ∈ root.childElements, Mode.vectorGraphics.Keeps child.tag child.attributes := by
  rw [childElements, content_sanitize]
  constructor
  · intro inhabited
    obtain ⟨kept, member⟩ := List.exists_mem_of_ne_nil _ inhabited
    obtain ⟨child, inside, left⟩ := Content.mem_elements_sanitize_iff.mp member
    refine ⟨child, inside, kept?_isSome_iff.mp ?_⟩
    rw [left]
    rfl
  · rintro ⟨child, inside, stays⟩
    obtain ⟨kept, left⟩ := Option.isSome_iff_exists.mp (kept?_isSome_iff.mpr stays)
    exact List.ne_nil_of_mem (Content.mem_elements_sanitize_iff.mpr ⟨child, inside, left⟩)

theorem verdict_sanitizeTree_eq_empty_iff {root : Element} (isRoot : root.tag = Names.root) :
    root.sanitizeTree.verdict = .error .empty ↔ root.sanitize.value.childElements = [] := by
  rw [sanitizeTree, if_neg (not_not_intro isRoot)]
  by_cases vacant : root.sanitize.value.childElements = []
  · simp [vacant]
  · simp [vacant]

/-- Of the root of a graphic, the name, the attributes that the rules allow and everything
that may stay inside are kept in order; it is accepted exactly if one of its children may
stay, and otherwise refused as empty. -/
theorem sanitizeTree_retains {root : Element} (isRoot : root.tag = Names.root) :
    root.sanitizeTree.root.name = root.name ∧
      root.sanitizeTree.root.attributes =
        root.attributes.filterMap (Attribute.kept? .vectorGraphics root.tag) ∧
      root.content.Retained .vectorGraphics root.sanitizeTree.root.content ∧
      ((∃ report, root.sanitizeTree.verdict = .ok report) ↔
        ∃ child ∈ root.childElements,
          Mode.vectorGraphics.Keeps child.tag child.attributes) ∧
      (root.sanitizeTree.verdict = .error .empty ↔
        ¬ ∃ child ∈ root.childElements,
          Mode.vectorGraphics.Keeps child.tag child.attributes) := by
  rw [root_sanitizeTree isRoot, ← inhabited_sanitize_iff, not_not]
  refine ⟨rfl, root.attributes_sanitize, root.retained_sanitize, ?_,
    verdict_sanitizeTree_eq_empty_iff isRoot⟩
  constructor
  · rintro ⟨report, verdict⟩
    exact (verdict_sanitizeTree_eq_ok_iff.mp verdict).2.1
  · intro inhabited
    exact ⟨_, verdict_sanitizeTree_eq_ok_iff.mpr ⟨isRoot, inhabited, rfl⟩⟩

end Element

/-- A graphic in which elements and attributes that stay and that go stand among texts. -/
def crowdedTree : Element :=
  ⟨"svg", [⟨"onload", "f()"⟩, ⟨"class", "1"⟩, ⟨"clip-path", "url(#a)url(//x)"⟩],
    .text "a" (.element "script" [] .empty (.text "b" (.element "g"
      [⟨"data-x", "<"⟩, ⟨"onclick", "f()"⟩]
      (.element "x" [] (.text "lost" .empty) (.text "c" .empty))
      (.element "foreignObject" [] (.element "p" [] .empty (.element "img" [] .empty .empty))
        .empty))))⟩

theorem crowdedTree_retained :
    crowdedTree.tag = Names.root ∧
      crowdedTree.sanitizeTree.root.name = "svg".toList ∧
      crowdedTree.sanitizeTree.root.attributes =
        [⟨"class", "1"⟩, ⟨"clip-path", "url(#a)"⟩] ∧
      crowdedTree.content.Retained .vectorGraphics crowdedTree.sanitizeTree.root.content ∧
      (∃ report, crowdedTree.sanitizeTree.verdict = .ok report) ∧
      crowdedTree.sanitizeTree.verdict ≠ .error .empty ∧
      crowdedTree.sanitizeTree.root.written =
        ("<svg class=\"1\" clip-path=\"url(#a)\">ab" ++
          "<g data-x=\"&lt;\">c</g><foreignObject><p/></foreignObject></svg>").toList := by
  have isRoot : crowdedTree.tag = Names.root := by decide +kernel
  obtain ⟨named, attributes, retained, accepted, refused⟩ := Element.sanitizeTree_retains isRoot
  have stays : ∃ child ∈ crowdedTree.childElements,
      Mode.vectorGraphics.Keeps child.tag child.attributes := by
    have found : crowdedTree.childElements.any
        (fun child => (child.kept? .vectorGraphics).isSome) = true := by
      decide +kernel
    obtain ⟨child, member, kept⟩ := List.any_eq_true.mp found
    exact ⟨child, member, Element.kept?_isSome_iff.mp kept⟩
  refine ⟨isRoot, named, ?_, retained, accepted.mpr stays, ?_, by decide +kernel⟩
  · rw [attributes]
    decide +kernel
  · intro empty
    exact refused.mp empty stays

end CleanSvg
