import CleanSvg.Sanitize.Tree
import CleanSvg.Proofs.Sanitize.Attributes

/-!
# What is left of a tree

Cleaning content is cleaning its members one by one, so what is left of an
element does not depend on its neighbours.  Hence every element of a cleaned
tree is what is left of an element that stood at the same place, under the same
rules, in the tree before.
-/

namespace CleanSvg

namespace Mode

/-- The rules that govern what is inside an element. -/
def below (mode : Mode) (tag : Text) : Mode :=
  if tag = Names.embeddingElement then .embeddedDocument else mode

/-- An element of this name may stand where these rules govern. -/
def Admits (mode : Mode) (tag : Text) : Prop :=
  tag ∈ mode.allowedElements ∧
    (mode = .embeddedDocument → tag ∉ Names.blockedEmbeddedElements)

theorem admits_of_listed
    {tag : Text} (listed : tag ∈ vectorGraphics.allowedElements) :
    vectorGraphics.Admits tag :=
  ⟨listed, nofun⟩

end Mode

namespace Treatment

/-- The treatments with everything that they say about an element. -/
inductive Founded (mode : Mode) (tag : Text) (attributes : List Attribute) :
    Treatment → Prop where
  | remove : Founded mode tag attributes .remove
  | keep {inside : Mode} (below : inside = mode.below tag)
      (admitted : mode.Admits tag) (noStyle : tag ≠ Names.style)
      (harmless : tag ∈ Names.animationElements →
        Animation.isDangerous attributes = false) :
      Founded mode tag attributes (.keep inside)
  | restyle (admitted : mode.Admits tag) (same : tag = Names.style) :
      Founded mode tag attributes .restyle

theorem ofElement_founded (mode : Mode) (tag : Text) (attributes : List Attribute) :
    Founded mode tag attributes (ofElement mode tag attributes) := by
  cases mode with
  | vectorGraphics =>
      unfold ofElement
      simp only
      split
      · rename_i embedding
        subst embedding
        refine .keep (by decide) (Mode.admits_of_listed (by decide)) (by decide) ?_
        intro animated
        exact absurd animated (by decide)
      · rename_i noEmbedding
        split
        · rename_i same
          subst same
          exact .restyle (Mode.admits_of_listed (by decide)) rfl
        · rename_i noStyle
          split
          · exact .remove
          · rename_i harmless
            split
            · rename_i listed
              refine .keep (if_neg noEmbedding).symm
                (Mode.admits_of_listed (List.contains_iff_mem.mp listed)) noStyle ?_
              intro animated
              rw [List.contains_iff_mem.mpr animated, Bool.true_and] at harmless
              exact Bool.eq_false_iff.mpr harmless
            · exact .remove
  | embeddedDocument =>
      unfold ofElement
      simp only
      split
      · exact .remove
      · rename_i unblocked
        split
        · rename_i listed
          have listed := List.contains_iff_mem.mp listed
          refine .keep (ite_self _).symm ⟨listed, fun _ => by simpa using unblocked⟩ ?_ ?_
          · rintro rfl
            exact absurd listed (by decide)
          · intro animated
            have apart : ∀ name ∈ Names.animationElements,
                name ∉ Mode.embeddedDocument.allowedElements := by decide
            exact absurd listed (apart tag animated)
        · exact .remove

end Treatment

/-- What is left of an element. -/
def Element.kept? (mode : Mode) (element : Element) : Option Element :=
  let attributes := element.attributes.filterMap (Attribute.kept? mode element.tag)
  match Treatment.ofElement mode element.tag element.attributes with
  | .remove => none
  | .keep inside => some ⟨element.name, attributes, (element.content.sanitize inside).value⟩
  | .restyle => some ⟨element.name, attributes, .ofText (Style.clean element.textContent)⟩

/-- What is left of a member of content. -/
def Node.kept? (mode : Mode) : Node → Option Node
  | .text characters => some (.text characters)
  | .element child => (child.kept? mode).map .element

namespace Content

@[simp] theorem value_restyle (inner : Content) :
    inner.restyle.value = .ofText (Style.clean inner.textContent) := by
  rw [restyle, Journaled.value_bind, Style.value_cleanNoting]
  split <;> rfl

theorem mem_elements_iff {content : Content} {element : Element} :
    element ∈ content.elements ↔ Node.element element ∈ content.nodes := by
  induction content with
  | empty => simp [elements, nodes]
  | text characters after induction => simp [elements, nodes, induction]
  | element name attributes inner after _ induction =>
      simp [elements, nodes, induction]

theorem nodes_ofText (characters : Text) :
    (ofText characters).nodes = if characters = [] then [] else [.text characters] := by
  cases characters <;> rfl

@[simp] theorem elements_ofText (characters : Text) : (ofText characters).elements = [] := by
  cases characters <;> rfl

theorem nodes_sanitize (mode : Mode) (content : Content) :
    (content.sanitize mode).value.nodes = content.nodes.filterMap (Node.kept? mode) := by
  induction content with
  | empty => rfl
  | text characters after induction =>
      rw [sanitize, Journaled.value_bind, Journaled.value_pure, nodes, nodes,
        List.filterMap_cons, Node.kept?, induction]
  | element name attributes inner after _ induction =>
      rw [nodes, List.filterMap_cons, ← induction, sanitize, Journaled.value_bind,
        Node.kept?]
      simp only [Element.kept?, Element.tag, Element.textContent]
      cases Treatment.ofElement mode (Text.lowercase name) attributes with
      | remove => simp
      | keep inside => simp [nodes]
      | restyle => simp [nodes]

theorem mem_elements_sanitize_iff {mode : Mode} {content : Content} {kept : Element} :
    kept ∈ (content.sanitize mode).value.elements ↔
      ∃ original ∈ content.elements, original.kept? mode = some kept := by
  rw [mem_elements_iff, nodes_sanitize, List.mem_filterMap]
  constructor
  · rintro ⟨node, inside, left⟩
    cases node with
    | text characters => cases left
    | element original =>
        obtain ⟨_, left, same⟩ := Option.map_eq_some_iff.mp left
        cases same
        exact ⟨original, mem_elements_iff.mpr inside, left⟩
  · rintro ⟨original, inside, left⟩
    refine ⟨.element original, mem_elements_iff.mp inside, ?_⟩
    rw [Node.kept?, left]
    rfl

end Content

theorem Element.kept?_eq_some
    {mode : Mode} {original kept : Element} (left : original.kept? mode = some kept) :
    kept.name = original.name ∧
      kept.attributes =
        original.attributes.filterMap (Attribute.kept? mode original.tag) := by
  rw [Element.kept?] at left
  cases treatment : Treatment.ofElement mode original.tag original.attributes with
  | remove =>
      rw [treatment] at left
      cases left
  | keep | restyle =>
      rw [treatment] at left
      cases left
      exact ⟨rfl, rfl⟩

theorem Element.attributes_sanitize (root : Element) :
    root.sanitize.value.attributes =
      root.attributes.filterMap (Attribute.kept? .vectorGraphics root.tag) := by
  simp [sanitize, sanitizeAttributes]

theorem Element.content_sanitize (root : Element) :
    root.sanitize.value.content = (root.content.sanitize .vectorGraphics).value := by
  simp [sanitize]

/-- An element of a tree, and the rules that govern where it stands. -/
inductive Within (root : Element) : Mode → Element → Prop where
  | root : Within root .vectorGraphics root
  | child {mode : Mode} {parent child : Element} (above : Within root mode parent)
      (member : child ∈ parent.childElements) :
      Within root (mode.below parent.tag) child

theorem Element.kept?_root {root : Element} (isRoot : root.tag = Names.root) :
    root.kept? .vectorGraphics = some root.sanitize.value := by
  have kept : Treatment.ofElement .vectorGraphics root.tag root.attributes =
      .keep .vectorGraphics := by
    rw [isRoot]
    rfl
  rw [kept?, kept]
  simp [Element.sanitize, Element.sanitizeAttributes]

/-- Every element of a cleaned tree is what is left of one of the tree before, at a place
that the same rules govern. -/
theorem Within.original
    {root kept : Element} {mode : Mode} (isRoot : root.tag = Names.root)
    (within : Within root.sanitize.value mode kept) :
    ∃ original, Within root mode original ∧ original.kept? mode = some kept := by
  induction within with
  | root => exact ⟨root, .root, Element.kept?_root isRoot⟩
  | @child mode parent child _ member induction =>
      obtain ⟨before, within, left⟩ := induction
      have founded :=
        Treatment.ofElement_founded mode before.tag before.attributes
      rw [Element.kept?] at left
      cases treatment : Treatment.ofElement mode before.tag before.attributes with
      | remove =>
          rw [treatment] at left
          cases left
      | keep inside =>
          rw [treatment] at left founded
          cases left
          cases founded with
          | keep below =>
              subst below
              obtain ⟨original, inside, left⟩ :=
                Content.mem_elements_sanitize_iff.mp member
              have place : Within root (mode.below before.tag) original :=
                .child within inside
              exact ⟨original, place, left⟩
      | restyle =>
          rw [treatment] at left
          cases left
          simp [Element.childElements] at member

end CleanSvg
