import Mathlib.Data.List.Induction
import CleanSvg.Proofs.Sanitize.Tally

/-!
# Removal in place

Children can be cleaned in the list in which they stand: the indices are gone
through from the last to the first, a child that stays is changed at its index,
and one that goes is taken out of the list.  Taking one out moves only children
that were visited before, so every index still leads to the child that stood
there at first, and what is left is what a pass in document order leaves.  The
two count in opposite orders, which makes no difference to a report.
-/

namespace CleanSvg

/-- An index at which a list has no member. -/
structure IndexError where
  index : Nat
  length : Nat
deriving DecidableEq, Repr

/-- What a visit makes of a child: whether it stays, how it was left, and the report then. -/
structure Visit where
  stays : Bool
  child : Element
  report : Report
deriving DecidableEq, Repr

/-- Children that were cleaned, and the report then. -/
structure Sweep where
  children : List Node
  report : Report
deriving DecidableEq, Repr

def Content.size : Content → Nat
  | .empty => 0
  | .text _ after => after.size + 1
  | .element _ _ inner after => inner.size + after.size + 1

def Node.size : Node → Nat
  | .text _ => 1
  | .element child => child.content.size + 1

theorem Content.sum_size_nodes (content : Content) :
    (content.nodes.map Node.size).sum = content.size := by
  induction content with
  | empty => rfl
  | text characters after induction =>
      rw [nodes, List.map_cons, List.sum_cons, induction, Node.size, size, Nat.add_comm]
  | element name attributes inner after _ induction =>
      rw [nodes, List.map_cons, List.sum_cons, induction, Node.size, size]
      exact Nat.add_right_comm inner.size 1 after.size

theorem Node.sum_size_take_add_one {children : List Node} {index : Nat} {child : Node}
    (found : children[index]? = some child) :
    ((children.take (index + 1)).map size).sum =
      ((children.take index).map size).sum + child.size := by
  rw [List.take_add_one, found, List.map_append, List.sum_append]
  simp

mutual

/-- Cleans a child where it stands. -/
def Element.visit (mode : Mode) (child : Element) (report : Report) :
    Except IndexError Visit :=
  let attributed := child.sanitizeAttributes mode
  match Treatment.ofElement mode child.tag child.attributes with
  | .remove => .ok ⟨false, child, report⟩
  | .keep inside => do
      let inner := child.content.nodes
      let swept ← Node.sweepBelow inside inner.length inner
        (report.addAll attributed.changes)
      .ok ⟨true, { attributed.value with content := .ofNodes swept.children }, swept.report⟩
  | .restyle =>
      let restyled := child.content.restyle
      .ok ⟨true, { attributed.value with content := restyled.value },
        (report.addAll attributed.changes).addAll restyled.changes⟩
termination_by 2 * child.content.size + 1
decreasing_by
  rw [List.take_length, Content.sum_size_nodes]
  omega

/-- Cleans the children below an index, the last of them first, in the list itself. -/
def Node.sweepBelow (mode : Mode) (index : Nat) (children : List Node) (report : Report) :
    Except IndexError Sweep :=
  match index with
  | 0 => .ok ⟨children, report⟩
  | index + 1 =>
      match _ : children[index]? with
      | none => .error ⟨index, children.length⟩
      | some (.text _) => Node.sweepBelow mode index children report
      | some (.element child) => do
          let visit ← child.visit mode report
          if visit.stays then
            Node.sweepBelow mode index (children.set index (.element visit.child)) visit.report
          else
            Node.sweepBelow mode index (children.eraseIdx index)
              (visit.report.add (.elementRemoved child.name mode))
termination_by 2 * ((children.take index).map Node.size).sum
decreasing_by
  · rename_i found
    rw [Node.sum_size_take_add_one found, Node.size]
    omega
  · rename_i found
    rw [Node.sum_size_take_add_one found, Node.size]
    omega
  · rename_i found _
    rw [Node.sum_size_take_add_one found, Node.size, List.take_set,
      List.set_eq_of_length_le (List.length_take_le _ _)]
    omega
  · rename_i found _
    rw [Node.sum_size_take_add_one found, Node.size,
      List.take_eraseIdx_eq_take_of_le _ _ _ (Nat.le_refl _)]
    omega

end

/-- Cleans all children of an element in the list in which they stand. -/
def Element.sweepChildren (mode : Mode) (element : Element) (report : Report) :
    Except IndexError Sweep :=
  Node.sweepBelow mode element.content.nodes.length element.content.nodes report

/-- Cleans children in document order and makes a list of those that stay. -/
def Node.pass (mode : Mode) : List Node → Report → Except IndexError Sweep
  | [], report => .ok ⟨[], report⟩
  | .text characters :: others, report => do
      let later ← Node.pass mode others report
      .ok { later with children := .text characters :: later.children }
  | .element child :: others, report => do
      let visit ← child.visit mode report
      if visit.stays then do
        let later ← Node.pass mode others visit.report
        .ok { later with children := .element visit.child :: later.children }
      else Node.pass mode others (visit.report.add (.elementRemoved child.name mode))

/-- What cleaning a node and what is inside it counts. -/
def Node.report (mode : Mode) (node : Node) : Report :=
  .ofChanges ((Content.cons node .empty).sanitize mode).changes

theorem Content.report_sanitize_cons (mode : Mode) (node : Node) (after : Content) :
    Report.ofChanges ((cons node after).sanitize mode).changes =
      node.report mode + Report.ofChanges (after.sanitize mode).changes := by
  rw [Node.report, add_comm, ← Report.ofChanges_append]
  congr 1
  cases node with
  | text characters => simp [cons, sanitize]
  | element child =>
      simp only [cons, sanitize, Journaled.changes_bind, Journaled.changes_pure,
        List.nil_append]
      cases Treatment.ofElement mode (Text.lowercase child.name) child.attributes with
      | remove | keep inside | restyle => simp

theorem Node.report_element (mode : Mode) (child : Element) :
    report mode (.element child) =
      match Treatment.ofElement mode child.tag child.attributes with
      | .remove => .ofChanges [.elementRemoved child.name mode]
      | .keep inside =>
          .ofChanges (child.sanitizeAttributes mode).changes +
            .ofChanges (child.content.sanitize inside).changes
      | .restyle =>
          .ofChanges (child.sanitizeAttributes mode).changes +
            .ofChanges child.content.restyle.changes := by
  simp only [report, Content.cons, Content.sanitize, Element.sanitizeAttributes, Element.tag,
    Journaled.changes_bind, Journaled.changes_pure, List.nil_append, List.append_nil]
  cases Treatment.ofElement mode (Text.lowercase child.name) child.attributes with
  | remove => rfl
  | keep inside | restyle => simp [Report.ofChanges_append]

theorem Content.report_sanitize_nodes (mode : Mode) (content : Content) :
    Report.ofChanges (content.sanitize mode).changes =
      (content.nodes.map (Node.report mode)).sum := by
  induction content with
  | empty => rfl
  | text characters after induction =>
      have counted := report_sanitize_cons mode (.text characters) after
      rw [induction] at counted
      exact counted
  | element name attributes inner after _ induction =>
      have counted := report_sanitize_cons mode (.element ⟨name, attributes, inner⟩) after
      rw [induction] at counted
      exact counted

/-- A visit leaves what is left of the child, and counts what cleaning it counts. -/
structure Element.VisitedAsKept (mode : Mode) (child : Element) : Prop where
  stays : ∀ {kept : Element}, child.kept? mode = some kept → ∀ report,
    child.visit mode report = .ok ⟨true, kept, report + Node.report mode (.element child)⟩
  goes : child.kept? mode = none → ∀ report,
    child.visit mode report = .ok ⟨false, child, report⟩ ∧
      report.add (.elementRemoved child.name mode) =
        report + Node.report mode (.element child)

namespace Node

variable {mode : Mode} {node : Node}

/-- One step of the loop: what is left of a node takes its place. -/
theorem sweepBelow_step
    (visited : ∀ child, node = .element child → child.VisitedAsKept mode)
    (front behind : List Node) (report : Report) :
    sweepBelow mode (front.length + 1) (front ++ node :: behind) report =
      sweepBelow mode front.length (front ++ ((node.kept? mode).toList ++ behind))
        (report + node.report mode) := by
  have found : (front ++ node :: behind)[front.length]? = some node := by simp
  rw [sweepBelow]
  split
  · rename_i missing
    rw [found] at missing
    cases missing
  · rename_i characters present
    rw [found] at present
    cases present
    have nothing : Node.report mode (.text characters) = 0 := rfl
    rw [nothing, add_zero]
    rfl
  · rename_i child present
    rw [found] at present
    cases present
    rw [kept?]
    cases left : child.kept? mode with
    | none =>
        obtain ⟨visit, counted⟩ := (visited child rfl).goes left report
        rw [visit, ← counted]
        show sweepBelow mode front.length ((front ++ _ :: behind).eraseIdx front.length) _ = _
        rw [List.eraseIdx_append_of_length_le (Nat.le_refl _), Nat.sub_self]
        rfl
    | some kept =>
        rw [(visited child rfl).stays left report]
        show sweepBelow mode front.length ((front ++ _ :: behind).set front.length _) _ = _
        rw [List.set_append_right _ _ (Nat.le_refl _), Nat.sub_self]
        rfl

theorem filterMap_kept?_cons (node : Node) (others : List Node) :
    (node :: others).filterMap (kept? mode) =
      (node.kept? mode).toList ++ others.filterMap (kept? mode) := by
  rw [List.filterMap_cons]
  cases node.kept? mode <;> rfl

/-- The loop invariant: what stands below the index is as it was, and what stands from the
index on is what is left of the nodes that stood there. -/
theorem sweepBelow_eq
    {front : List Node}
    (visited : ∀ child, .element child ∈ front → child.VisitedAsKept mode)
    (behind : List Node) (report : Report) :
    sweepBelow mode front.length (front ++ behind) report =
      .ok ⟨front.filterMap (kept? mode) ++ behind,
        report + (front.map (Node.report mode)).sum⟩ := by
  induction front using List.reverseRecOn generalizing behind report with
  | nil => simp [sweepBelow]
  | append_singleton front node induction =>
      have visitedFront : ∀ child, .element child ∈ front → child.VisitedAsKept mode :=
        fun child member => visited child (List.mem_append_left _ member)
      have visitedNode : ∀ child, node = .element child → child.VisitedAsKept mode := by
        rintro child rfl
        exact visited child (by simp)
      rw [List.length_append, List.append_assoc]
      show sweepBelow mode (front.length + 1) (front ++ node :: behind) report = _
      rw [sweepBelow_step visitedNode, induction visitedFront, List.filterMap_append,
        List.map_append, List.sum_append, add_assoc, List.append_assoc]
      have counted : node.report mode + (front.map (Node.report mode)).sum =
          (front.map (Node.report mode)).sum + ([node].map (Node.report mode)).sum := by
        rw [add_comm, List.map_singleton, List.sum_singleton]
      rw [counted, filterMap_kept?_cons, List.filterMap_nil, List.append_nil]

theorem pass_cons
    (visited : ∀ child, node = .element child → child.VisitedAsKept mode)
    (others : List Node) (report : Report) :
    pass mode (node :: others) report =
      (pass mode others (report + node.report mode)).map fun later =>
        { later with children := (node.kept? mode).toList ++ later.children } := by
  cases node with
  | text characters =>
      have nothing : Node.report mode (.text characters) = 0 := rfl
      rw [nothing, add_zero]
      rfl
  | element child =>
      rw [pass, kept?]
      cases left : child.kept? mode with
      | none =>
          obtain ⟨visit, counted⟩ := (visited child rfl).goes left report
          rw [visit, ← counted]
          show pass mode others _ = (pass mode others _).map id
          rw [Except.map_id]
          rfl
      | some kept =>
          rw [(visited child rfl).stays left report]
          rfl

/-- A pass in document order leaves the same nodes as the loop and counts the same. -/
theorem pass_eq
    {children : List Node}
    (visited : ∀ child, .element child ∈ children → child.VisitedAsKept mode)
    (report : Report) :
    pass mode children report =
      .ok ⟨children.filterMap (kept? mode),
        report + (children.map (Node.report mode)).sum⟩ := by
  induction children generalizing report with
  | nil => simp [pass]
  | cons node others induction =>
      have visitedOthers : ∀ child, .element child ∈ others → child.VisitedAsKept mode :=
        fun child member => visited child (List.mem_cons_of_mem node member)
      have visitedNode : ∀ child, node = .element child → child.VisitedAsKept mode := by
        rintro child rfl
        exact visited child List.mem_cons_self
      rw [pass_cons visitedNode, induction visitedOthers, List.map_cons, List.sum_cons,
        ← add_assoc, filterMap_kept?_cons]
      rfl

end Node

namespace Content

variable {mode : Mode}

theorem sweep_nodes
    {content : Content}
    (visited : ∀ child ∈ content.elements, child.VisitedAsKept mode) (report : Report) :
    Node.sweepBelow mode content.nodes.length content.nodes report =
      .ok ⟨(content.sanitize mode).value.nodes,
        report.addAll (content.sanitize mode).changes⟩ := by
  have swept := Node.sweepBelow_eq
    (fun child member => visited child (mem_elements_iff.mpr member)) [] report
  rw [List.append_nil, List.append_nil, ← nodes_sanitize, ← report_sanitize_nodes,
    ← Report.addAll_eq] at swept
  exact swept

end Content

theorem Element.visitedAsKept_of_inner
    {child : Element}
    (visited : ∀ mode, ∀ inner ∈ child.content.elements, inner.VisitedAsKept mode)
    (mode : Mode) : child.VisitedAsKept mode := by
  have counted := Node.report_element mode child
  constructor
  · intro kept left report
    rw [kept?] at left
    rw [visit]
    cases treatment : Treatment.ofElement mode child.tag child.attributes with
    | remove =>
        rw [treatment] at left
        cases left
    | keep inside =>
        rw [treatment] at left counted
        cases left
        have swept := Content.sweep_nodes (visited inside)
        simp only [swept, counted, Report.addAll_eq, add_assoc]
        simp [sanitizeAttributes, bind, Except.bind]
    | restyle =>
        rw [treatment] at left counted
        cases left
        simp only [counted, Report.addAll_eq, add_assoc]
        simp [sanitizeAttributes, Element.textContent]
  · intro goes report
    rw [kept?] at goes
    rw [visit]
    cases treatment : Treatment.ofElement mode child.tag child.attributes with
    | remove =>
        rw [treatment] at counted
        refine ⟨rfl, ?_⟩
        rw [counted]
        exact Report.addAll_eq report [.elementRemoved child.name mode]
    | keep inside | restyle =>
        rw [treatment] at goes
        cases goes

/-- Every element is visited as what is left of it, however deep it stands. -/
theorem Content.visitedAsKept (content : Content) (mode : Mode) :
    ∀ child ∈ content.elements, child.VisitedAsKept mode := by
  induction content generalizing mode with
  | empty => exact nofun
  | text characters after induction => exact induction mode
  | element name attributes inner after inside behind =>
      intro child member
      rcases List.mem_cons.mp member with rfl | later
      · exact Element.visitedAsKept_of_inner inside mode
      · exact behind mode child later

/-- Cleaning the children of an element in the list in which they stand never leaves the
list, and comes to what a pass in document order comes to.  Both leave what cleaning the
content leaves, and both count what it counts. -/
theorem Element.sweepChildren_eq_pass
    (mode : Mode) (element : Element) (report : Report) :
    ∃ swept, element.sweepChildren mode report = .ok swept ∧
      Node.pass mode element.content.nodes report = .ok swept ∧
        swept.children = (element.content.sanitize mode).value.nodes ∧
          swept.report = report.addAll (element.content.sanitize mode).changes := by
  have visited := element.content.visitedAsKept mode
  refine ⟨_, Content.sweep_nodes visited report, ?_, rfl, rfl⟩
  rw [Node.pass_eq fun child member => visited child (Content.mem_elements_iff.mpr member),
    ← Content.nodes_sanitize, ← Content.report_sanitize_nodes, ← Report.addAll_eq]

end CleanSvg
