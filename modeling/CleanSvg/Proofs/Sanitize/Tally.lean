import Mathlib.Algebra.BigOperators.Group.List.Basic
import Mathlib.Algebra.GroupWithZero.Nat
import CleanSvg.Proofs.Sanitize.Retained

/-!
# What a report counts

A report counts the journal.  Here it is compared with the trees before and
after: it is the sum of what happened at each place that was judged, and a place
is judged if its parent stayed and is no style element.  What stood inside an
element that went or inside a style element is no place of its own, so it counts
for nothing.
-/

namespace CleanSvg

namespace Report

instance : Zero Report where
  zero := zero

instance : Add Report where
  add first second :=
    ⟨first.removedElements + second.removedElements,
      first.removedAttributes + second.removedAttributes,
      first.rewrittenValues + second.rewrittenValues⟩

theorem zero_def : (0 : Report) = ⟨0, 0, 0⟩ := rfl

theorem mk_add_mk (elements attributes values elements' attributes' values' : Nat) :
    (⟨elements, attributes, values⟩ + ⟨elements', attributes', values'⟩ : Report) =
      ⟨elements + elements', attributes + attributes', values + values'⟩ := rfl

instance : AddCommMonoid Report where
  add_assoc first second third := by
    cases first; cases second; cases third
    simp only [mk_add_mk, Nat.add_assoc]
  zero_add report := by
    cases report
    simp only [zero_def, mk_add_mk, Nat.zero_add]
  add_zero report := by
    cases report
    simp only [zero_def, mk_add_mk, Nat.add_zero]
  add_comm first second := by
    cases first; cases second
    simp only [mk_add_mk, Nat.add_comm]
  nsmul := nsmulRec

theorem addAll_eq (report : Report) (changes : List Change) :
    report.addAll changes = report + ofChanges changes := by
  induction changes generalizing report with
  | nil => exact (add_zero report).symm
  | cons change changes induction =>
      show (report.add change).addAll changes = report + (zero.add change).addAll changes
      rw [induction, induction, ← add_assoc]
      cases change <;> rfl

theorem ofChanges_append (earlier later : List Change) :
    ofChanges (earlier ++ later) = ofChanges earlier + ofChanges later := by
  rw [ofChanges, addAll_append, addAll_eq]
  rfl

@[simp] theorem ofChanges_nil : ofChanges [] = 0 := rfl

end Report

/-- The attributes that stay, each as it was and as it is. -/
def Attribute.survivors (mode : Mode) (tag : Text) (attributes : List Attribute) :
    List (Attribute × Attribute) :=
  attributes.filterMap fun before => (before.kept? mode tag).map (before, ·)

/-- Whether the value of an attribute that stays changed. -/
def Attribute.isRewritten (pair : Attribute × Attribute) : Bool :=
  pair.2.value ≠ pair.1.value

/-- An element of a tree, and the mode that governs where it stands. -/
structure Place where
  mode : Mode
  element : Element

namespace Place

def kept? (place : Place) : Option Element :=
  place.element.kept? place.mode

def keptAttributes (place : Place) : List (Attribute × Attribute) :=
  Attribute.survivors place.mode place.element.tag place.element.attributes

/-- Whether the element is a style element whose content had to change: there was an element
in it, or its text was not clean. -/
def isRestyled (place : Place) : Bool :=
  place.element.tag = Names.style ∧
    (place.element.childElements ≠ [] ∨
      Style.clean place.element.textContent ≠ place.element.textContent)

/-- What a report says of a single place. -/
def report (place : Place) : Report :=
  match place.kept? with
  | none => ⟨1, 0, 0⟩
  | some kept =>
      ⟨0, place.element.attributes.length - kept.attributes.length,
        place.keptAttributes.countP Attribute.isRewritten +
          if place.isRestyled then 1 else 0⟩

end Place

/-- An element that stays: where it stood, and what is left of it. -/
structure Survivor where
  before : Place
  after : Element

/-- The elements that stay at given places. -/
def Place.survivors (places : List Place) : List Survivor :=
  places.filterMap fun place => place.kept?.map (Survivor.mk place)

instance Mode.decidableKeeps (mode : Mode) (tag : Text) (attributes : List Attribute) :
    Decidable (mode.Keeps tag attributes) :=
  decidable_of_iff _ Treatment.ofElement_ne_remove_iff

namespace Content

/-- The places in content at which an element is judged: its own elements, and what stands
inside those that stay and are no style elements. -/
def places (mode : Mode) : Content → List Place
  | .empty => []
  | .text _ after => after.places mode
  | .element name attributes inner after =>
      let tag := Text.lowercase name
      let within :=
        if mode.Keeps tag attributes ∧ tag ≠ Names.style then inner.places (mode.below tag)
        else []
      ⟨mode, ⟨name, attributes, inner⟩⟩ :: (within ++ after.places mode)

/-- The elements of content and of everything inside them, in document order. -/
def descendants : Content → List Element
  | .empty => []
  | .text _ after => after.descendants
  | .element name attributes inner after =>
      ⟨name, attributes, inner⟩ :: (inner.descendants ++ after.descendants)

end Content

namespace Element

def places (root : Element) : List Place :=
  ⟨.vectorGraphics, root⟩ :: root.content.places .vectorGraphics

def family (root : Element) : List Element :=
  root :: root.content.descendants

def survivors (root : Element) : List Survivor :=
  Place.survivors root.places

end Element

namespace Style

theorem report_cleanNoting (css : Text) :
    Report.ofChanges (cleanNoting css).changes = 0 := by
  unfold cleanNoting
  split <;> rfl

end Style

namespace Attribute

theorem report_sanitize (mode : Mode) (tag : Text) (before : Attribute) :
    Report.ofChanges (before.sanitize mode tag).changes =
      match before.kept? mode tag with
      | none => ⟨0, 1, 0⟩
      | some after => ⟨0, 0, if isRewritten (before, after) then 1 else 0⟩ := by
  unfold sanitize kept?
  cases AttributeClass.classify mode before.name before.value with
  | eventHandler | disallowed => rfl
  | dataOrAria | knownAllowed => simp [isRewritten, Report.zero_def]
  | uri =>
      cases Link.isAllowed mode tag before.value with
      | true => simp [isRewritten, Report.zero_def]
      | false => rfl
  | style | urlBearingPresentation =>
      simp only [Journaled.changes_bind, Report.ofChanges_append, Style.report_cleanNoting,
        Style.value_cleanNoting, zero_add, isRewritten]
      by_cases unchanged : Style.clean before.value = before.value
      · simp [unchanged, Report.zero_def]
      · simp only [unchanged, ne_eq, not_false_eq_true, decide_true, if_true, if_false]
        rfl

theorem map_snd_survivors (mode : Mode) (tag : Text) (attributes : List Attribute) :
    (survivors mode tag attributes).map Prod.snd = attributes.filterMap (kept? mode tag) := by
  rw [survivors, List.map_filterMap]
  simp [Function.comp_def]

theorem report_sanitizeAll (mode : Mode) (tag : Text) (attributes : List Attribute) :
    Report.ofChanges (sanitizeAll mode tag attributes).changes =
      ⟨0, attributes.length - (survivors mode tag attributes).length,
        (survivors mode tag attributes).countP isRewritten⟩ := by
  induction attributes with
  | nil => rfl
  | cons before others induction =>
      have fewer : (survivors mode tag others).length ≤ others.length :=
        List.length_filterMap_le _ others
      simp only [sanitizeAll, Journaled.changes_bind, Journaled.changes_pure,
        List.append_nil, Report.ofChanges_append, report_sanitize, induction]
      cases left : before.kept? mode tag with
      | none =>
          have same : survivors mode tag (before :: others) = survivors mode tag others := by
            simp [survivors, left]
          simp only [same, Report.mk_add_mk, List.length_cons, Report.mk.injEq]
          exact ⟨trivial, by omega, Nat.zero_add _⟩
      | some after =>
          have longer : survivors mode tag (before :: others) =
              (before, after) :: survivors mode tag others := by
            simp [survivors, left]
          simp only [longer, Report.mk_add_mk, List.length_cons, List.countP_cons,
            Report.mk.injEq]
          exact ⟨trivial, by omega, Nat.add_comm _ _⟩

end Attribute

namespace Content

theorem report_restyle (inner : Content) :
    Report.ofChanges inner.restyle.changes =
      ⟨0, 0, if inner.elements ≠ [] ∨ Style.clean inner.textContent ≠ inner.textContent then 1
        else 0⟩ := by
  simp only [restyle, Journaled.changes_bind, Report.ofChanges_append,
    Style.report_cleanNoting, Style.value_cleanNoting, zero_add, List.isEmpty_iff]
  by_cases settled : Style.clean inner.textContent = inner.textContent ∧ inner.elements = []
  · simp [settled, Report.zero_def]
  · rw [if_neg settled, if_pos (by tauto)]
    rfl

end Content

namespace Place

variable {mode : Mode} {name : Text} {attributes : List Attribute}

theorem kept?_of_keep (inner : Content)
    (stays : mode.Keeps (Text.lowercase name) attributes)
    (noStyle : Text.lowercase name ≠ Names.style) :
    kept? ⟨mode, ⟨name, attributes, inner⟩⟩ =
      some ⟨name, attributes.filterMap (Attribute.kept? mode (Text.lowercase name)),
        (inner.sanitize (mode.below (Text.lowercase name))).value⟩ := by
  simp [kept?, Element.kept?, Element.tag, Treatment.ofElement_eq_keep stays noStyle]

theorem kept?_of_restyle (inner : Content)
    (stays : mode.Keeps (Text.lowercase name) attributes)
    (isStyle : Text.lowercase name = Names.style) :
    kept? ⟨mode, ⟨name, attributes, inner⟩⟩ =
      some ⟨name, attributes.filterMap (Attribute.kept? mode (Text.lowercase name)),
        .ofText (Style.clean inner.textContent)⟩ := by
  simp [kept?, Element.kept?, Element.tag, Element.textContent,
    Treatment.ofElement_eq_restyle stays isStyle]

theorem kept?_of_remove (inner : Content)
    (goes : ¬ mode.Keeps (Text.lowercase name) attributes) :
    kept? ⟨mode, ⟨name, attributes, inner⟩⟩ = none := by
  simp [kept?, Element.kept?, Element.tag, Treatment.ofElement_eq_remove goes]

theorem report_of_keep (inner : Content)
    (stays : mode.Keeps (Text.lowercase name) attributes)
    (noStyle : Text.lowercase name ≠ Names.style) :
    report ⟨mode, ⟨name, attributes, inner⟩⟩ =
      Report.ofChanges
        (Attribute.sanitizeAll mode (Text.lowercase name) attributes).changes := by
  rw [Attribute.report_sanitizeAll, report, kept?_of_keep inner stays noStyle]
  simp [isRestyled, Element.tag, noStyle, keptAttributes, ← Attribute.map_snd_survivors]

theorem report_of_restyle (inner : Content)
    (stays : mode.Keeps (Text.lowercase name) attributes)
    (isStyle : Text.lowercase name = Names.style) :
    report ⟨mode, ⟨name, attributes, inner⟩⟩ =
      Report.ofChanges
          (Attribute.sanitizeAll mode (Text.lowercase name) attributes).changes +
        Report.ofChanges inner.restyle.changes := by
  rw [Attribute.report_sanitizeAll, Content.report_restyle, Report.mk_add_mk, report,
    kept?_of_restyle inner stays isStyle]
  simp [isRestyled, Element.tag, isStyle, Element.childElements, Element.textContent,
    keptAttributes, ← Attribute.map_snd_survivors]

theorem report_of_remove (inner : Content)
    (goes : ¬ mode.Keeps (Text.lowercase name) attributes) :
    report ⟨mode, ⟨name, attributes, inner⟩⟩ = ⟨1, 0, 0⟩ := by
  rw [report, kept?_of_remove inner goes]

end Place

namespace Content

variable {mode : Mode} {name : Text} {attributes : List Attribute}

theorem places_of_keep (inner after : Content)
    (stays : mode.Keeps (Text.lowercase name) attributes)
    (noStyle : Text.lowercase name ≠ Names.style) :
    places mode (.element name attributes inner after) =
      ⟨mode, ⟨name, attributes, inner⟩⟩ ::
        (inner.places (mode.below (Text.lowercase name)) ++ after.places mode) := by
  simp [places, stays, noStyle]

theorem places_of_closed (inner after : Content)
    (closed : ¬ (mode.Keeps (Text.lowercase name) attributes ∧
      Text.lowercase name ≠ Names.style)) :
    places mode (.element name attributes inner after) =
      ⟨mode, ⟨name, attributes, inner⟩⟩ :: after.places mode := by
  simp only [places, if_neg closed, List.nil_append]

theorem report_sanitize_keep (inner after : Content)
    (stays : mode.Keeps (Text.lowercase name) attributes)
    (noStyle : Text.lowercase name ≠ Names.style) :
    Report.ofChanges (sanitize mode (.element name attributes inner after)).changes =
      Report.ofChanges (Attribute.sanitizeAll mode (Text.lowercase name) attributes).changes +
        Report.ofChanges (inner.sanitize (mode.below (Text.lowercase name))).changes +
          Report.ofChanges (after.sanitize mode).changes := by
  -- what comes after is cleaned first, so the sums are added the other way round
  rw [add_comm]
  simp [sanitize, Treatment.ofElement_eq_keep stays noStyle, Report.ofChanges_append]

theorem report_sanitize_style (inner after : Content)
    (stays : mode.Keeps (Text.lowercase name) attributes)
    (isStyle : Text.lowercase name = Names.style) :
    Report.ofChanges (sanitize mode (.element name attributes inner after)).changes =
      Report.ofChanges (Attribute.sanitizeAll mode (Text.lowercase name) attributes).changes +
        Report.ofChanges inner.restyle.changes +
          Report.ofChanges (after.sanitize mode).changes := by
  rw [add_comm]
  simp [sanitize, Treatment.ofElement_eq_restyle stays isStyle, Report.ofChanges_append]

theorem report_sanitize_remove (inner after : Content)
    (goes : ¬ mode.Keeps (Text.lowercase name) attributes) :
    Report.ofChanges (sanitize mode (.element name attributes inner after)).changes =
      ⟨1, 0, 0⟩ + Report.ofChanges (after.sanitize mode).changes := by
  rw [add_comm]
  simp [sanitize, Treatment.ofElement_eq_remove goes, Report.ofChanges_append]
  rfl

/-- What is counted for content is what happened at its places. -/
theorem report_sanitize (mode : Mode) (content : Content) :
    Report.ofChanges (content.sanitize mode).changes =
      ((content.places mode).map Place.report).sum := by
  induction content generalizing mode with
  | empty => rfl
  | text characters after induction =>
      simpa [sanitize, places] using induction mode
  | element name attributes inner after within behind =>
      by_cases stays : mode.Keeps (Text.lowercase name) attributes
      · by_cases isStyle : Text.lowercase name = Names.style
        · rw [places_of_closed inner after (fun opened => opened.2 isStyle), List.map_cons,
            List.sum_cons, Place.report_of_restyle inner stays isStyle, ← behind,
            report_sanitize_style inner after stays isStyle]
        · rw [places_of_keep inner after stays isStyle, List.map_cons, List.sum_cons,
            Place.report_of_keep inner stays isStyle, List.map_append, List.sum_append,
            ← within, ← behind, ← add_assoc, report_sanitize_keep inner after stays isStyle]
      · rw [places_of_closed inner after (fun opened => stays opened.1), List.map_cons,
          List.sum_cons, Place.report_of_remove inner stays, ← behind,
          report_sanitize_remove inner after stays]

theorem descendants_ofText (characters : Text) : (ofText characters).descendants = [] := by
  cases characters <;> rfl

/-- The elements that are left are what is left at the places, in the same order. -/
theorem descendants_sanitize (mode : Mode) (content : Content) :
    (content.sanitize mode).value.descendants =
      (content.places mode).filterMap Place.kept? := by
  induction content generalizing mode with
  | empty => rfl
  | text characters after induction =>
      simpa [sanitize, places, descendants] using induction mode
  | element name attributes inner after within behind =>
      by_cases stays : mode.Keeps (Text.lowercase name) attributes
      · by_cases isStyle : Text.lowercase name = Names.style
        · rw [places_of_closed inner after (fun opened => opened.2 isStyle),
            List.filterMap_cons, Place.kept?_of_restyle inner stays isStyle, ← behind,
            value_sanitize_style inner after stays isStyle, descendants, descendants_ofText,
            List.nil_append]
        · rw [places_of_keep inner after stays isStyle, List.filterMap_cons,
            Place.kept?_of_keep inner stays isStyle, List.filterMap_append, ← within,
            ← behind, value_sanitize_keep inner after stays isStyle, descendants]
      · rw [places_of_closed inner after (fun opened => stays opened.1),
          List.filterMap_cons, Place.kept?_of_remove inner stays, ← behind,
          value_sanitize_remove inner after stays]

end Content

namespace Place

theorem map_after_survivors (places : List Place) :
    (survivors places).map Survivor.after = places.filterMap kept? := by
  rw [survivors, List.map_filterMap]
  simp [Function.comp_def]

theorem kept?_of_mem_survivors
    {places : List Place} {survivor : Survivor} (member : survivor ∈ survivors places) :
    survivor.before.kept? = some survivor.after := by
  obtain ⟨place, _, found⟩ := List.mem_filterMap.mp member
  obtain ⟨after, left, rfl⟩ := Option.map_eq_some_iff.mp found
  exact left

/-- What is counted at single places adds up to what a report counts. -/
theorem sum_report (places : List Place) :
    (places.map report).sum =
      ⟨places.countP fun place => place.kept?.isNone,
        ((survivors places).map fun survivor =>
          survivor.before.element.attributes.length - survivor.after.attributes.length).sum,
        ((survivors places).map fun survivor =>
            survivor.before.keptAttributes.countP Attribute.isRewritten).sum +
          (survivors places).countP fun survivor => survivor.before.isRestyled⟩ := by
  induction places with
  | nil => rfl
  | cons place places induction =>
      rw [List.map_cons, List.sum_cons, induction, report]
      cases left : place.kept? with
      | none =>
          have same : survivors (place :: places) = survivors places := by
            simp [survivors, left]
          simp [same, left, Report.mk_add_mk, Nat.add_comm]
      | some after =>
          have longer : survivors (place :: places) = ⟨place, after⟩ :: survivors places := by
            simp [survivors, left]
          simp only [longer, List.countP_cons, left, Report.mk_add_mk, List.map_cons,
            List.sum_cons, Option.isNone_some, Report.mk.injEq]
          exact ⟨Nat.add_comm _ _, trivial, by ac_rfl⟩

end Place

namespace Element

/-- The report of an accepted tree counts exactly the differences between the tree before
and the tree after. -/
theorem report_sanitizeTree
    {root : Element} {report : Report} (accepted : root.sanitizeTree.verdict = .ok report) :
    root.sanitizeTree.root.family = root.survivors.map Survivor.after ∧
      (∀ survivor ∈ root.survivors,
        survivor.after.name = survivor.before.element.name ∧
          survivor.after.attributes = survivor.before.keptAttributes.map Prod.snd) ∧
      report.removedElements = root.places.countP (fun place => place.kept?.isNone) ∧
      report.removedAttributes =
        (root.survivors.map fun survivor =>
          survivor.before.element.attributes.length - survivor.after.attributes.length).sum ∧
      report.rewrittenValues =
        (root.survivors.map fun survivor =>
            survivor.before.keptAttributes.countP Attribute.isRewritten).sum +
          root.survivors.countP fun survivor => survivor.before.isRestyled := by
  obtain ⟨isRoot, _, counted⟩ := verdict_sanitizeTree_eq_ok_iff.mp accepted
  have stays : Mode.vectorGraphics.Keeps root.tag root.attributes := by
    rw [isRoot]
    exact Or.inr (Or.inr ⟨by decide, fun animated => absurd animated.1 (by decide)⟩)
  have noStyle : root.tag ≠ Names.style := by
    rw [isRoot]
    decide
  have total : report = (root.places.map Place.report).sum := by
    rw [counted, places, List.map_cons, List.sum_cons, ← Content.report_sanitize]
    have own := Place.report_of_keep root.content stays noStyle
    rw [own]
    simp [sanitize, sanitizeAttributes, Report.ofChanges_append, tag]
  rw [Place.sum_report] at total
  subst total
  refine ⟨?_, ?_, rfl, rfl, rfl⟩
  · rw [survivors, Place.map_after_survivors, root_sanitizeTree isRoot, family, places,
      List.filterMap_cons, Place.kept?, Element.kept?_root isRoot, content_sanitize,
      Content.descendants_sanitize]
  · intro survivor member
    have left := Place.kept?_of_mem_survivors member
    rw [Place.keptAttributes, Attribute.map_snd_survivors]
    exact kept?_eq_some left

end Element

/-- A graphic with changes inside what goes, inside a style element and at other places. -/
def alteredTree : Element :=
  ⟨"svg", [⟨"onload", "f()"⟩],
    .element "style" [⟨"onclick", "f()"⟩] (.element "b" [⟨"onclick", "f()"⟩] .empty .empty)
      (.element "script" [⟨"href", "x"⟩] (.element "g" [⟨"onclick", "f()"⟩] .empty .empty)
        (.element "g" [] (.element "script" [] .empty
          (.element "rect" [⟨"style", "a\\62"⟩, ⟨"width", "1"⟩] .empty .empty)) .empty))⟩

theorem alteredTree_report :
    alteredTree.sanitizeTree.verdict = .ok ⟨2, 2, 2⟩ ∧
      alteredTree.sanitizeTree.root.family = alteredTree.survivors.map Survivor.after ∧
      alteredTree.places.countP (fun place => place.kept?.isNone) = 2 ∧
      (alteredTree.survivors.map fun survivor =>
        survivor.before.element.attributes.length - survivor.after.attributes.length).sum = 2 ∧
      (alteredTree.survivors.map fun survivor =>
          survivor.before.keptAttributes.countP Attribute.isRewritten).sum +
        alteredTree.survivors.countP (fun survivor => survivor.before.isRestyled) = 2 := by
  have accepted : alteredTree.sanitizeTree.verdict = .ok ⟨2, 2, 2⟩ := by decide +kernel
  obtain ⟨family, _, elements, attributes, values⟩ := Element.report_sanitizeTree accepted
  exact ⟨accepted, family, elements.symm, attributes.symm, values.symm⟩

end CleanSvg
