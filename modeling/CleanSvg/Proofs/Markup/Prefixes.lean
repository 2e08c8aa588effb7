import Mathlib.Control.Monad.Basic
import CleanSvg.Proofs.Markup.Consumption

/-!
# Documents and their beginnings

What a reader meets before the root element is complete does not depend on what
comes after the root, and once the root is complete nothing can change it.  Hence a
document that was cut off before the end of its root is refused, and whatever is
added to a document that is accepted leaves its tree as it is.
-/

namespace CleanSvg

namespace Builder

/-- The root element is complete after an event that a reader still meets, and `trail` is
what is left behind this event. -/
inductive Completes (root : Element) (trail : Text) : Builder → Reader → Prop
  | now {builder : Builder} {reader after : Reader} {event : Event}
      (read : reader.next? = .ok (some (event, after)))
      (stepped : builder.step event = .ok ⟨[], some root⟩)
      (left : after.ahead = trail) : Completes root trail builder reader
  | later {builder next : Builder} {reader after : Reader} {event : Event}
      (read : reader.next? = .ok (some (event, after)))
      (stepped : builder.step event = .ok next) (rootless : next.root = none)
      (completes : Completes root trail next after) : Completes root trail builder reader

variable {builder next : Builder} {event : Event} {root whole : Element}

theorem attach_of_rootless
    {element : Element} (rootless : builder.root = none)
    (attached : builder.attach element = .ok next) :
    next.root = none ∨ next = ⟨[], some element⟩ := by
  obtain ⟨opened, complete⟩ := builder
  cases rootless
  cases opened with
  | nil =>
      cases attached
      exact Or.inr rfl
  | cons parent outer =>
      cases attached
      exact Or.inl rfl

theorem attachText_root
    {characters : Text} (attached : builder.attachText characters = .ok next) :
    next.root = builder.root := by
  unfold attachText at attached
  split at attached
  · cases attached
    rfl
  · split at attached
    · cases attached
      rfl
    · cases attached

theorem openElement_root
    {inside : Text} (opens : builder.openElement inside = .ok next) :
    next.root = builder.root := by
  unfold openElement at opens
  split at opens
  · cases opens
  · obtain ⟨_, _, same⟩ := bind_eq_ok_iff.mp opens
    cases same
    rfl

theorem step_of_rootless
    (rootless : builder.root = none) (stepped : builder.step event = .ok next) :
    next.root = none ∨ ∃ root, next = ⟨[], some root⟩ ∧ event.Closes := by
  cases event with
  | startTag inside =>
      exact Or.inl ((openElement_root stepped).trans rootless)
  | emptyTag inside =>
      obtain ⟨element, _, attached⟩ := bind_eq_ok_iff.mp stepped
      rcases attach_of_rootless rootless attached with still | complete
      · exact Or.inl still
      · exact Or.inr ⟨_, complete, trivial⟩
  | endTag name =>
      obtain ⟨_ | ⟨innermost, outer⟩, complete⟩ := builder
      · cases stepped
      · have attached : attach ⟨outer, complete⟩ innermost.finish = .ok next := stepped
        have outerRootless : Builder.root ⟨outer, complete⟩ = none := rootless
        rcases attach_of_rootless outerRootless attached with still | complete
        · exact Or.inl still
        · exact Or.inr ⟨_, complete, trivial⟩
  | text written =>
      obtain ⟨characters, _, attached⟩ := bind_eq_ok_iff.mp stepped
      exact Or.inl ((attachText_root attached).trans rootless)
  | characterData characters =>
      exact Or.inl ((attachText_root stepped).trans rootless)
  | passedOver =>
      cases stepped
      exact Or.inl rootless

theorem attachText_of_complete
    {characters : Text} (attached : attachText ⟨[], some root⟩ characters = .ok next) :
    next = ⟨[], some root⟩ := by
  unfold attachText at attached
  simp only at attached
  split at attached
  · cases attached
    rfl
  · cases attached

/-- Where the root is complete, an event is passed over or refused. -/
theorem step_of_complete (stepped : step ⟨[], some root⟩ event = .ok next) :
    next = ⟨[], some root⟩ := by
  cases event with
  | startTag inside => cases stepped
  | emptyTag inside =>
      obtain ⟨_, _, attached⟩ := bind_eq_ok_iff.mp stepped
      cases attached
  | endTag name => cases stepped
  | text written =>
      obtain ⟨characters, _, attached⟩ := bind_eq_ok_iff.mp stepped
      exact attachText_of_complete attached
  | characterData characters => exact attachText_of_complete stepped
  | passedOver =>
      cases stepped
      rfl

variable {reader : Reader} {trail : Text}

theorem run_of_complete (parsed : run ⟨[], some root⟩ reader = .ok whole) : whole = root := by
  generalize complete : (⟨[], some root⟩ : Builder) = builder at parsed
  induction builder, reader using Builder.run.induct with
  | case1 builder reader cause read =>
      rw [run_of_error read] at parsed
      cases parsed
  | case2 builder reader read =>
      rw [run_of_end read, ← complete] at parsed
      cases parsed
      rfl
  | case3 builder reader event after read induction =>
      rw [run_of_event read] at parsed
      obtain ⟨next, stepped, parsed⟩ := bind_eq_ok_iff.mp parsed
      rw [← complete] at stepped
      exact induction next (step_of_complete stepped).symm parsed

theorem completes_of_run
    (rootless : builder.root = none) (parsed : builder.run reader = .ok root) :
    ∃ trail, Completes root trail builder reader := by
  induction builder, reader using Builder.run.induct with
  | case1 builder reader cause read =>
      rw [run_of_error read] at parsed
      cases parsed
  | case2 builder reader read =>
      rw [run_of_end read] at parsed
      obtain ⟨_ | ⟨innermost, outer⟩, complete⟩ := builder
      · cases rootless
        cases parsed
      · cases parsed
  | case3 builder reader event after read induction =>
      rw [run_of_event read] at parsed
      obtain ⟨next, stepped, parsed⟩ := bind_eq_ok_iff.mp parsed
      rcases step_of_rootless rootless stepped with still | ⟨complete, rfl, _⟩
      · obtain ⟨trail, completes⟩ := induction next still parsed
        exact ⟨trail, .later read stepped still completes⟩
      · cases run_of_complete parsed
        exact ⟨after.ahead, .now read stepped rfl⟩

namespace Completes

theorem unique
    {other : Element} {rest : Text} (completes : Completes root trail builder reader)
    (again : Completes other rest builder reader) : other = root ∧ rest = trail := by
  induction completes with
  | now read stepped left =>
      cases again with
      | now readAgain steppedAgain leftAgain =>
          cases read.symm.trans readAgain
          cases stepped.symm.trans steppedAgain
          exact ⟨rfl, leftAgain.symm.trans left⟩
      | later readAgain steppedAgain rootless =>
          cases read.symm.trans readAgain
          cases stepped.symm.trans steppedAgain
          cases rootless
  | later read stepped rootless _ induction =>
      cases again with
      | now readAgain steppedAgain =>
          cases read.symm.trans readAgain
          cases stepped.symm.trans steppedAgain
          cases rootless
      | later readAgain steppedAgain _ again =>
          cases read.symm.trans readAgain
          cases stepped.symm.trans steppedAgain
          exact induction again

/-- The markup that completes the root completes it whatever comes after. -/
theorem markup
    (rootless : builder.root = none) (completes : Completes root trail builder reader) :
    ∃ markup, markup ≠ [] ∧ reader.ahead = markup ++ trail ∧
      ∀ other, Completes root other builder ⟨markup ++ other, reader.opened⟩ := by
  induction completes with
  | now read stepped left =>
      obtain ⟨_, taken, nonempty, split, reads⟩ := Reader.next?_consumes read
      rcases step_of_rootless rootless stepped with still | ⟨_, _, closes⟩
      · cases still
      · refine ⟨taken, nonempty, by rw [split, left], ?_⟩
        intro other
        exact .now (reads other fun isRun => absurd isRun closes.not_isRun) stepped rfl
  | later read stepped still completes induction =>
      obtain ⟨fits, taken, nonempty, split, reads⟩ := Reader.next?_consumes read
      obtain ⟨markup, inhabited, begins, goesOn⟩ := induction still
      rw [begins] at fits
      refine ⟨taken ++ markup, by simp [nonempty], ?_, ?_⟩
      · rw [split, begins, List.append_assoc]
      · intro other
        rw [List.append_assoc]
        exact .later (reads _ (fits.of_append inhabited other)) stepped still (goesOn other)

theorem bracket
    (rootless : builder.root = none) (completes : Completes root trail builder reader) :
    ∃ markup, reader.ahead = markup ++ '>' :: trail := by
  induction completes with
  | now read stepped left =>
      rcases step_of_rootless rootless stepped with still | ⟨_, _, closes⟩
      · cases still
      · rw [← left]
        exact Reader.next?_bracket read closes
  | later read stepped still completes induction =>
      obtain ⟨_, taken, _, split, _⟩ := Reader.next?_consumes read
      obtain ⟨markup, begins⟩ := induction still
      exact ⟨taken ++ markup, by rw [split, begins, List.append_assoc]⟩

theorem run_eq (completes : Completes root trail builder reader) :
    ∃ opened, builder.run reader = run ⟨[], some root⟩ ⟨trail, opened⟩ := by
  induction completes with
  | @now builder reader after event read stepped left =>
      refine ⟨after.opened, ?_⟩
      rw [run_of_step read stepped, ← left]
  | later read stepped rootless _ induction =>
      obtain ⟨opened, ran⟩ := induction
      exact ⟨opened, (run_of_step read stepped).trans ran⟩

end Completes

end Builder

namespace Reader

theorem ofText_suffix (text : Text) : (ofText text).ahead <:+ text := by
  unfold ofText
  split
  · exact List.suffix_cons _ _
  · exact List.suffix_refl _

theorem ofText_append {text : Text} (nonempty : text ≠ []) (rest : Text) :
    ofText (text ++ rest) = ⟨(ofText text).ahead ++ rest, (ofText text).opened⟩ := by
  obtain ⟨first, others, rfl⟩ := List.exists_cons_of_ne_nil nonempty
  by_cases mark : first = '\uFEFF'
  · rw [mark]
    rfl
  · simp [ofText, mark]

end Reader

namespace Element

/-- Reading a text completes the root element, and `trail` comes after its markup. -/
def RootEnds (text : Text) (root : Element) (trail : Text) : Prop :=
  Builder.start.Completes root trail (Reader.ofText text)

variable {text front rest trail : Text} {root part whole : Element}

theorem exists_rootEnds (parsed : parse text = .ok root) : ∃ trail, RootEnds text root trail :=
  Builder.completes_of_run rfl parsed

namespace RootEnds

theorem unique
    {other : Element} {left : Text} (ends : RootEnds text root trail)
    (again : RootEnds text other left) : other = root ∧ left = trail :=
  Builder.Completes.unique ends again

theorem bracket (ends : RootEnds text root trail) :
    ∃ markup, text = markup ++ '>' :: trail := by
  obtain ⟨markup, begins⟩ := Builder.Completes.bracket rfl ends
  obtain ⟨mark, split⟩ := Reader.ofText_suffix text
  exact ⟨mark ++ markup, by rw [← split, begins, List.append_assoc]⟩

theorem append (ends : RootEnds front root trail) (rest : Text) :
    RootEnds (front ++ rest) root (trail ++ rest) := by
  obtain ⟨markup, inhabited, begins, completes⟩ := Builder.Completes.markup rfl ends
  have nonempty : front ≠ [] := by
    rintro rfl
    exact inhabited (List.append_eq_nil_iff.mp begins.symm).1
  rw [RootEnds, Reader.ofText_append nonempty, begins, List.append_assoc]
  exact completes (trail ++ rest)

/-- Nothing but the markup of the root is needed. -/
theorem parse_of_append (ends : RootEnds (front ++ rest) root rest) :
    parse front = .ok root := by
  obtain ⟨markup, inhabited, begins, completes⟩ := Builder.Completes.markup rfl ends
  have nonempty : front ≠ [] := by
    rintro rfl
    have shorter := (Reader.ofText_suffix ([] ++ rest)).length_le
    have positive := List.length_pos_iff.mpr inhabited
    rw [begins, List.length_append, List.nil_append] at shorter
    omega
  rw [Reader.ofText_append nonempty] at begins completes
  have whole : (Reader.ofText front).ahead = markup := List.append_cancel_right begins
  obtain ⟨opened, ran⟩ := (completes []).run_eq
  rw [List.append_nil, ← whole] at ran
  exact ran.trans (Builder.run_of_end rfl)

end RootEnds

/-- What is accepted before more is added is the tree that is accepted with it. -/
theorem rootEnds_append_of_parse
    (parsed : parse front = .ok part) (ends : RootEnds (front ++ rest) whole trail) :
    part = whole ∧ ∃ left, left ++ rest = trail := by
  obtain ⟨left, endsFront⟩ := exists_rootEnds parsed
  obtain ⟨same, split⟩ := ends.unique (endsFront.append rest)
  exact ⟨same, left, split⟩

/-- What becomes of the beginning `front` of a text whose tree is `whole`, when `rest` is cut
off and `trail` is what comes after the root. -/
structure Cut (front rest : Text) (whole : Element) (trail : Text) : Prop where
  bracket : ∃ markup, front ++ rest = markup ++ '>' :: trail
  ends : ∀ root left, RootEnds (front ++ rest) root left ↔ root = whole ∧ left = trail
  refused : trail.length < rest.length → ∃ cause, parse front = .error cause
  accepted : trail = rest → parse front = .ok whole
  same : ∀ part, parse front = .ok part → part = whole

/-- The root of an accepted text ends in one place.  A beginning of the text that ends before
that place is refused, one that ends there is accepted, and any that is accepted has the
tree of the whole text. -/
theorem parse_append (parsed : parse (front ++ rest) = .ok whole) :
    ∃ trail, Cut front rest whole trail := by
  obtain ⟨trail, ends⟩ := exists_rootEnds parsed
  refine ⟨trail, ends.bracket, ?ends, ?refused, ?accepted, ?same⟩
  case ends =>
    intro root left
    constructor
    · exact ends.unique
    · rintro ⟨rfl, rfl⟩
      exact ends
  case refused =>
    intro early
    cases result : parse front with
    | error cause => exact ⟨cause, rfl⟩
    | ok part =>
        obtain ⟨_, left, split⟩ := rootEnds_append_of_parse result ends
        rw [← split, List.length_append] at early
        omega
  case accepted =>
    rintro rfl
    exact ends.parse_of_append
  case same =>
    intro part result
    exact (rootEnds_append_of_parse result ends).1

/-- A document up to the end tag of its root, and what comes after that. -/
def cutFront : Text :=
  "\uFEFF<!--<svg>--><svg a='>'>x<g/></svg"

def cutRest : Text :=
  ">\n<?end?>"

theorem cutFront_refused :
    (∃ whole, parse (cutFront ++ cutRest) = .ok whole ∧
        ∃ trail, Cut cutFront cutRest whole trail) ∧
      parse cutFront = .error (.malformedMarkup .unclosedTag) := by
  have parsed : parse (cutFront ++ cutRest) =
      .ok ⟨"svg", [⟨"a", ">"⟩], .text "x" (.element "g" [] .empty .empty)⟩ := by
    decide +kernel
  exact ⟨⟨_, parsed, parse_append parsed⟩, by decide +kernel⟩

end Element

end CleanSvg
