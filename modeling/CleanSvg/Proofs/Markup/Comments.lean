import Mathlib.Logic.Relation
import CleanSvg.Proofs.Markup.Prefixes
import CleanSvg.Proofs.Markup.References
import CleanSvg.Proofs.Markup.SplitTexts
import CleanSvg.Proofs.Pattern.Reading

/-!
# Comments between other markup

A comment is an event of its own that is passed over.  Where it is put between two
events, the reader meets the same events as without it.  Where it is put inside a
run of text, the reader meets two runs, and unless the comment cuts a reference in
two they are read as the parts of the text.
-/

namespace CleanSvg

def commentMarkup (body : Text) : Text :=
  "<!--".toList ++ body ++ "-->".toList

namespace Reader

/-- A reader meets an event, and another one is left after it. -/
def Moves (reader after : Reader) : Prop :=
  ∃ event, reader.next? = .ok (some (event, after))

theorem ofText_of_noMark {text : Text} (noMark : text.head? ≠ some '\uFEFF') :
    ofText text = ⟨text, []⟩ := by
  unfold ofText
  split
  · exact absurd rfl noMark
  · rfl

theorem exists_run (text : Text) :
    ∃ run behind, text = run ++ behind ∧ (∀ letter ∈ run, letter ≠ '<') ∧
      (behind = [] ∨ ∃ markup, behind = '<' :: markup) :=
  ⟨text.takeWhile (· != '<'), text.dropWhile (· != '<'),
    List.takeWhile_append_dropWhile.symm, Text.ne_of_mem_takeWhile '<' text, dropWhile_fits text⟩

theorem read_commentEnd
    {body : Text} (notClosed : ¬ "-->".toList <:+: body) (rest : Text) :
    (through "-->").read (body ++ ("-->".toList ++ rest)) =
      some ⟨body, body ++ "-->".toList, rest⟩ := by
  have stops : (Pattern.literal "-->").read ("-->".toList ++ rest) =
      some ⟨(), "-->".toList, rest⟩ :=
    Pattern.read_literal_eq_some_iff.mpr ⟨rest, rfl, rfl⟩
  refine Pattern.read_through_of_first (fun inner inside nonempty => ?_) stops
  refine Pattern.read_literal_eq_none_iff.mpr fun begins => ?_
  match inner, nonempty with
  | [first], _ => simp at begins
  | [first, second], _ => simp at begins
  | first :: second :: third :: others, _ =>
      obtain ⟨rfl, rfl, rfl⟩ : '-' = first ∧ '-' = second ∧ '>' = third := by
        simpa using begins
      exact notClosed (List.IsInfix.trans ⟨[], others, rfl⟩ inside.isInfix)

theorem next?_comment
    {body : Text} (notClosed : ¬ "-->".toList <:+: body) (rest : Text) (opened : List Text) :
    next? ⟨commentMarkup body ++ rest, opened⟩ = .ok (some (.passedOver, ⟨rest, opened⟩)) := by
  have closed := read_commentEnd notClosed rest
  have begun : commentMarkup body ++ rest =
      '<' :: '!' :: '-' :: '-' :: (body ++ ("-->".toList ++ rest)) := by
    simp [commentMarkup]
  rw [begun]
  simp only [next?, readMarkup, readBang, comment, close, closed]
  rfl

end Reader

namespace Builder

variable {builder : Builder} {reader after : Reader} {root : Element}

/-- What is met on the way to a place does not depend on what comes behind the place, as long as
a run of text that ends there still does. -/
theorem run_of_reaches
    (reaches : Relation.ReflTransGen Reader.Moves reader after)
    (parsed : builder.run reader = .ok root) :
    ∃ taken next, reader.ahead = taken ++ after.ahead ∧ run next after = .ok root ∧
      ∀ other, (∀ event : Event, event.Fits after.ahead → event.Fits other) →
        builder.run ⟨taken ++ other, reader.opened⟩ = next.run ⟨other, after.opened⟩ := by
  induction reaches using Relation.ReflTransGen.head_induction_on generalizing builder with
  | refl => exact ⟨[], builder, rfl, parsed, fun other _ => rfl⟩
  | @head reader middle moves _ induction =>
      obtain ⟨event, read⟩ := moves
      obtain ⟨fits, taken, nonempty, split, reads⟩ := Reader.next?_consumes read
      rw [run_of_event read] at parsed
      obtain ⟨next, stepped, parsed⟩ := bind_eq_ok_iff.mp parsed
      obtain ⟨more, last, splitMore, parsedLast, goesOn⟩ := induction parsed
      refine ⟨taken ++ more, last, by rw [split, splitMore, List.append_assoc], parsedLast, ?_⟩
      intro other stillFits
      have fitsOther : event.Fits (more ++ other) := by
        rw [splitMore] at fits
        by_cases vacant : more = []
        · rw [vacant] at fits ⊢
          exact stillFits event fits
        · exact fits.of_append vacant other
      rw [List.append_assoc, run_of_step (reads _ fitsOther) stepped]
      exact goesOn other stillFits

variable {begun rest body : Text} {opened : List Text}

theorem run_comment (notClosed : ¬ "-->".toList <:+: body) :
    builder.run ⟨commentMarkup body ++ rest, opened⟩ = builder.run ⟨rest, opened⟩ :=
  run_of_step (Reader.next?_comment notClosed rest opened) rfl

theorem step_text_eq_ok_iff
    {next : Builder} {written : Text} :
    builder.step (.text written) = .ok next ↔
      ∃ characters, Reference.Reads written characters ∧
        builder.attachText characters = .ok next := by
  have unescaped (characters : Text) :
      (Reference.unescape written).mapError ParseError.malformedReference = .ok characters ↔
        Reference.Reads written characters := by
    rw [← @Reference.unescapeFrom_eq_ok_iff 0, ← Reference.unescape]
    cases Reference.unescape written with
    | error cause => exact iff_of_false nofun nofun
    | ok read => exact ⟨fun same => by cases same; rfl, fun same => by cases same; rfl⟩
  constructor
  · intro stepped
    obtain ⟨characters, read, attached⟩ := bind_eq_ok_iff.mp stepped
    exact ⟨characters, (unescaped characters).mp read, attached⟩
  · rintro ⟨characters, reads, attached⟩
    exact bind_eq_ok_iff.mpr ⟨characters, (unescaped characters).mpr reads, attached⟩

/-- A run of text is taken in as its two parts are, where no reference is cut. -/
theorem step_text_append
    {next : Builder} {first last : Text} (closed : Reference.Closed first)
    (stepped : builder.step (.text (first ++ last)) = .ok next) :
    ∃ middle nextPieces, builder.step (.text first) = .ok middle ∧
      middle.step (.text last) = .ok nextPieces ∧ next.SplitInto nextPieces := by
  obtain ⟨characters, reads, attached⟩ := step_text_eq_ok_iff.mp stepped
  obtain ⟨firstRead, lastRead, readsFirst, readsLast, rfl⟩ := reads.of_append closed
  obtain ⟨middle, nextPieces, attachedFirst, attachedLast, split⟩ :=
    SplitInto.of_attachText attached
  exact ⟨middle, nextPieces, step_text_eq_ok_iff.mpr ⟨_, readsFirst, attachedFirst⟩,
    step_text_eq_ok_iff.mpr ⟨_, readsLast, attachedLast⟩, split⟩

/-- A comment in front of a text, or between the two parts of a run of text, leaves the tree as
it is but for texts in two parts. -/
theorem run_comment_insideText
    (noBracket : '<' ∉ begun) (closed : Reference.Closed begun)
    (notClosed : ¬ "-->".toList <:+: body)
    (parsed : builder.run ⟨begun ++ rest, opened⟩ = .ok root) :
    ∃ pieces, builder.run ⟨begun ++ (commentMarkup body ++ rest), opened⟩ = .ok pieces ∧
      root.SplitInto pieces := by
  by_cases vacant : begun = []
  · subst vacant
    refine ⟨root, ?_, .refl root⟩
    rw [List.nil_append, run_comment notClosed]
    exact parsed
  · obtain ⟨last, behind, rfl, plainLast, ends⟩ := Reader.exists_run rest
    have plainBegun : ∀ letter ∈ begun, letter ≠ '<' := by
      rintro letter member rfl
      exact noBracket member
    have readBegun : Reader.next? ⟨begun ++ (commentMarkup body ++ (last ++ behind)), opened⟩ =
        .ok (some (.text begun, ⟨commentMarkup body ++ (last ++ behind), opened⟩)) :=
      Reader.next?_text vacant plainBegun (.inr ⟨_, rfl⟩) opened
    have readWhole : Reader.next? ⟨begun ++ last ++ behind, opened⟩ =
        .ok (some (.text (begun ++ last), ⟨behind, opened⟩)) :=
      Reader.next?_text (List.append_ne_nil_of_left_ne_nil vacant last)
        (List.forall_mem_append.mpr ⟨plainBegun, plainLast⟩) ends opened
    rw [← List.append_assoc, run_of_event readWhole] at parsed
    obtain ⟨next, stepped, parsedBehind⟩ := bind_eq_ok_iff.mp parsed
    by_cases whole : last = []
    · subst whole
      rw [List.append_nil] at stepped
      rw [run_of_step readBegun stepped, run_comment notClosed]
      exact ⟨root, parsedBehind, .refl root⟩
    · obtain ⟨middle, nextPieces, steppedBegun, steppedLast, split⟩ :=
        step_text_append closed stepped
      have readLast := Reader.next?_text whole plainLast ends opened
      rw [run_of_step readBegun steppedBegun, run_comment notClosed,
        run_of_step readLast steppedLast]
      exact split.run parsedBehind

end Builder

/-- Where a comment can stand: two texts meet between two events, or inside a run of text and
there in no reference. -/
inductive CutsNothing (front rest : Text) : Prop
  | betweenEvents {opened : List Text}
      (reaches : Relation.ReflTransGen Reader.Moves (Reader.ofText (front ++ rest))
        ⟨rest, opened⟩) : CutsNothing front rest
  | insideText {begun : Text} {opened : List Text}
      (reaches : Relation.ReflTransGen Reader.Moves (Reader.ofText (front ++ rest))
        ⟨begun ++ rest, opened⟩)
      (noBracket : '<' ∉ begun) (closed : Reference.Closed begun) : CutsNothing front rest

theorem CutsNothing.reached {front rest : Text} (cuts : CutsNothing front rest) :
    ∃ begun opened, Relation.ReflTransGen Reader.Moves (Reader.ofText (front ++ rest))
      ⟨begun ++ rest, opened⟩ ∧ '<' ∉ begun ∧ Reference.Closed begun := by
  cases cuts with
  | @betweenEvents opened reaches =>
      exact ⟨[], opened, reaches, List.not_mem_nil, .of_not_mem List.not_mem_nil⟩
  | @insideText begun opened reaches noBracket closed =>
      exact ⟨begun, opened, reaches, noBracket, closed⟩

/-- With a comment where nothing is cut, a text is the markup of the same tree but for texts in
two parts. -/
theorem Element.parse_comment
    {front rest body : Text} {root : Element} (noMark : (front ++ rest).head? ≠ some '\uFEFF')
    (cuts : CutsNothing front rest) (notClosed : ¬ "-->".toList <:+: body)
    (parsed : parse (front ++ rest) = .ok root) :
    ∃ pieces, parse (front ++ (commentMarkup body ++ rest)) = .ok pieces ∧
      root.SplitInto pieces := by
  obtain ⟨begun, opened, reaches, noBracket, closed⟩ := cuts.reached
  have noMarkCommented : (front ++ (commentMarkup body ++ rest)).head? ≠ some '\uFEFF' := by
    cases front with
    | nil => simp [commentMarkup]
    | cons first others => exact noMark
  rw [parse, Reader.ofText_of_noMark noMark] at parsed
  rw [Reader.ofText_of_noMark noMark] at reaches
  rw [parse, Reader.ofText_of_noMark noMarkCommented]
  obtain ⟨taken, next, split, parsedNext, goesOn⟩ := Builder.run_of_reaches reaches parsed
  obtain rfl : front = taken ++ begun := by
    rw [← List.append_assoc] at split
    exact List.append_cancel_right split
  have stillFits : ∀ event : Event, event.Fits (begun ++ rest) →
      event.Fits (begun ++ (commentMarkup body ++ rest)) := by
    intro event fits
    by_cases vacant : begun = []
    · subst vacant
      exact fun _ => .inr ⟨_, rfl⟩
    · exact fits.of_append vacant _
  rw [List.append_assoc, goesOn _ stillFits]
  exact Builder.run_comment_insideText noBracket closed notClosed parsedNext

end CleanSvg
