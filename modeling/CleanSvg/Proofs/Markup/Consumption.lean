import CleanSvg.Proofs.Markup.WrittenTags
import CleanSvg.Proofs.Pattern.Delimited

/-!
# What an event takes

Every form of markup ends by itself: what a reader took for an event is enough to
read it again, whatever comes after.  A run of text alone goes on as far as it can,
so it is read again where nothing or markup comes after it.
-/

namespace CleanSvg

namespace Reader

/-- A beginning of a text was read, up to what was left of it, and would be read alike
whatever came after. -/
def Consumes {α : Type} (read : Text → Except ReadError α) (text : Text) (result : Text → α)
    (left : Text) : Prop :=
  ∃ taken, text = taken ++ left ∧ ∀ other, read (taken ++ other) = .ok (result other)

section

variable {α β : Type} {read : Text → Except ReadError α} {outer : Text → Except ReadError β}
  {result : Text → α} {final : Text → β} {ahead left : Text}

/-- A reading that begins with a given text and goes on with another reading. -/
theorem Consumes.behind
    (consumes : Consumes read ahead result left) (start : Text)
    (leads : ∀ text other, read text = .ok (result other) →
      outer (start ++ text) = .ok (final other)) :
    Consumes outer (start ++ ahead) final left := by
  obtain ⟨taken, rfl, reads⟩ := consumes
  refine ⟨start ++ taken, (List.append_assoc start taken left).symm, ?_⟩
  intro other
  rw [List.append_assoc]
  exact leads (taken ++ other) other (reads other)

theorem Consumes.imp
    (consumes : Consumes read ahead result left)
    (leads : ∀ text other, read text = .ok (result other) →
      outer text = .ok (final other)) :
    Consumes outer ahead final left :=
  consumes.behind [] leads

theorem Consumes.at_head
    {first : Char} (consumes : Consumes read (first :: ahead) result left)
    (fails : ∀ value, read [] ≠ .ok value)
    (leads : ∀ text other, read (first :: text) = .ok (result other) →
      outer (first :: text) = .ok (final other)) :
    Consumes outer (first :: ahead) final left := by
  obtain ⟨taken, split, reads⟩ := consumes
  cases taken with
  | nil => exact absurd (reads []) (fails _)
  | cons character taken =>
      obtain ⟨rfl, rfl⟩ := List.cons.inj split
      exact ⟨first :: taken, rfl, fun other => leads (taken ++ other) other (reads other)⟩

end

variable {ahead rest : Text} {opened : List Text} {piece : Piece Text} {event : Event}
  {after : Reader}

theorem close_consumes
    {pattern : Pattern Text} {unclosed : ReadError} (delimited : pattern.Delimited)
    (read : close pattern unclosed ahead = .ok piece) :
    Consumes (close pattern unclosed) ahead (fun other => { piece with ahead := other })
      piece.ahead := by
  unfold close at read
  split at read
  · rename_i found
    cases read
    refine ⟨_, (pattern.splits found).symm, ?_⟩
    intro other
    rw [close, delimited _ _ found other]
  · cases read

theorem comment_consumes (read : comment ahead = .ok piece) :
    Consumes comment ahead (fun other => { piece with ahead := other }) piece.ahead := by
  unfold comment at read
  split at read
  · have consumes := close_consumes (Pattern.Delimited.through_literal _) read
    exact consumes.behind ['-'] fun text other closed => closed
  · cases read

theorem characterData_consumes (read : characterData ahead = .ok piece) :
    Consumes characterData ahead (fun other => { piece with ahead := other }) piece.ahead := by
  unfold characterData at read
  split at read
  · rename_i rest found
    rw [Text.after?_eq_some_iff.mp found]
    have consumes := close_consumes (Pattern.Delimited.through_literal _) read
    apply consumes.behind "CDATA[".toList
    intro text other closed
    rw [characterData, Text.after?_eq_some_iff.mpr rfl]
    exact closed
  · cases read

theorem doctype_consumes (read : doctype ahead = .ok piece) :
    Consumes doctype ahead (fun other => { piece with ahead := other }) piece.ahead := by
  obtain ⟨found, closed, checked⟩ := bind_eq_ok_iff.mp read
  have consumes := close_consumes (Pattern.Delimited.scan _ _) closed
  split at checked
  · cases checked
  · rename_i name keyword
    split at checked
    · cases checked
    · rename_i named
      cases checked
      apply consumes.imp
      intro text other closed
      refine bind_eq_ok_iff.mpr ⟨_, closed, ?_⟩
      simp only [keyword]
      exact if_neg named

theorem instruction_consumes (read : instruction ahead = .ok piece) :
    Consumes instruction ahead (fun other => { piece with ahead := other }) piece.ahead := by
  obtain ⟨found, closed, checked⟩ := bind_eq_ok_iff.mp read
  have consumes := close_consumes (Pattern.Delimited.through_literal _) closed
  split at checked
  · cases checked
  · rename_i filled
    cases checked
    apply consumes.imp
    intro text other closed
    exact bind_eq_ok_iff.mpr ⟨_, closed, if_neg filled⟩

theorem readBang_consumes (read : readBang ahead = .ok (event, rest)) :
    Consumes readBang ahead (fun other => (event, other)) rest := by
  unfold readBang at read
  split at read
  · obtain ⟨piece, found, same⟩ := bind_eq_ok_iff.mp read
    cases same
    apply (characterData_consumes found).behind ['[']
    intro text other reads
    exact bind_eq_ok_iff.mpr ⟨_, reads, rfl⟩
  · obtain ⟨piece, found, same⟩ := bind_eq_ok_iff.mp read
    cases same
    apply (comment_consumes found).behind ['-']
    intro text other reads
    exact bind_eq_ok_iff.mpr ⟨_, reads, rfl⟩
  · split at read
    · rename_i begins
      obtain ⟨piece, found, same⟩ := bind_eq_ok_iff.mp read
      cases same
      apply (doctype_consumes found).at_head
      · intro value read
        cases read
      · intro text other reads
        rcases begins with rfl | rfl
        · exact bind_eq_ok_iff.mpr ⟨_, reads, rfl⟩
        · exact bind_eq_ok_iff.mpr ⟨_, reads, rfl⟩
    · cases read
  · cases read

theorem readEndTag_consumes (read : readEndTag opened ahead = .ok (event, after)) :
    Consumes (readEndTag opened) ahead (fun other => (event, { after with ahead := other }))
      after.ahead := by
  obtain ⟨piece, found, checked⟩ := bind_eq_ok_iff.mp read
  have consumes := close_consumes (Pattern.Delimited.scan _ _) found
  simp only at checked
  split at checked
  · cases checked
  · split at checked
    · rename_i expected outer same
      cases checked
      apply consumes.imp
      intro text other closed
      exact bind_eq_ok_iff.mpr ⟨_, closed, if_pos same⟩
    · cases checked

theorem readStartTag_consumes (read : readStartTag opened ahead = .ok (event, after)) :
    Consumes (readStartTag opened) ahead (fun other => (event, { after with ahead := other }))
      after.ahead := by
  obtain ⟨piece, found, checked⟩ := bind_eq_ok_iff.mp read
  have consumes := close_consumes (Pattern.Delimited.scan _ _) found
  split at checked
  · rename_i slash
    cases checked
    apply consumes.imp
    intro text other closed
    exact bind_eq_ok_iff.mpr ⟨_, closed, if_pos slash⟩
  · rename_i noSlash
    cases checked
    apply consumes.imp
    intro text other closed
    exact bind_eq_ok_iff.mpr ⟨_, closed, if_neg noSlash⟩

theorem readMarkup_consumes (read : readMarkup opened ahead = .ok (event, after)) :
    Consumes (readMarkup opened) ahead (fun other => (event, { after with ahead := other }))
      after.ahead := by
  unfold readMarkup at read
  split at read
  · obtain ⟨⟨inner, rest⟩, found, same⟩ := bind_eq_ok_iff.mp read
    cases same
    apply (readBang_consumes found).behind ['!']
    intro text other reads
    exact bind_eq_ok_iff.mpr ⟨_, reads, rfl⟩
  · exact (readEndTag_consumes read).behind ['/'] fun text other reads => reads
  · obtain ⟨piece, found, same⟩ := bind_eq_ok_iff.mp read
    cases same
    apply (instruction_consumes found).at_head
    · intro value read
      cases read
    · intro text other reads
      exact bind_eq_ok_iff.mpr ⟨_, reads, rfl⟩
  · cases read
  · rename_i noBang noSlash noQuestion nonempty
    obtain ⟨first, others, rfl⟩ := List.exists_cons_of_ne_nil nonempty
    have letter : first ∉ ['!', '/', '?'] := by
      intro sign
      rcases List.mem_cons.mp sign with rfl | sign
      · exact noBang _ rfl
      · rcases List.mem_cons.mp sign with rfl | sign
        · exact noSlash _ rfl
        · exact noQuestion _ (by rw [List.mem_singleton.mp sign])
    apply (readStartTag_consumes read).at_head
    · intro value read
      cases read
    · intro text other reads
      rw [readMarkup_of_letter letter]
      exact reads

end Reader

/-- The event is a run of text, the one thing that ends only where something else begins. -/
def Event.IsRun : Event → Prop
  | .text _ => True
  | _ => False

/-- What may come after an event without becoming part of it. -/
def Event.Fits (event : Event) (ahead : Text) : Prop :=
  event.IsRun → ahead = [] ∨ ∃ markup, ahead = '<' :: markup

theorem Event.Fits.of_append
    {event : Event} {markup trail : Text} (fits : event.Fits (markup ++ trail))
    (nonempty : markup ≠ []) (other : Text) : event.Fits (markup ++ other) := by
  intro isRun
  obtain ⟨first, others, rfl⟩ := List.exists_cons_of_ne_nil nonempty
  rcases fits isRun with vacant | ⟨rest, begins⟩
  · cases vacant
  · obtain ⟨rfl, _⟩ := List.cons.inj begins
    exact Or.inr ⟨others ++ other, rfl⟩

namespace Reader

variable {opened : List Text} {ahead : Text} {event : Event} {reader after : Reader}

theorem readMarkup_not_isRun (read : readMarkup opened ahead = .ok (event, after)) :
    ¬ event.IsRun := by
  unfold readMarkup at read
  split at read
  · obtain ⟨⟨inner, rest⟩, found, same⟩ := bind_eq_ok_iff.mp read
    cases same
    rcases readBang_event found with ⟨characters, rfl⟩ | rfl
    · exact id
    · exact id
  · obtain ⟨_, _, _, _, _, _, rfl, _⟩ := readEndTag_eq_ok read
    exact id
  · obtain ⟨piece, _, same⟩ := bind_eq_ok_iff.mp read
    cases same
    exact id
  · cases read
  · obtain ⟨inside, rest, _, _, ⟨_, rfl, _⟩ | ⟨_, rfl, _⟩⟩ := readStartTag_eq_ok read
    · exact id
    · exact id

theorem dropWhile_fits (text : Text) :
    text.dropWhile (· != '<') = [] ∨ ∃ markup, text.dropWhile (· != '<') = '<' :: markup := by
  cases left : text.dropWhile (· != '<') with
  | nil => exact Or.inl rfl
  | cons first markup =>
      have bracket : first = '<' := by simpa using Tag.dropWhile_head left
      exact Or.inr ⟨markup, by rw [bracket]⟩

/-- An event is read from what it took, whatever comes after that fits. -/
theorem next?_consumes (read : reader.next? = .ok (some (event, after))) :
    event.Fits after.ahead ∧ ∃ taken, taken ≠ [] ∧ reader.ahead = taken ++ after.ahead ∧
      ∀ other, event.Fits other → next? ⟨taken ++ other, reader.opened⟩ =
        .ok (some (event, { after with ahead := other })) := by
  unfold next? at read
  split at read
  · cases read
  · rename_i markup begun
    obtain ⟨⟨inner, rest⟩, found, same⟩ := bind_eq_ok_iff.mp read
    cases same
    obtain ⟨taken, split, reads⟩ := readMarkup_consumes found
    refine ⟨fun isRun => absurd isRun (readMarkup_not_isRun found), '<' :: taken,
      List.cons_ne_nil _ _, ?_, ?_⟩
    · rw [begun, split]
      rfl
    · intro other _
      exact bind_eq_ok_iff.mpr ⟨_, reads other, rfl⟩
  · rename_i first others noBracket begun
    cases read
    refine ⟨fun _ => dropWhile_fits others, first :: others.takeWhile (· != '<'),
      List.cons_ne_nil _ _, ?_, ?_⟩
    · rw [begun, List.cons_append, List.takeWhile_append_dropWhile]
    · intro other fits
      have plain := List.forall_mem_cons.mpr ⟨noBracket, Text.ne_of_mem_takeWhile '<' others⟩
      exact next?_text (List.cons_ne_nil _ _) plain (fits trivial) reader.opened

end Reader

/-- The event ends an element. -/
def Event.Closes : Event → Prop
  | .emptyTag _ | .endTag _ => True
  | _ => False

theorem Event.Closes.not_isRun {event : Event} (closes : event.Closes) : ¬ event.IsRun := by
  cases event with
  | text written => exact absurd closes id
  | _ => exact id

namespace Reader

variable {opened : List Text} {ahead : Text} {event : Event} {reader after : Reader}

theorem readMarkup_bracket
    (read : readMarkup opened ahead = .ok (event, after)) (closes : event.Closes) :
    ∃ inside, ahead = inside ++ '>' :: after.ahead := by
  unfold readMarkup at read
  split at read
  · obtain ⟨⟨inner, rest⟩, found, same⟩ := bind_eq_ok_iff.mp read
    cases same
    rcases readBang_event found with ⟨characters, rfl⟩ | rfl
    · cases closes
    · cases closes
  · obtain ⟨inside, _, _, split, _, _, _, rfl⟩ := readEndTag_eq_ok read
    exact ⟨'/' :: inside, by rw [split, List.cons_append]⟩
  · obtain ⟨piece, _, same⟩ := bind_eq_ok_iff.mp read
    cases same
    cases closes
  · cases read
  · obtain ⟨inside, rest, split, _, ⟨_, _, rfl⟩ | ⟨_, _, rfl⟩⟩ := readStartTag_eq_ok read
    · exact ⟨inside, split⟩
    · exact ⟨inside, split⟩

theorem next?_bracket
    (read : reader.next? = .ok (some (event, after))) (closes : event.Closes) :
    ∃ markup, reader.ahead = markup ++ '>' :: after.ahead := by
  unfold next? at read
  split at read
  · cases read
  · rename_i markup begun
    obtain ⟨⟨inner, rest⟩, found, same⟩ := bind_eq_ok_iff.mp read
    cases same
    obtain ⟨inside, split⟩ := readMarkup_bracket found closes
    exact ⟨'<' :: inside, by rw [begun, split, List.cons_append]⟩
  · cases read
    cases closes

end Reader

end CleanSvg
