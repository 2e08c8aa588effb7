import CleanSvg.Markup.Reference
import CleanSvg.Proofs.Text.Signs
import CleanSvg.Steps

/-!
# Reading undoes writing

Reading a text with references goes forward character by character: a plain
character stands for itself and a reference for the character it names.  Every
character is written in one of the two ways, so reading gives it back.
-/

namespace CleanSvg.Reference

/-- Ways to write a character so that it is read back. -/
inductive Spells (character : Char) : Text → Prop where
  | plain (notReference : character ≠ '&') : Spells character [character]
  | reference {name : Text} (noDelimiter : ∀ letter ∈ name, delimits letter = false)
      (named : ∀ start, resolve start name = .ok character) :
      Spells character ('&' :: name ++ [';'])

theorem unescapeFrom_of_plain
    {text : Text} (plain : text.dropWhile (· != '&') = []) (position : Nat) :
    unescapeFrom position text = .ok (text.takeWhile (· != '&')) := by
  rw [unescapeFrom]
  split
  · rfl
  · simp_all

theorem unescapeFrom_of_closed
    {text body ahead : Text} {sign : Char}
    (begun : text.dropWhile (· != '&') = sign :: body)
    (closed : (body.dropWhile fun character => !delimits character) = ';' :: ahead)
    (position : Nat) :
    unescapeFrom position text = (do
      let plain := text.takeWhile (· != '&')
      let name := body.takeWhile fun character => !delimits character
      let start := position + Text.byteSize plain + 1
      let character ← resolve start name
      let others ← unescapeFrom (start + Text.byteSize name + 1) ahead
      .ok (plain ++ character :: others)) := by
  rw [unescapeFrom]
  split
  · simp_all
  · rename_i found
    obtain ⟨rfl, rfl⟩ := List.cons.inj (begun.symm.trans found)
    split
    · rename_i foundEnd
      obtain ⟨_, rfl⟩ := List.cons.inj (closed.symm.trans foundEnd)
      rfl
    · rename_i unclosed
      exact absurd closed (unclosed ahead)

theorem unescapeFrom_nil (position : Nat) : unescapeFrom position [] = .ok [] :=
  unescapeFrom_of_plain rfl position

theorem unescapeFrom_plain
    {character : Char} {ahead others : Text} {position : Nat}
    (notReference : character ≠ '&')
    (read : unescapeFrom (position + character.utf8Size) ahead = .ok others) :
    unescapeFrom position (character :: ahead) = .ok (character :: others) := by
  have continues : (fun letter : Char => letter != '&') character = true :=
    bne_iff_ne.mpr notReference
  have dropped : (character :: ahead).dropWhile (· != '&') = ahead.dropWhile (· != '&') :=
    List.dropWhile_cons_of_pos continues
  have taken : (character :: ahead).takeWhile (· != '&') =
      character :: ahead.takeWhile (· != '&') :=
    List.takeWhile_cons_of_pos continues
  cases begun : ahead.dropWhile (· != '&') with
  | nil =>
      rw [unescapeFrom_of_plain begun] at read
      rw [unescapeFrom_of_plain (dropped.trans begun), taken]
      cases read
      rfl
  | cons sign body =>
      by_cases closes : ∃ rest,
          (body.dropWhile fun letter => !delimits letter) = ';' :: rest
      · obtain ⟨rest, closed⟩ := closes
        rw [unescapeFrom_of_closed begun closed] at read
        rw [unescapeFrom_of_closed (dropped.trans begun) closed, taken]
        simp only [Text.byteSize_cons, ← Nat.add_assoc]
        obtain ⟨named, resolved, read⟩ := bind_eq_ok_iff.mp read
        obtain ⟨last, readLast, same⟩ := bind_eq_ok_iff.mp read
        cases same
        exact bind_eq_ok_iff.mpr ⟨named, resolved, bind_eq_ok_iff.mpr ⟨last, readLast, rfl⟩⟩
      · rw [unescapeFrom] at read
        split at read
        · simp_all
        · rename_i found
          obtain ⟨rfl, rfl⟩ := List.cons.inj (begun.symm.trans found)
          split at read
          · rename_i closed
            exact absurd ⟨_, closed⟩ closes
          · cases read

theorem unescapeFrom_reference
    {name ahead others : Text} {character : Char} {position : Nat}
    (noDelimiter : ∀ letter ∈ name, delimits letter = false)
    (named : ∀ start, resolve start name = .ok character)
    (read : ∀ position, unescapeFrom position ahead = .ok others) :
    unescapeFrom position ('&' :: name ++ ';' :: ahead) = .ok (character :: others) := by
  have continues : ∀ letter ∈ name, (!delimits letter) = true := by
    intro letter member
    rw [noDelimiter letter member]
    rfl
  have begun : ('&' :: name ++ ';' :: ahead).dropWhile (· != '&') =
      '&' :: (name ++ ';' :: ahead) := rfl
  have closed : ((name ++ ';' :: ahead).dropWhile fun letter => !delimits letter) =
      ';' :: ahead := by
    rw [List.dropWhile_append_of_pos continues]
    rfl
  have taken : ((name ++ ';' :: ahead).takeWhile fun letter => !delimits letter) = name := by
    rw [List.takeWhile_append_of_pos continues]
    exact List.append_nil name
  rw [unescapeFrom_of_closed begun closed, taken]
  exact bind_eq_ok_iff.mpr ⟨character, named _, bind_eq_ok_iff.mpr ⟨others, read _, rfl⟩⟩

/-- What a text with references is read as, character by character. -/
inductive Reads : Text → Text → Prop where
  | empty : Reads [] []
  | character {character : Char} {spelling written text : Text}
      (spells : Spells character spelling) (others : Reads written text) :
      Reads (spelling ++ written) (character :: text)

theorem Reads.flatMap
    {spelling : Char → Text} (spells : ∀ character, Spells character (spelling character))
    (text : Text) : Reads (text.flatMap spelling) text := by
  induction text with
  | nil => exact .empty
  | cons character text induction =>
      rw [List.flatMap_cons]
      exact .character (spells character) induction

theorem Reads.plain_append
    {plain written text : Text} (noReference : ∀ letter ∈ plain, letter ≠ '&')
    (reads : Reads written text) : Reads (plain ++ written) (plain ++ text) := by
  induction plain with
  | nil => exact reads
  | cons letter plain induction =>
      obtain ⟨notReference, others⟩ := List.forall_mem_cons.mp noReference
      exact @Reads.character letter [letter] _ _ (.plain notReference) (induction others)

theorem Reads.unescapeFrom
    {written text : Text} (reads : Reads written text) (position : Nat) :
    unescapeFrom position written = .ok text := by
  induction reads generalizing position with
  | empty => exact unescapeFrom_nil position
  | @character character spelling written text spells others induction =>
      cases spells with
      | plain notReference =>
          rw [List.singleton_append]
          exact unescapeFrom_plain notReference (induction _)
      | @reference name noDelimiter named =>
          rw [List.append_assoc, List.singleton_append]
          exact unescapeFrom_reference noDelimiter named induction

/-- The position of a name decides nothing but the wording of a refusal. -/
theorem resolve_anywhere
    {start : Nat} {name : Text} {character : Char} (resolved : resolve start name = .ok character)
    (other : Nat) : resolve other name = .ok character := by
  unfold resolve at resolved ⊢
  split at resolved
  · exact resolved
  · exact resolved
  · split at resolved
    · rename_i found
      simpa only [found] using resolved
    · cases resolved

theorem reads_of_unescapeFrom
    {position : Nat} {written text : Text} (read : unescapeFrom position written = .ok text) :
    Reads written text := by
  induction position, written using unescapeFrom.induct generalizing text with
  | case1 position written plain =>
      have whole : written.takeWhile (· != '&') = written := by
        have split := List.takeWhile_append_dropWhile (p := (· != '&')) (l := written)
        rwa [plain, List.append_nil] at split
      rw [unescapeFrom_of_plain plain, whole] at read
      cases read
      simpa only [whole, List.append_nil] using
        Reads.empty.plain_append (Text.ne_of_mem_takeWhile '&' written)
  | case2 position written plain sign body begun start name ahead closed =>
      rename_i induction
      rw [unescapeFrom_of_closed begun closed] at read
      obtain ⟨character, resolved, readAhead⟩ := bind_eq_ok_iff.mp read
      obtain ⟨others, readOthers, same⟩ := bind_eq_ok_iff.mp readAhead
      cases same
      have noDelimiter : ∀ letter ∈ name, delimits letter = false := fun letter member =>
        (Bool.not_eq_true' _).mp (List.all_eq_true.mp List.all_takeWhile letter member)
      have spells : Spells character ('&' :: name ++ [';']) :=
        .reference noDelimiter (resolve_anywhere resolved)
      have ampersand : sign = '&' := by
        have head := List.head?_dropWhile_not (· != '&') written
        rw [begun] at head
        simpa using head
      have split : written = plain ++ (('&' :: name ++ [';']) ++ ahead) := by
        have outer := List.takeWhile_append_dropWhile (p := (· != '&')) (l := written)
        have inner :=
          List.takeWhile_append_dropWhile (p := fun letter => !delimits letter) (l := body)
        rw [closed] at inner
        rw [← outer, begun, ampersand, ← inner]
        simp [plain, name]
      have reads : Reads (plain ++ (('&' :: name ++ [';']) ++ ahead))
          (plain ++ character :: others) :=
        (Reads.character spells (induction readOthers)).plain_append
          (Text.ne_of_mem_takeWhile '&' written)
      rwa [← split] at reads
  | case3 position written sign body begun unclosed =>
      rw [unescapeFrom] at read
      split at read
      · simp_all
      · rename_i found
        obtain ⟨rfl, rfl⟩ := List.cons.inj (begun.symm.trans found)
        split at read
        · rename_i ahead closed
          exact absurd closed (unclosed ahead)
        · cases read

theorem unescapeFrom_eq_ok_iff
    {position : Nat} {written text : Text} :
    unescapeFrom position written = .ok text ↔ Reads written text :=
  ⟨reads_of_unescapeFrom, fun reads => reads.unescapeFrom position⟩

/-- No reference is open at the end of the text. -/
def Closed (text : Text) : Prop :=
  ∀ before name, text = before ++ '&' :: name → ';' ∈ name

theorem Closed.of_not_mem {text : Text} (absent : '&' ∉ text) : Closed text := by
  rintro before name rfl
  exact absurd (List.mem_append_right before List.mem_cons_self) absent

theorem Closed.of_append {front rest : Text} (closed : Closed (front ++ rest)) : Closed rest := by
  rintro before name rfl
  exact closed (front ++ before) name (by simp)

/-- A text in which no reference is open, and which is not empty, ends behind the spelling that
it begins with. -/
theorem Closed.behind_spelling
    {character : Char} {spelling front rest written : Text} (closed : Closed front)
    (nonempty : front ≠ []) (spells : Spells character spelling)
    (same : front ++ rest = spelling ++ written) :
    ∃ more, front = spelling ++ more ∧ more ++ rest = written := by
  obtain ⟨first, others, rfl⟩ := List.exists_cons_of_ne_nil nonempty
  cases spells with
  | plain =>
      obtain ⟨rfl, split⟩ := List.cons.inj same
      exact ⟨others, rfl, split⟩
  | @reference name noDelimiter named =>
      rw [List.append_assoc, List.singleton_append] at same
      obtain ⟨rfl, split⟩ := List.cons.inj same
      have ended : ';' ∈ others := closed [] others rfl
      have foreign : ';' ∉ name := fun member => absurd (noDelimiter _ member) (by decide)
      rcases List.append_eq_append_iff.mp split with ⟨left, rfl, _⟩ | ⟨left, rfl, parts⟩
      · exact absurd (List.mem_append_left left ended) foreign
      · cases left with
        | nil => exact absurd (by simpa using ended) foreign
        | cons sign more =>
            obtain ⟨rfl, rfl⟩ := List.cons.inj parts
            exact ⟨more, by simp, rfl⟩

/-- Where no reference is open, a text can be cut and read in two parts. -/
theorem Reads.of_append
    {front rest text : Text} (reads : Reads (front ++ rest) text) (closed : Closed front) :
    ∃ first last, Reads front first ∧ Reads rest last ∧ text = first ++ last := by
  generalize same : front ++ rest = written at reads
  induction reads generalizing front with
  | empty =>
      obtain ⟨rfl, rfl⟩ := List.append_eq_nil_iff.mp same
      exact ⟨[], [], .empty, .empty, rfl⟩
  | @character character spelling written text spells others induction =>
      by_cases vacant : front = []
      · subst vacant
        rw [List.nil_append] at same
        rw [same]
        exact ⟨[], character :: text, .empty, .character spells others, rfl⟩
      · obtain ⟨more, rfl, split⟩ := closed.behind_spelling vacant spells same
        obtain ⟨first, last, readFirst, readLast, rfl⟩ := induction closed.of_append split
        exact ⟨character :: first, last, .character spells readFirst, readLast, rfl⟩

/-- Reading undoes every way of writing that spells each character. -/
theorem unescapeFrom_flatMap
    {spelling : Char → Text} (spells : ∀ character, Spells character (spelling character))
    (position : Nat) (text : Text) :
    unescapeFrom position (text.flatMap spelling) = .ok text :=
  (Reads.flatMap spells text).unescapeFrom position

theorem escapeInValue_spells (character : Char) :
    Spells character (escapeInValue character) := by
  unfold escapeInValue
  split
  · exact @Spells.reference '<' "lt".toList (forall_mem_of_all rfl) fun _ => rfl
  · exact @Spells.reference '>' "gt".toList (forall_mem_of_all rfl) fun _ => rfl
  · exact @Spells.reference '&' "amp".toList (forall_mem_of_all rfl) fun _ => rfl
  · exact @Spells.reference '\'' "apos".toList (forall_mem_of_all rfl) fun _ => rfl
  · exact @Spells.reference '"' "quot".toList (forall_mem_of_all rfl) fun _ => rfl
  · rename_i notReference _ _
    exact .plain notReference

theorem unescape_escapeValue (value : Text) : unescape (escapeValue value) = .ok value :=
  unescapeFrom_flatMap escapeInValue_spells 0 value

theorem escapeValue_injective : Function.Injective escapeValue := by
  intro left right same
  have read := unescape_escapeValue left
  rw [same, unescape_escapeValue] at read
  exact (Except.ok.inj read).symm

theorem Spells.ne_nil {character : Char} {spelling : Text}
    (spells : Spells character spelling) : spelling ≠ [] := by
  cases spells with
  | plain => exact List.cons_ne_nil _ _
  | reference => exact List.cons_ne_nil _ _

theorem escapeInText_spells (character : Char) : Spells character (escapeInText character) := by
  unfold escapeInText
  split
  · exact @Spells.reference '<' "lt".toList (forall_mem_of_all rfl) fun _ => rfl
  · exact @Spells.reference '>' "gt".toList (forall_mem_of_all rfl) fun _ => rfl
  · exact @Spells.reference '&' "amp".toList (forall_mem_of_all rfl) fun _ => rfl
  · rename_i notReference
    exact .plain notReference

theorem unescape_escapeText (text : Text) : unescape (escapeText text) = .ok text :=
  unescapeFrom_flatMap escapeInText_spells 0 text

theorem escapeText_injective : Function.Injective escapeText := by
  intro left right same
  have read := unescape_escapeText left
  rw [same, unescape_escapeText] at read
  exact (Except.ok.inj read).symm

theorem escapeInText_no_bracket (character : Char) :
    ∀ letter ∈ escapeInText character, letter ≠ '<' ∧ letter ≠ '>' := by
  unfold escapeInText
  split
  · exact forall_mem_of_all rfl
  · exact forall_mem_of_all rfl
  · exact forall_mem_of_all rfl
  · rename_i noLess noBracket _
    intro letter member
    rw [List.mem_singleton.mp member]
    exact ⟨noLess, noBracket⟩

theorem escapeText_no_bracket (text : Text) :
    ∀ letter ∈ escapeText text, letter ≠ '<' ∧ letter ≠ '>' := by
  intro letter member
  obtain ⟨character, _, inside⟩ := List.mem_flatMap.mp member
  exact escapeInText_no_bracket character letter inside

/-- A written text is told from the tag that follows it. -/
theorem escapeText_append_inj
    {left right leftRest rightRest : Text}
    (same : escapeText left ++ '<' :: leftRest = escapeText right ++ '<' :: rightRest) :
    left = right ∧ leftRest = rightRest := by
  have untilTag (text rest : Text) :
      (escapeText text ++ '<' :: rest).takeWhile (· != '<') = escapeText text := by
    rw [List.takeWhile_append_of_pos fun letter member =>
      bne_iff_ne.mpr (escapeText_no_bracket text letter member).1]
    exact List.append_nil _
  have texts := untilTag left leftRest
  rw [same, untilTag] at texts
  rw [texts] at same
  exact ⟨(escapeText_injective texts).symm, (List.cons.inj (List.append_cancel_left same)).2⟩

end CleanSvg.Reference
