import CleanSvg.Storage.Platform

/-!
# Cutting a text at its bytes

In the UTF-8 form of a text, the byte of an ASCII character stands for nothing else:
no other character holds it.  A property of characters that is seen at each of their
bytes can therefore be looked for byte by byte, and what is cut out of the bytes of a
text in this way is the bytes of what is cut out of the text.
-/

namespace CleanSvg

namespace Text

/-- The bytes of a text in UTF-8, in order. -/
def bytes (text : Text) : List UInt8 :=
  text.flatMap String.utf8EncodeChar

@[simp] theorem bytes_cons (character : Char) (text : Text) :
    bytes (character :: text) = String.utf8EncodeChar character ++ bytes text := rfl

theorem bytes_append (left right : Text) : bytes (left ++ right) = left.bytes ++ right.bytes :=
  List.flatMap_append

theorem length_bytes (text : Text) : text.bytes.length = text.byteSize := by
  induction text with
  | nil => rfl
  | cons character text induction =>
      rw [bytes_cons, List.length_append, String.length_utf8EncodeChar, induction, byteSize_cons]

theorem ofBytes?_bytes (text : Text) : ofBytes? text.bytes.toByteArray = some text := by
  have encoded : text.bytes.toByteArray = (String.ofList text).toByteArray := by
    rw [String.toByteArray_ofList]
    rfl
  rw [ofBytes?, encoded, String.fromUTF8?, dif_pos (String.ofList text).isValidUTF8]
  exact congrArg some String.toList_ofList

theorem bytes_injective : Function.Injective bytes := by
  intro left right same
  have decoded := ofBytes?_bytes left
  rw [same, ofBytes?_bytes] at decoded
  exact (Option.some.inj decoded).symm

/-- A character is a single byte, or all its bytes lie outside ASCII. -/
theorem utf8EncodeChar_cases (character : Char) :
    (character.toNat < 0x80 ∧ String.utf8EncodeChar character = [character.toUInt8]) ∨
      (0x80 ≤ character.toNat ∧
        ∀ byte ∈ String.utf8EncodeChar character, 0x80 ≤ byte.toNat) := by
  rcases Nat.lt_or_ge character.toNat 0x80 with ascii | foreign
  · left
    have single : character.utf8Size = 1 := by
      rw [Char.utf8Size_eq_one_iff, UInt32.le_iff_toNat_le]
      exact Nat.le_of_lt_succ ascii
    exact ⟨ascii, String.utf8EncodeChar_eq_singleton single⟩
  · right
    refine ⟨foreign, ?_⟩
    have large : ¬ character.val.toNat ≤ 0x7f := Nat.not_le_of_gt foreign
    simp only [String.utf8EncodeChar, large, if_false]
    split
    · simp only [List.forall_mem_cons, UInt8.toNat_ofNat']
      refine ⟨by omega, by omega, by simp⟩
    · split
      · simp only [List.forall_mem_cons, UInt8.toNat_ofNat']
        refine ⟨by omega, by omega, by omega, by simp⟩
      · simp only [List.forall_mem_cons, UInt8.toNat_ofNat']
        refine ⟨by omega, by omega, by omega, by omega, by simp⟩

theorem mem_utf8EncodeChar_ascii
    {character sign : Char} {byte : UInt8} (ascii : sign.toNat < 0x80)
    (member : byte ∈ String.utf8EncodeChar character) :
    byte = sign.toUInt8 ↔ character = sign := by
  have small : ∀ {other : Char}, other.toNat < 0x80 → other.toUInt8.toNat = other.toNat := by
    intro other less
    exact Nat.mod_eq_of_lt (Nat.lt_trans less (by decide))
  rcases utf8EncodeChar_cases character with ⟨single, encoded⟩ | ⟨foreign, outside⟩
  · rw [encoded, List.mem_singleton] at member
    rw [member, ← UInt8.toNat_inj, small single, small ascii, Char.toNat_inj]
  · constructor
    · rintro rfl
      have outside := outside _ member
      rw [small ascii] at outside
      omega
    · rintro rfl
      omega

end Text

/-- A test of bytes gives, at each byte of a character, what a test of characters gives. -/
def Shows (ofChar : Char → Bool) (ofByte : UInt8 → Bool) : Prop :=
  ∀ character, ∀ byte ∈ String.utf8EncodeChar character, ofByte byte = ofChar character

namespace Shows

variable {ofChar otherOfChar : Char → Bool} {ofByte otherOfByte : UInt8 → Bool}

theorem sign {sign : Char} (ascii : sign.toNat < 0x80) :
    Shows (· == sign) (· == sign.toUInt8) := by
  intro character byte member
  rw [Bool.eq_iff_iff, beq_iff_eq, beq_iff_eq]
  exact Text.mem_utf8EncodeChar_ascii ascii member

theorem or (shows : Shows ofChar ofByte) (other : Shows otherOfChar otherOfByte) :
    Shows (fun character => ofChar character || otherOfChar character)
      fun byte => ofByte byte || otherOfByte byte := by
  intro character byte member
  simp only [shows character byte member, other character byte member]

theorem and (shows : Shows ofChar ofByte) (other : Shows otherOfChar otherOfByte) :
    Shows (fun character => ofChar character && otherOfChar character)
      fun byte => ofByte byte && otherOfByte byte := by
  intro character byte member
  simp only [shows character byte member, other character byte member]

theorem not (shows : Shows ofChar ofByte) :
    Shows (fun character => !ofChar character) fun byte => !ofByte byte := by
  intro character byte member
  simp only [shows character byte member]

theorem ne_sign {sign : Char} (ascii : sign.toNat < 0x80) :
    Shows (· != sign) (· != sign.toUInt8) :=
  (Shows.sign ascii).not

theorem takeWhile_bytes (shows : Shows ofChar ofByte) (text : Text) :
    text.bytes.takeWhile ofByte = Text.bytes (text.takeWhile ofChar) := by
  induction text with
  | nil => rfl
  | cons character text induction =>
      have same := shows character
      by_cases passes : ofChar character = true
      · rw [passes] at same
        rw [Text.bytes_cons, List.takeWhile_append_of_pos same,
          List.takeWhile_cons_of_pos passes, Text.bytes_cons, induction]
      · obtain ⟨first, others, encoded⟩ :=
          List.exists_cons_of_ne_nil (@String.utf8EncodeChar_ne_nil character)
        have stops := same first (by rw [encoded]; exact List.mem_cons_self)
        rw [List.takeWhile_cons_of_neg passes, Text.bytes_cons, encoded, List.cons_append]
        exact List.takeWhile_cons_of_neg (by rw [stops]; exact passes)

theorem dropWhile_bytes (shows : Shows ofChar ofByte) (text : Text) :
    text.bytes.dropWhile ofByte = Text.bytes (text.dropWhile ofChar) := by
  have split : text.bytes = Text.bytes (text.takeWhile ofChar) ++
      Text.bytes (text.dropWhile ofChar) := by
    rw [← Text.bytes_append, List.takeWhile_append_dropWhile]
  have whole := List.takeWhile_append_dropWhile (p := ofByte) (l := text.bytes)
  rw [shows.takeWhile_bytes] at whole
  exact List.append_cancel_left (whole.trans split)

end Shows

end CleanSvg
