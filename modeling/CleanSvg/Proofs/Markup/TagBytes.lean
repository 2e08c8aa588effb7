import Mathlib.Control.Monad.Basic
import CleanSvg.Proofs.Markup.AttributeNames
import CleanSvg.Proofs.Markup.EveryTag
import CleanSvg.Proofs.Text.Bytes

/-!
# Tags as bytes

A tag can be read from its bytes.  Names and values are then cut out of them at white
space, equals signs and quotes, and each has to be decoded before it is a text.  The
bytes of a text are cut as the text is, so nothing that is cut out of them fails to be
decoded, and the tag is read or refused as it is in characters.
-/

namespace CleanSvg

namespace TagBytes

/-- Why the bytes of a tag give no element. -/
inductive Refusal
  /-- A name or a value is not UTF-8. -/
  | notUtf8
  /-- The tag is refused, whether in bytes or in characters. -/
  | refused (cause : ParseError)
deriving DecidableEq, Repr

def decode (bytes : List UInt8) : Except Refusal Text :=
  match Text.ofBytes? bytes.toByteArray with
  | some text => .ok text
  | none => .error .notUtf8

def isSpace (byte : UInt8) : Bool :=
  byte == ' '.toUInt8 || byte == '\t'.toUInt8 || byte == '\n'.toUInt8 || byte == '\r'.toUInt8

def continuesName (byte : UInt8) : Bool :=
  byte != '='.toUInt8 && !isSpace byte

/-- An attribute before it is decoded: `place` is what lies ahead where its name begins. -/
structure RawAttribute where
  name : List UInt8
  place : List UInt8
  value : List UInt8

/-- Reads the value of an attribute, and what lies ahead of it. -/
def readValue (inside ahead : List UInt8) : Except AttributeError (List UInt8 × List UInt8) :=
  match ahead.dropWhile isSpace with
  | [] => .error (.expectedValue inside.length)
  | quote :: body =>
      if quote = '"'.toUInt8 ∨ quote = '\''.toUInt8 then
        match body.dropWhile (· != quote) with
        | [] => .error (.expectedQuote inside.length (Char.ofNat quote.toNat))
        | _ :: rest => .ok (body.takeWhile (· != quote), rest)
      else .error (.unquotedValue (inside.length - (quote :: body).length))

def nextAttribute? (inside : List UInt8) (earlier : List RawAttribute) (ahead : List UInt8) :
    Except AttributeError (Option (RawAttribute × List UInt8)) :=
  match ahead.dropWhile isSpace with
  | [] => .ok none
  | first :: others =>
      let place := first :: others
      let name := first :: others.takeWhile continuesName
      match (others.dropWhile continuesName).dropWhile isSpace with
      | [] => .error (.expectedEquals inside.length)
      | sign :: behind =>
          if sign = '='.toUInt8 then
            match earlier.find? fun candidate => candidate.name == name with
            | some previous =>
                .error (.duplicated (inside.length - place.length)
                  (inside.length - previous.place.length))
            | none => do
                let (value, rest) ← readValue inside behind
                .ok (some (⟨name, place, value⟩, rest))
          else .error (.expectedEquals (inside.length - (sign :: behind).length))

theorem readValue_length {inside ahead value rest : List UInt8}
    (read : readValue inside ahead = .ok (value, rest)) : rest.length < ahead.length := by
  unfold readValue at read
  split at read
  · cases read
  · rename_i quote body opened
    split at read
    · split at read
      · cases read
      · rename_i closing rest closed
        cases read
        have outer := (List.dropWhile_suffix (l := ahead) isSpace).length_le
        have inner := (List.dropWhile_suffix (l := body) (· != quote)).length_le
        simp only [opened, closed, List.length_cons] at outer inner
        omega
    · cases read

theorem nextAttribute?_length {inside ahead rest : List UInt8} {earlier : List RawAttribute}
    {raw : RawAttribute}
    (read : nextAttribute? inside earlier ahead = .ok (some (raw, rest))) :
    rest.length < ahead.length := by
  unfold nextAttribute? at read
  split at read
  · cases read
  · rename_i first others begun
    simp only at read
    split at read
    · cases read
    · rename_i sign behind found
      split at read
      · split at read
        · cases read
        · obtain ⟨⟨value, left⟩, valueRead, same⟩ := bind_eq_ok_iff.mp read
          cases same
          have shorter := readValue_length valueRead
          have outer := (List.dropWhile_suffix (l := ahead) isSpace).length_le
          have middle := (List.dropWhile_suffix (l := others) continuesName).length_le
          have inner :=
            (List.dropWhile_suffix (l := others.dropWhile continuesName) isSpace).length_le
          simp only [begun, found, List.length_cons] at outer inner
          show left.length < ahead.length
          omega
      · cases read

/-- Reads the attributes that lie ahead, after `earlier` ones with `names`. -/
def attributesFrom (inside : List UInt8) (earlier : List RawAttribute) (names : List Text)
    (ahead : List UInt8) : Except Refusal (List Attribute) :=
  match _ : nextAttribute? inside earlier ahead with
  | .error cause => .error (.refused (.malformedAttribute cause))
  | .ok none => .ok []
  | .ok (some (raw, rest)) => do
      let name ← decode raw.name
      if names.any fun candidate => Text.equalsIgnoringAsciiCase candidate name then
        .error (.refused (.duplicateAttribute name))
      else do
        let written ← decode raw.value
        let value ← (Reference.unescape written).mapError fun cause =>
          .refused (.malformedReference cause)
        let others ← attributesFrom inside (raw :: earlier) (name :: names) rest
        .ok (⟨name, value⟩ :: others)
termination_by ahead.length
decreasing_by
  rename_i read _
  exact nextAttribute?_length read

def element (inside : List UInt8) : Except Refusal Element := do
  let name ← decode (inside.takeWhile fun byte => !isSpace byte)
  let attributes ← attributesFrom inside [] [] (inside.dropWhile fun byte => !isSpace byte)
  .ok ⟨name, attributes, .empty⟩

theorem decode_bytes (text : Text) : decode text.bytes = .ok text := by
  rw [decode, Text.ofBytes?_bytes]

theorem shows_isSpace : Shows Tag.isSpace isSpace :=
  (((Shows.sign (by decide)).or (.sign (by decide))).or (.sign (by decide))).or
    (.sign (by decide))

theorem shows_continuesName : Shows Tag.continuesName continuesName :=
  (Shows.ne_sign (by decide)).and shows_isSpace.not

def RawAttribute.ofText (raw : Tag.RawAttribute) : RawAttribute :=
  ⟨Text.bytes raw.name, Text.bytes raw.place, Text.bytes raw.value⟩

theorem position_bytes (inside ahead : Text) :
    inside.bytes.length - ahead.bytes.length = Tag.position inside ahead := by
  rw [Text.length_bytes, Text.length_bytes, Tag.position]

theorem bytes_cons_ascii {sign : Char} (ascii : sign.toNat < 0x80) (text : Text) :
    Text.bytes (sign :: text) = sign.toUInt8 :: text.bytes := by
  rcases Text.utf8EncodeChar_cases sign with ⟨_, encoded⟩ | ⟨foreign, _⟩
  · rw [Text.bytes_cons, encoded, List.singleton_append]
  · omega

theorem exists_bytes_cons (character : Char) (text : Text) :
    ∃ first others, Text.bytes (character :: text) = first :: others ∧
      first ∈ String.utf8EncodeChar character := by
  obtain ⟨first, others, encoded⟩ :=
    List.exists_cons_of_ne_nil (@String.utf8EncodeChar_ne_nil character)
  refine ⟨first, others ++ text.bytes, ?_, ?_⟩
  · rw [Text.bytes_cons, encoded, List.cons_append]
  · rw [encoded]
    exact List.mem_cons_self

theorem readValue_bytes (inside ahead : Text) :
    readValue inside.bytes ahead.bytes =
      (Tag.readValue inside ahead).map fun (value, rest) =>
        (Text.bytes value, Text.bytes rest) := by
  rw [readValue, Tag.readValue, shows_isSpace.dropWhile_bytes]
  cases ahead.dropWhile Tag.isSpace with
  | nil => rw [Text.length_bytes]; rfl
  | cons quote body =>
      by_cases quotes : quote = '"' ∨ quote = '\''
      · have ascii : quote.toNat < 0x80 := by
          rcases quotes with rfl | rfl <;> decide
        have same : quote.toUInt8 = '"'.toUInt8 ∨ quote.toUInt8 = '\''.toUInt8 := by
          rcases quotes with rfl | rfl <;> decide
        have closes := Shows.ne_sign ascii
        have quoted : Char.ofNat quote.toUInt8.toNat = quote := by
          rcases quotes with rfl | rfl <;> decide
        simp only [bytes_cons_ascii ascii, quotes, same, if_true, quoted]
        rw [closes.dropWhile_bytes, closes.takeWhile_bytes, Text.length_bytes]
        cases left : body.dropWhile (· != quote) with
        | nil => rfl
        | cons closing rest =>
            have closing : closing = quote := by simpa using Tag.dropWhile_head left
            rw [closing, bytes_cons_ascii ascii]
            rfl
      · obtain ⟨first, others, encoded, member⟩ := exists_bytes_cons quote body
        have differs : ¬ (first = '"'.toUInt8 ∨ first = '\''.toUInt8) := by
          rw [Text.mem_utf8EncodeChar_ascii (by decide) member,
            Text.mem_utf8EncodeChar_ascii (by decide) member]
          exact quotes
        have place := position_bytes inside (quote :: body)
        rw [encoded] at place ⊢
        simp only [differs, quotes, if_false, place]
        rfl

theorem continuesName_of_foreign
    {character : Char} (foreign : 0x80 ≤ character.toNat) :
    Tag.continuesName character = true := by
  have differs : ∀ sign : Char, sign.toNat < 0x80 → character ≠ sign := by
    rintro sign ascii rfl
    omega
  rw [Tag.continuesName_iff]
  refine ⟨differs _ (by decide), ?_⟩
  simp [Tag.isSpace, differs ' ' (by decide), differs '\t' (by decide),
    differs '\n' (by decide), differs '\r' (by decide)]

/-- Only the first character of a name is taken as it is, so its other bytes have to go on with
the name by themselves, and they do. -/
theorem name_bytes
    {character : Char} {text : Text} {first : UInt8} {others : List UInt8}
    (begins : Text.bytes (character :: text) = first :: others) :
    first :: others.takeWhile continuesName =
        Text.bytes (character :: text.takeWhile Tag.continuesName) ∧
      others.dropWhile continuesName = Text.bytes (text.dropWhile Tag.continuesName) := by
  obtain ⟨head, tail, encoded⟩ :=
    List.exists_cons_of_ne_nil (@String.utf8EncodeChar_ne_nil character)
  rw [Text.bytes_cons, encoded, List.cons_append] at begins
  obtain ⟨rfl, rfl⟩ := List.cons.inj begins
  have goesOn : ∀ byte ∈ tail, continuesName byte = true := by
    intro byte member
    rcases Text.utf8EncodeChar_cases character with ⟨_, single⟩ | ⟨foreign, _⟩
    · rw [encoded] at single
      rw [(List.cons.inj single).2] at member
      cases member
    · rw [shows_continuesName character byte (by rw [encoded]; exact .tail _ member)]
      exact continuesName_of_foreign foreign
  rw [List.takeWhile_append_of_pos goesOn, List.dropWhile_append_of_pos goesOn,
    shows_continuesName.takeWhile_bytes, shows_continuesName.dropWhile_bytes,
    Text.bytes_cons, encoded]
  exact ⟨rfl, rfl⟩

theorem find?_bytes (earlier : List Tag.RawAttribute) (name : Text) :
    ((earlier.map RawAttribute.ofText).find? fun candidate => candidate.name == name.bytes) =
      (earlier.find? fun candidate => candidate.name == name).map RawAttribute.ofText := by
  have same : ((fun candidate => candidate.name == name.bytes) ∘ RawAttribute.ofText) =
      fun candidate : Tag.RawAttribute => candidate.name == name := by
    funext candidate
    rw [Bool.eq_iff_iff, Function.comp_apply, beq_iff_eq, beq_iff_eq]
    exact Text.bytes_injective.eq_iff
  rw [List.find?_map, same]

theorem nextAttribute?_bytes (inside ahead : Text) (earlier : List Tag.RawAttribute) :
    nextAttribute? inside.bytes (earlier.map RawAttribute.ofText) ahead.bytes =
      (Tag.nextAttribute? inside earlier ahead).map
        (Option.map fun (raw, rest) => (RawAttribute.ofText raw, Text.bytes rest)) := by
  rw [nextAttribute?, Tag.nextAttribute?, shows_isSpace.dropWhile_bytes]
  cases begun : ahead.dropWhile Tag.isSpace with
  | nil => rfl
  | cons character text =>
      obtain ⟨first, others, begins, _⟩ := exists_bytes_cons character text
      obtain ⟨named, behind⟩ := name_bytes begins
      have place := position_bytes inside (character :: text)
      rw [begins] at place ⊢
      simp only [named, behind, shows_isSpace.dropWhile_bytes]
      cases (text.dropWhile Tag.continuesName).dropWhile Tag.isSpace with
      | nil => rw [Text.length_bytes]; rfl
      | cons sign rest =>
          by_cases equals : sign = '='
          · subst equals
            rw [bytes_cons_ascii (by decide)]
            simp only [if_true, find?_bytes, readValue_bytes, place]
            cases earlier.find? fun candidate =>
                candidate.name == character :: text.takeWhile Tag.continuesName with
            | none =>
                cases Tag.readValue inside rest with
                | error cause => rfl
                | ok read => rw [← begins]; rfl
            | some previous =>
                rw [Option.map_some]
                simp only [RawAttribute.ofText, position_bytes]
                rfl
          · obtain ⟨byte, left, encoded, member⟩ := exists_bytes_cons sign rest
            have differs : byte ≠ '='.toUInt8 :=
              fun same => equals ((Text.mem_utf8EncodeChar_ascii (by decide) member).mp same)
            have wrong := position_bytes inside (sign :: rest)
            rw [encoded] at wrong ⊢
            simp only [differs, if_false, wrong]
            split
            · rename_i same
              exact absurd (List.cons.inj same).1 equals
            · rfl

theorem attributesFrom_of_error
    {inside ahead : List UInt8} {earlier : List RawAttribute} {names : List Text}
    {cause : AttributeError} (next : nextAttribute? inside earlier ahead = .error cause) :
    attributesFrom inside earlier names ahead = .error (.refused (.malformedAttribute cause)) := by
  rw [attributesFrom]
  split <;> simp_all

theorem attributesFrom_of_end
    {inside ahead : List UInt8} {earlier : List RawAttribute} {names : List Text}
    (next : nextAttribute? inside earlier ahead = .ok none) :
    attributesFrom inside earlier names ahead = .ok [] := by
  rw [attributesFrom]
  split <;> simp_all

theorem attributesFrom_of_next
    {inside ahead : List UInt8} {earlier : List RawAttribute} {names : List Text}
    {raw : Tag.RawAttribute} {rest : Text}
    (next : nextAttribute? inside earlier ahead = .ok (some (.ofText raw, rest.bytes))) :
    attributesFrom inside earlier names ahead =
      if names.any fun candidate => Text.equalsIgnoringAsciiCase candidate raw.name then
        .error (.refused (.duplicateAttribute raw.name))
      else (do
        let value ← (Reference.unescape raw.value).mapError fun cause =>
          .refused (.malformedReference cause)
        let others ← attributesFrom inside (.ofText raw :: earlier) (raw.name :: names) rest.bytes
        .ok (⟨raw.name, value⟩ :: others)) := by
  rw [attributesFrom]
  split
  · simp_all
  · simp_all
  · rename_i found
    rw [next] at found
    cases found
    simp only [RawAttribute.ofText, decode_bytes]
    rfl

theorem attributesFrom_bytes (inside : Text) (earlier : List Tag.RawAttribute) (ahead : Text) :
    attributesFrom inside.bytes (earlier.map RawAttribute.ofText)
        (earlier.map Tag.RawAttribute.name) ahead.bytes =
      (Tag.attributesFrom inside earlier ahead).mapError .refused := by
  have cut := nextAttribute?_bytes inside ahead earlier
  induction earlier, ahead using Tag.attributesFrom.induct inside with
  | case1 earlier ahead cause next =>
      rw [next] at cut
      rw [attributesFrom_of_error cut, Tag.attributesFrom_of_error next]
      rfl
  | case2 earlier ahead next =>
      rw [next] at cut
      rw [attributesFrom_of_end cut, Tag.attributesFrom_of_end next]
      rfl
  | case3 earlier ahead raw rest next twice =>
      rw [next] at cut
      rw [attributesFrom_of_next cut, Tag.attributesFrom_of_next next, List.any_map, if_pos twice]
      exact if_pos twice
  | case4 earlier ahead raw rest next fresh induction =>
      rw [next] at cut
      rw [attributesFrom_of_next cut, Tag.attributesFrom_of_next next, List.any_map, if_neg fresh]
      refine (if_neg fresh).trans ?_
      have behind := induction (nextAttribute?_bytes inside rest (raw :: earlier))
      rw [List.map_cons, List.map_cons] at behind
      rw [behind]
      cases Reference.unescape raw.value with
      | error cause => rfl
      | ok value =>
          cases Tag.attributesFrom inside (raw :: earlier) rest with
          | error cause => rfl
          | ok others => rfl

/-- What a tag says in bytes is what it says in characters: each name and each value that is
cut out of its bytes is a text. -/
theorem element_bytes (inside : Text) :
    element inside.bytes = (Tag.element inside).mapError .refused := by
  have named := shows_isSpace.not
  have read := attributesFrom_bytes inside [] (inside.dropWhile fun character =>
    !Tag.isSpace character)
  rw [List.map_nil, List.map_nil] at read
  rw [element, named.takeWhile_bytes, named.dropWhile_bytes, decode_bytes, read, Tag.element,
    Tag.attributes]
  cases Tag.attributesFrom inside [] (inside.dropWhile fun character =>
    !Tag.isSpace character) with
  | error cause => rfl
  | ok attributes => rfl

/-- A tag in Latin-1 is refused: it names an attribute by a byte that is no text. -/
example : element ("g é='1'".toList.map fun character => UInt8.ofNat character.toNat) =
    .error .notUtf8 := by
  decide +kernel

/-- Takes one event in.  Its tag, if it is one, is read from bytes. -/
def step (builder : Builder) : Event → Except Refusal Builder
  | .startTag inside =>
      if builder.opened.isEmpty ∧ builder.root.isSome then .error (.refused .multipleRoots)
      else do
        let element ← element inside.bytes
        .ok ⟨⟨element.name, element.attributes, .empty⟩ :: builder.opened, builder.root⟩
  | .emptyTag inside => do
      let element ← element inside.bytes
      (builder.attach element).mapError .refused
  | event => (builder.step event).mapError .refused

/-- Builds on with the events that a reader still meets, every tag read from bytes. -/
def run (builder : Builder) (reader : Reader) : Except Refusal Element :=
  match _ : reader.next? with
  | .error cause => .error (.refused (.malformedMarkup cause))
  | .ok none => builder.finish.mapError .refused
  | .ok (some (event, after)) => do
      let next ← step builder event
      run next after
termination_by reader.ahead.length
decreasing_by
  rename_i read
  exact Reader.next?_length read

/-- The root element of a text of markup, every tag read from bytes. -/
def parse (text : Text) : Except Refusal Element :=
  run Builder.start (Reader.ofText text)

theorem step_eq (builder : Builder) (event : Event) :
    step builder event = (builder.step event).mapError .refused := by
  cases event with
  | startTag inside =>
      rw [step, Builder.step, Builder.openElement, element_bytes]
      split
      · rfl
      · cases Tag.element inside with
        | error cause => rfl
        | ok element => rfl
  | emptyTag inside =>
      rw [step, Builder.step, element_bytes]
      cases Tag.element inside with
      | error cause => rfl
      | ok element => rfl
  | _ => rfl

theorem run_eq (builder : Builder) (reader : Reader) :
    run builder reader = (builder.run reader).mapError .refused := by
  induction builder, reader using Builder.run.induct with
  | case1 builder reader cause read =>
      rw [Builder.run_of_error read, run]
      split <;> simp_all [Except.mapError]
  | case2 builder reader read =>
      rw [Builder.run_of_end read, run]
      split <;> simp_all
  | case3 builder reader event after read induction =>
      rw [Builder.run_of_event read, run]
      split
      · simp_all
      · simp_all
      · rename_i found
        rw [read] at found
        cases found
        rw [step_eq]
        cases builder.step event with
        | error cause => rfl
        | ok next => exact induction next

/-- Whatever the text, its tree is read from bytes as it is from characters. -/
theorem parse_eq (text : Text) : parse text = (Element.parse text).mapError .refused :=
  run_eq Builder.start (Reader.ofText text)

end TagBytes

end CleanSvg
