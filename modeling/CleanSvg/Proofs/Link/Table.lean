import CleanSvg.Link.Context
import CleanSvg.Proofs.Text.Spellings
import CleanSvg.Proofs.Text.Signs

/-!
# The table of addresses

For each kind of element a table says how an address has to begin, invisible
characters and the case of ASCII letters aside.  Every address of the table is
accepted.  Others are too, but few: those that begin with an entry of the table in
which a long s stands for the letter.
-/

namespace CleanSvg

namespace Link

def rasterFormats : List Text := List.map String.toList [
    "png", "jpeg", "jpg", "gif", "webp", "avif", "bmp", "tiff", "x-icon", "vnd.microsoft.icon"]

/-- How a `data:` address of a format begins, the sign that ends the format included. -/
def formatOpenings (format : Text) : List Text :=
  [';', ','].map fun sign => "data:image/".toList ++ format ++ [sign]

/-- The table: how an address may begin on an element of a name. -/
def openings (tag : Text) : List Text :=
  if Text.asciiLowercase tag = "image" ∨ Text.asciiLowercase tag = "feimage" then
    rasterFormats.flatMap formatOpenings
  else if Text.asciiLowercase tag = "use" then List.map String.toList ["#"]
  else if Text.asciiLowercase tag = "a" then
    List.map String.toList ["http:", "https:", "mailto:"]
  else List.map String.toList ["data:", "#"]

/-- The entries of the table with a long s in them. -/
def longOpenings (tag : Text) : List Text :=
  if Text.asciiLowercase tag = "image" ∨ Text.asciiLowercase tag = "feimage" then
    formatOpenings "vnd.micro\u017Foft.icon".toList
  else if Text.asciiLowercase tag = "a" then List.map String.toList ["http\u017F:"]
  else []

/-- An address begins with one of several texts, invisible characters and the case of ASCII
letters aside. -/
def Begins (entries : List Text) (address : Text) : Prop :=
  ∃ entry ∈ entries, entry <+: Text.asciiLowercase (Text.stripInvisible address)

instance (entries : List Text) (address : Text) : Decidable (Begins entries address) :=
  inferInstanceAs (Decidable (∃ entry ∈ entries, _))

end Link

/-- One of several keywords stands at the beginning of a text. -/
def Text.BeginsWithAny (words : List Text) (text : Text) : Prop :=
  ∃ word ∈ words, Text.beginsWith word text = true

theorem Text.beginsWithAny_iff
    {words : List Text} {text : Text} (folded : ∀ word ∈ words, word.map Text.foldCase = word) :
    Text.BeginsWithAny words text ↔
      ∃ entry ∈ words.flatMap Text.spellings, entry <+: Text.asciiLowercase text := by
  constructor
  · rintro ⟨word, listed, begins⟩
    obtain ⟨spelling, spells, begins⟩ := (Text.beginsWith_iff (folded word listed)).mp begins
    exact ⟨spelling, List.mem_flatMap.mpr ⟨word, listed, spells⟩, begins⟩
  · rintro ⟨spelling, member, begins⟩
    obtain ⟨word, listed, spells⟩ := List.mem_flatMap.mp member
    exact ⟨word, listed, (Text.beginsWith_iff (folded word listed)).mpr ⟨spelling, spells, begins⟩⟩

theorem Link.isFragment_iff {address : Text} :
    Link.isFragment address = true ↔ Text.beginsWith ['#'] address = true := by
  rw [Link.isFragment, beq_iff_eq]
  exact (Text.beginsWith_sign_iff (by decide) (by decide)).symm

/-- A media type and the sign that ends it are one keyword. -/
theorem MediaTypes.beginsWithType_iff {mediaType content : Text} :
    MediaTypes.beginsWithType mediaType content = true ↔
      ∃ sign ∈ [';', ','], Text.beginsWith (mediaType ++ [sign]) content = true := by
  have signs : ∀ sign ∈ [';', ','], ∀ ahead,
      Text.beginsWith [sign] ahead = true ↔ ahead.head? = some sign := by
    have noLetters : ∀ sign ∈ [';', ','],
        Text.foldCase sign = sign ∧ ¬ ('a' ≤ sign ∧ sign ≤ 'z') :=
      forall_mem_of_all (by decide)
    intro sign listed ahead
    obtain ⟨folded, noLetter⟩ := noLetters sign listed
    exact Text.beginsWith_sign_iff folded noLetter
  unfold MediaTypes.beginsWithType
  constructor
  · intro begins
    split at begins
    · rename_i next ahead found
      refine ⟨next, by simpa using begins, Text.beginsWith_append_iff.mpr ⟨_, found, ?_⟩⟩
      exact (signs next (by simpa using begins) _).mpr rfl
    · cases begins
  · rintro ⟨sign, listed, begins⟩
    obtain ⟨ahead, found, begins⟩ := Text.beginsWith_append_iff.mp begins
    obtain ⟨rest, rfl⟩ := List.head?_eq_some_iff.mp ((signs sign listed ahead).mp begins)
    rw [found]
    simpa using listed

theorem MediaTypes.accept_iff {types : MediaTypes} {address : Text} :
    types.accept address = true ↔
      Text.BeginsWithAny (types.flatMap fun mediaType =>
        [';', ','].map fun sign => "data:".toList ++ (mediaType ++ [sign])) address := by
  have accepted : types.accept address = true ↔
      ∃ content, Text.afterKeyword? "data:".toList address = some content ∧
        ∃ mediaType ∈ types, MediaTypes.beginsWithType mediaType content = true := by
    unfold MediaTypes.accept
    cases Text.afterKeyword? "data:".toList address <;> simp
  rw [accepted]
  constructor
  · rintro ⟨content, found, mediaType, allowed, begins⟩
    obtain ⟨sign, listed, begins⟩ := MediaTypes.beginsWithType_iff.mp begins
    refine ⟨_, List.mem_flatMap.mpr ⟨mediaType, allowed, List.mem_map_of_mem listed⟩, ?_⟩
    exact Text.beginsWith_append_iff.mpr ⟨content, found, begins⟩
  · rintro ⟨word, member, begins⟩
    obtain ⟨mediaType, allowed, member⟩ := List.mem_flatMap.mp member
    obtain ⟨sign, listed, rfl⟩ := List.mem_map.mp member
    obtain ⟨content, found, begins⟩ := Text.beginsWith_append_iff.mp begins
    exact ⟨content, found, mediaType, allowed,
      MediaTypes.beginsWithType_iff.mpr ⟨sign, listed, begins⟩⟩

theorem LinkContext.rows
    {motive : LinkContext → List Text → List Text → Prop} (tag : Text)
    (image : motive .rasterDataOnly (Link.rasterFormats.flatMap Link.formatOpenings)
      (Link.formatOpenings "vnd.micro\u017Foft.icon".toList))
    (reuse : motive .fragmentOnly ["#".toList] [])
    (link : motive .safeLinkProtocolOnly (List.map String.toList ["http:", "https:", "mailto:"])
      ["http\u017F:".toList])
    (other : motive .dataOrFragment (List.map String.toList ["data:", "#"]) []) :
    motive (LinkContext.ofTag tag) (Link.openings tag) (Link.longOpenings tag) := by
  unfold LinkContext.ofTag Link.openings Link.longOpenings
  by_cases isImage : Text.asciiLowercase tag = "image" ∨ Text.asciiLowercase tag = "feimage"
  · simp only [if_pos isImage]
    exact image
  by_cases isUse : Text.asciiLowercase tag = "use"
  · have notLink : Text.asciiLowercase tag ≠ "a" := by
      rw [isUse]
      decide
    simp only [if_neg isImage, if_pos isUse, if_neg notLink]
    exact reuse
  by_cases isLink : Text.asciiLowercase tag = "a"
  · simp only [if_neg isImage, if_neg isUse, if_pos isLink]
    exact link
  · simp only [if_neg isImage, if_neg isUse, if_neg isLink]
    exact other

theorem LinkContext.accepts_iff {tag address : Text} :
    (LinkContext.ofTag tag).accepts address = true ↔
      Text.BeginsWithAny (Link.openings tag) address := by
  apply LinkContext.rows (motive := fun context openings _ =>
    context.accepts address = true ↔ Text.BeginsWithAny openings address) tag
  case image => exact MediaTypes.accept_iff
  case reuse => simp [accepts, Link.isFragment_iff, Text.BeginsWithAny]
  case link => simp [accepts, Link.hasSafeProtocol, Text.BeginsWithAny, or_assoc]
  case other => simp [accepts, Link.isFragment_iff, Text.BeginsWithAny]

theorem Link.spellings_openings (tag : Text) :
    (∀ entry ∈ Link.openings tag, entry.map Text.foldCase = entry) ∧
      ∀ entry, entry ∈ (Link.openings tag).flatMap Text.spellings ↔
        entry ∈ Link.openings tag ++ Link.longOpenings tag := by
  have sameMembers {left right : List Text} (within : left ⊆ right) (covers : right ⊆ left)
      (entry : Text) : entry ∈ left ↔ entry ∈ right :=
    ⟨fun member => within member, fun member => covers member⟩
  apply LinkContext.rows (motive := fun _ openings longOpenings =>
    (∀ entry ∈ openings, entry.map Text.foldCase = entry) ∧
      ∀ entry, entry ∈ openings.flatMap Text.spellings ↔ entry ∈ openings ++ longOpenings) tag
  all_goals exact ⟨forall_mem_of_all (by decide +kernel),
    sameMembers (by decide +kernel) (by decide +kernel)⟩

namespace Link

theorem begins_append {left right : List Text} {address : Text} :
    Begins (left ++ right) address ↔ Begins left address ∨ Begins right address := by
  simp [Begins, or_and_right, exists_or]

theorem accepts_stripInvisible_iff {tag value : Text} :
    (LinkContext.ofTag tag).accepts (Text.stripInvisible value) = true ↔
      Begins (openings tag) value ∨ Begins (longOpenings tag) value := by
  obtain ⟨folded, spelled⟩ := spellings_openings tag
  rw [LinkContext.accepts_iff, Text.beginsWithAny_iff folded, ← begins_append]
  apply exists_congr
  intro entry
  rw [spelled entry]

/-- An element may carry the addresses of its row, those where a long s stands for the
letter included, and carries them as they were written.  The row of `a` is also what counts
as safe to follow. -/
theorem accepted?_table (tag value : Text) :
    accepted? tag value =
        (if Begins (openings tag) value ∨ Begins (longOpenings tag) value then some value
          else none) ∧
      (isSafe value = true ↔ Begins (openings "a") value ∨ Begins (longOpenings "a") value) := by
  constructor
  · unfold accepted?
    simp only [accepts_stripInvisible_iff]
  · have link : LinkContext.ofTag "a" = .safeLinkProtocolOnly := by decide
    rw [← accepts_stripInvisible_iff, link]
    rfl

theorem not_begins_of_longOpenings {tag value : Text} (long : Begins (longOpenings tag) value) :
    ¬ Begins (openings tag) value := by
  have apart : ∀ left ∈ longOpenings tag, ∀ right ∈ openings tag,
      ¬ (left <+: right ∨ right <+: left) := by
    apply LinkContext.rows (motive := fun _ openings longOpenings =>
      ∀ left ∈ longOpenings, ∀ right ∈ openings, ¬ (left <+: right ∨ right <+: left)) tag
    all_goals exact forall_mem_of_all (by decide +kernel)
  obtain ⟨left, leftListed, leftBegins⟩ := long
  rintro ⟨right, rightListed, rightBegins⟩
  apply apart left leftListed right rightListed
  exact List.prefix_or_prefix_of_prefix leftBegins rightBegins

/-- A scheme with a long s is followed although the table has no such entry. -/
theorem longScheme_accepted :
    accepted? "a" "http\u017F:x" = some "http\u017F:x" ∧ isSafe "http\u017F:x" = true ∧
      ¬ Begins (openings "a") "http\u017F:x" := by
  decide +kernel

theorem longFormat_accepted :
    accepted? "image" "data:image/vnd.micro\u017Foft.icon," =
        some "data:image/vnd.micro\u017Foft.icon," ∧
      ¬ Begins (openings "image") "data:image/vnd.micro\u017Foft.icon," := by
  decide +kernel

end Link

end CleanSvg
