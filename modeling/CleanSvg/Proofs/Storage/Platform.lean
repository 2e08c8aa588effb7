import CleanSvg.Storage.Platform
import CleanSvg.Proofs.Storage.ChangedFile

/-!
# What the operations do to a world

Looking and reading leave a world as it was, and writing puts the written files
in place of its own.  Bytes that are the UTF-8 form of a text are as many as the
size of the text says.
-/

namespace CleanSvg

namespace Text

theorem byteSize_eq_size_utf8Encode (text : Text) :
    byteSize text = text.utf8Encode.size := by
  induction text with
  | nil => rfl
  | cons character text induction =>
      rw [byteSize_cons, List.utf8Encode_cons, ByteArray.size_append, induction,
        List.utf8Encode_singleton, List.size_toByteArray, String.length_utf8EncodeChar]

theorem toBytes_of_ofBytes? {bytes : ByteArray} {text : Text}
    (decoded : ofBytes? bytes = some text) : text.toBytes = bytes := by
  obtain ⟨string, valid, rfl⟩ := Option.map_eq_some_iff.mp decoded
  rw [toBytes, String.ofList_toList]
  unfold String.fromUTF8? at valid
  split at valid
  · cases valid
    rfl
  · cases valid

theorem byteSize_of_ofBytes? {bytes : ByteArray} {text : Text}
    (decoded : ofBytes? bytes = some text) : byteSize text = bytes.size := by
  rw [byteSize_eq_size_utf8Encode, ← toBytes_of_ofBytes? decoded]
  rfl

end Text

namespace Session

variable {α β : Type}

theorem run_bind (first : Session α) (next : α → Session β) (world : World) :
    (first >>= next).run world = (next (first.run world).1).run (first.run world).2 := rfl

theorem run_inspect (path : Text) (world : World) :
    (Platform.inspect path : Session _).run world =
      ((world.files.lookup path).map .ofEntry, world) := rfl

theorem run_read (path : Text) (world : World) :
    (Platform.read path : Session _).run world = (world.files.read path, world) := rfl

theorem run_write (path : Text) (content : ByteArray) (world : World) :
    (Platform.write path content : Session _).run world =
      match world.files.write path content with
      | .ok files => (.ok (), { world with files })
      | .error cause => (.error cause, world) := by
  simp only [Platform.write, StateT.run_bind, StateT.run_get, pure_bind]
  cases world.files.write path content <;> rfl

end Session

end CleanSvg
