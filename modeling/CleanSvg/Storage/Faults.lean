import CleanSvg.Storage.Platform

/-!
# Surroundings with faults

A file that stands in a tree can be kept from being looked at, read or written,
and its size can be stated wrongly or not at all.  Faults say so path by path, and
an operation that meets none of them goes on to the surroundings below.
-/

namespace CleanSvg

/-- What keeps the operations on files from what stands in the tree. -/
structure Faults where
  /-- What a path is seen as, whatever stands behind it. -/
  seen : Text → Option (Except FileError FileKind)
  /-- The size that a file is said to have. -/
  stated : Text → Option (Except FileError Nat)
  unreadable : Text → Option FileError
  unwritable : Text → Option FileError

namespace Faults

def none : Faults :=
  ⟨fun _ => .none, fun _ => .none, fun _ => .none, fun _ => .none⟩

/-- What stands behind a path, as far as it can be seen. -/
def inspect (faults : Faults) (files : FileTree) (path : Text) : Except FileError FileKind :=
  (faults.seen path).getD ((files.lookup path).map .ofEntry)

/-- The size of a file, as it is stated. -/
def size (faults : Faults) (files : FileTree) (path : Text) : Except FileError Nat :=
  (faults.stated path).getD ((files.read path).map ByteArray.size)

/-- The content of a file that can be read. -/
def read (faults : Faults) (files : FileTree) (path : Text) : Except FileError ByteArray :=
  match faults.unreadable path with
  | some cause => .error cause
  | .none => files.read path

/-- Creates or replaces a file that can be written. -/
def write (faults : Faults) (files : FileTree) (path : Text) (content : ByteArray) :
    Except FileError FileTree :=
  match faults.unwritable path with
  | some cause => .error cause
  | .none => files.write path content

end Faults

instance {m : Type → Type} [Monad m] [Platform m] : Platform (ReaderT Faults m) where
  inspect path faults :=
    match faults.seen path with
    | some seen => pure seen
    | none => Platform.inspect path
  size path faults :=
    match faults.stated path with
    | some stated => pure stated
    | none => Platform.size path
  read path faults :=
    match faults.unreadable path with
    | some cause => pure (.error cause)
    | none => Platform.read path
  write path content faults :=
    match faults.unwritable path with
    | some cause => pure (.error cause)
    | none => Platform.write path content
  readInput most _ := Platform.readInput most
  print text _ := Platform.print text
  tell line _ := Platform.tell line

/-- A run of a program in surroundings that are a value, with faults. -/
abbrev FaultySession := ReaderT Faults Session

/-- What comes of a program, and of the surroundings. -/
def Faults.run {α : Type} (faults : Faults) (program : FaultySession α) (world : World) :
    α × World :=
  (ReaderT.run program faults).run world

end CleanSvg
