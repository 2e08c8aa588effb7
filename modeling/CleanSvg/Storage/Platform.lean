import CleanSvg.Storage.FileTree

/-!
# What a program asks of its surroundings

A program reads and writes files, reads the standard input and prints.  It is
written against these few operations and runs in any monad that has them: on a
tree of files that is a plain value, or on the real one.
-/

namespace CleanSvg

inductive FileKind
  | regular
  | directory
  | special
deriving DecidableEq, Repr

/-- The operations of the surroundings. -/
class Platform (m : Type → Type) where
  /-- Says what stands behind a path. -/
  inspect : Text → m (Except FileError FileKind)
  /-- Says how many bytes a file has. -/
  size : Text → m (Except FileError Nat)
  /-- Reads a whole file. -/
  read : Text → m (Except FileError ByteArray)
  /-- Creates or replaces a file. -/
  write : Text → ByteArray → m (Except FileError Unit)
  /-- Reads the standard input, but no more than a number of bytes. -/
  readInput : Nat → m ByteArray
  /-- Prints to the standard output. -/
  print : Text → m Unit
  /-- Prints a line of messages. -/
  tell : Text → m Unit

namespace Text

def toBytes (text : Text) : ByteArray :=
  (String.ofList text).toUTF8

def ofBytes? (bytes : ByteArray) : Option Text :=
  (String.fromUTF8? bytes).map String.toList

end Text

/-- Copies a file: opens the source, empties or creates the target, and fills it. -/
def Platform.copy {m : Type → Type} [Monad m] [Platform m] (source target : Text) :
    m (Except FileError Unit) := do
  match ← Platform.read source with
  | .error cause => pure (.error cause)
  | .ok _ =>
      match ← Platform.write target ByteArray.empty with
      | .error cause => pure (.error cause)
      | .ok () =>
          match ← Platform.read source with
          | .error cause => pure (.error cause)
          | .ok content => Platform.write target content

/-- Surroundings as a value: files, what is still to be read from the standard input, and
what was printed. -/
structure World where
  files : FileTree
  input : ByteArray
  output : ByteArray
  messages : Text

/-- A run of a program in surroundings that are a value. -/
abbrev Session := StateM World

def FileKind.ofEntry : Entry → FileKind
  | .file _ => .regular
  | .directory => .directory

instance : Platform Session where
  inspect path := do
    let world ← get
    pure ((world.files.lookup path).map .ofEntry)
  size path := do
    let world ← get
    pure ((world.files.read path).map ByteArray.size)
  read path := do
    let world ← get
    pure (world.files.read path)
  write path content := do
    let world ← get
    match world.files.write path content with
    | .ok files => do
        set { world with files }
        pure (.ok ())
    | .error cause => pure (.error cause)
  readInput most := modifyGet fun world =>
    (world.input.extract 0 most,
      { world with input := world.input.extract most world.input.size })
  print text := modify fun world => { world with output := world.output ++ text.toBytes }
  tell line := modify fun world => { world with messages := world.messages ++ line ++ ['\n'] }

end CleanSvg
