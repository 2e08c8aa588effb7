import CleanSvg.Storage.Path

/-!
# Trees of files

A tree says what stands at each location below the working directory.  A path
is followed name by name, and every name but the last has to lead to a
directory.  Writing puts one entry in place and leaves every other.
-/

namespace CleanSvg

/-- Why a file cannot be reached, read or written. -/
inductive FileError
  | notFound
  | notDirectory
  | isDirectory
  | nameTooLong
  | nulInName
  | permissionDenied
  | other (message : Text)
deriving DecidableEq, Repr

def FileError.message : FileError → Text
  | .notFound => "No such file or directory (os error 2)"
  | .notDirectory => "Not a directory (os error 20)"
  | .isDirectory => "Is a directory (os error 21)"
  | .nameTooLong => "File name too long (os error 36)"
  | .nulInName => "file name contained an unexpected NUL byte"
  | .permissionDenied => "Permission denied (os error 13)"
  | .other message => message

inductive Entry
  | file (content : ByteArray)
  | directory

/-- A place for a file: the names on the way to it from the working directory.  Names `..` at
the beginning lead above that directory, and a slash leads to the root. -/
abbrev Location := List Text

namespace Location

/-- Whether a location is the working directory, one above it, or the root. -/
def isAncestor (location : Location) : Bool :=
  location == ["/".toList] || location.all (· == "..".toList)

def parent (location : Location) : Location :=
  if location = ["/".toList] then location
  else if isAncestor location then location ++ ["..".toList]
  else location.dropLast

end Location

/-- What stands below the working directory. -/
structure FileTree where
  entries : List (Location × Entry)

namespace FileTree

/-- The longest name of a file, and the longest path, in bytes. -/
def nameLimit : Nat := 255

@[inherit_doc nameLimit] def pathLimit : Nat := 4095

def get? (tree : FileTree) (location : Location) : Option Entry :=
  if location.isAncestor then some .directory
  else (tree.entries.find? fun candidate => candidate.1 == location).map Prod.snd

/-- A tree with another entry at a location. -/
def put (tree : FileTree) (location : Location) (entry : Entry) : FileTree :=
  ⟨(location, entry) :: tree.entries.filter fun candidate => candidate.1 != location⟩

/-- Follows one name from a directory. -/
def follow (tree : FileTree) (here : Location) (name : Text) : Except FileError Location :=
  match tree.get? here with
  | none => .error .notFound
  | some (.file _) => .error .notDirectory
  | some .directory =>
      if name = "" ∨ name = "." then .ok here
      else if name = ".." then .ok here.parent
      else if nameLimit < Text.byteSize name then .error .nameTooLong
      else .ok (here ++ [name])

/-- Why a text is no path, if it is none. -/
def pathError? (path : Text) : Option FileError :=
  if path.contains '\x00' then some .nulInName
  else if path.isEmpty then some .notFound
  else if pathLimit < Text.byteSize path then some .nameTooLong
  else none

/-- Follows the names of a path one by one. -/
def followAll (tree : FileTree) (path : Text) : Except FileError Location :=
  let start : Location := if Path.isAbsolute path then ["/".toList] else []
  (Path.names path).foldlM tree.follow start

/-- The location that a path leads to; nothing need stand there yet. -/
def locate (tree : FileTree) (path : Text) : Except FileError Location :=
  match pathError? path with
  | some cause => .error cause
  | none => tree.followAll path

def lookup (tree : FileTree) (path : Text) : Except FileError Entry := do
  match tree.get? (← tree.locate path) with
  | some entry => .ok entry
  | none => .error .notFound

/-- The content of a file. -/
def read (tree : FileTree) (path : Text) : Except FileError ByteArray := do
  match ← tree.lookup path with
  | .file content => .ok content
  | .directory => .error .isDirectory

/-- The directory that holds, or would hold, the last name of a path. -/
def locateDirectory (tree : FileTree) (path : Text) : Except FileError Location :=
  tree.followAll (Path.beforeLastName (Path.withoutTrailingSlashes path) ++ ['.'])

/-- The location that writing to a path fills.  A path that ends in a slash asks for a
directory, whatever its last name leads to. -/
def locateTarget (tree : FileTree) (path : Text) : Except FileError Location :=
  match pathError? path with
  | some cause => .error cause
  | none =>
      if path.getLast? = some '/' then do
        let _ ← tree.locateDirectory path
        .error .isDirectory
      else do
        let location ← tree.followAll path
        match tree.get? location with
        | some .directory => .error .isDirectory
        | _ => .ok location

/-- Creates or replaces a file. -/
def write (tree : FileTree) (path : Text) (content : ByteArray) : Except FileError FileTree := do
  .ok (tree.put (← tree.locateTarget path) (.file content))

theorem get?_put_self (tree : FileTree) {location : Location} (entry : Entry)
    (inside : location.isAncestor = false) :
    (tree.put location entry).get? location = some entry := by
  simp [put, get?, inside]

theorem get?_put_other (tree : FileTree) {location other : Location} (entry : Entry)
    (different : other ≠ location) :
    (tree.put location entry).get? other = tree.get? other := by
  unfold put get?
  split
  · rfl
  · have apart : (location == other) = false := by
      simpa using fun same => different same.symm
    rw [List.find?_cons, apart]
    simp only
    congr 1
    rw [List.find?_filter]
    congr 1
    funext candidate
    by_cases here : candidate.1 = other
    · simp [here, different]
    · simp [here]

end FileTree

end CleanSvg
