import CleanSvg.Text.Basic

/-!
# Paths as texts

A path is a text with slashes between names.  This module takes paths apart and
puts them together; it does not look at what they lead to.
-/

namespace CleanSvg.Path

/-- The names of a path: what stands between its slashes, empty names included. -/
def names : Text → List Text
  | [] => [[]]
  | character :: ahead =>
      if character = '/' then [] :: names ahead
      else
        match names ahead with
        | [] => [[character]]
        | first :: others => (character :: first) :: others

def isAbsolute (path : Text) : Bool :=
  path.head? == some '/'

/-- A path from `base` to one of its members. -/
def join (base name : Text) : Text :=
  if base.isEmpty || base.getLast? == some '/' then base ++ name
  else base ++ '/' :: name

def withoutTrailingSlashes (path : Text) : Text :=
  (path.reverse.dropWhile (· == '/')).reverse

def lastName (path : Text) : Text :=
  (path.reverse.takeWhile (· != '/')).reverse

/-- What stands before the last name of a path. -/
def beforeLastName (path : Text) : Text :=
  path.take (path.length - (lastName path).length)

/-- What stands before the last dot of a name, if that is not its first character. -/
def stem? (name : Text) : Option Text :=
  match name.reverse.dropWhile (· != '.') with
  | _ :: before => if before.isEmpty then none else some before.reverse
  | [] => none

/-- The name of a backup: the extension gives way to `bak`.  A name whose stem is a lone dot
has no backup beside it, and leads to the directory above instead. -/
def backupName (name : Text) : Text :=
  match stem? name with
  | none => name ++ ".bak".toList
  | some stem => if stem = "." then ".." else stem ++ ".bak".toList

/-- The path of the backup of a file, in the same directory. -/
def backup (path : Text) : Text :=
  beforeLastName path ++ backupName (lastName path)

end CleanSvg.Path
