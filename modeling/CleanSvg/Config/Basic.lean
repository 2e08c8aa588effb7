import CleanSvg.Config.Json

/-!
# Configuration

A configuration has a limit on the size of documents and says whether to print
a report.  What a configuration text leaves out has its default; what it says
twice, or with a value of the wrong kind, makes the whole text unusable.
-/

namespace CleanSvg

/-- The settings that a configuration file can give. -/
structure Config where
  maxInputBytes : Nat
  report : Bool
deriving DecidableEq, Repr

namespace Config

def defaultLimit : Nat :=
  10 * 1024 * 1024

def limitCeiling : Nat :=
  256 * 1024 * 1024

/-- The settings when nothing else is said. -/
def standard : Config :=
  ⟨defaultLimit, false⟩

/-- Puts a limit that is out of range back to the default. -/
def validate (config : Config) : Config :=
  if config.maxInputBytes = 0 ∨ limitCeiling < config.maxInputBytes then
    { config with maxInputBytes := defaultLimit }
  else config

theorem validate_range (config : Config) :
    0 < config.validate.maxInputBytes ∧ config.validate.maxInputBytes ≤ limitCeiling := by
  unfold validate
  split
  · show 0 < defaultLimit ∧ defaultLimit ≤ limitCeiling
    decide
  · omega

/-- The settings that a text has given so far. -/
structure Given where
  maxInputBytes : Option Nat
  report : Option Bool

/-- The settings of a text, with defaults for what it left out. -/
def Given.complete (given : Given) : Config :=
  ⟨given.maxInputBytes.getD defaultLimit, given.report.getD false⟩

/-- A value that fits the limit: a natural number of 64 bits. -/
def limit? : JsonValue → Option Nat
  | .number spelling => JsonValue.natural64? spelling
  | _ => none

def flag? : JsonValue → Option Bool
  | .boolean value => some value
  | _ => none

/-- Takes in one field.  Unknown names are passed over; a known name comes once. -/
def Given.field? (given : Given) (field : Text × JsonValue) : Option Given := do
  let name ← JsonValue.decodeString? field.1
  if name = "max_input_bytes" then
    if given.maxInputBytes.isSome then none
    else do
      let limit ← limit? field.2
      some { given with maxInputBytes := some limit }
  else if name = "report" then
    if given.report.isSome then none
    else do
      let flag ← flag? field.2
      some { given with report := some flag }
  else some given

/-- The settings of a JSON value: an object with names, or an array in the order of the
settings. -/
def ofJson? : JsonValue → Option Config
  | .object fields => (fields.foldlM Given.field? ⟨none, none⟩).map Given.complete
  | .array [] => some standard
  | .array [limit] => do
      let maxInputBytes ← limit? limit
      some ⟨maxInputBytes, false⟩
  | .array [limit, flag] => do
      let maxInputBytes ← limit? limit
      let report ← flag? flag
      some ⟨maxInputBytes, report⟩
  | _ => none

/-- The settings of a configuration text, before they are validated. -/
def ofText? (text : Text) : Option Config := do
  ofJson? (← JsonValue.ofText? text)

def toJsonText (config : Config) : Text :=
  "\x7b\"max_input_bytes\":".toList ++ Text.ofNat config.maxInputBytes ++
    ",\"report\":".toList ++ (if config.report then "true" else "false").toList ++ ['\x7d']

end Config

end CleanSvg
