import CleanSvg.Config.Basic

/-!
# Arguments of the command line

An argument is a flag, an option with a value, or the path of the input.  The
value of an option stands in the same argument or in the next one; such a value
is checked only when the argument after it is taken in, so that an argument
nobody knows is reported before a value that does not fit.
-/

namespace CleanSvg

/-- What the arguments ask for. -/
structure Arguments where
  input : Option Text
  output : Option Text
  config : Option Text
  maxBytes : Option Nat
  report : Bool
  verbose : Bool
deriving DecidableEq, Repr

/-- Why arguments are not carried out as they stand. -/
inductive ArgumentError
  | unknownArgument
  | invalidValue
  | valueValidation
  | argumentConflict
  | tooManyValues
  | displayHelp
  | displayVersion
deriving DecidableEq, Repr

def ArgumentError.usage : Text :=
  "Usage: svgscrub [INPUT] [-o FILE] [--report] [--max-bytes BYTES] [-v] [--config FILE]"

/-- The answer to arguments that are not carried out. -/
def ArgumentError.message : ArgumentError → Text
  | .unknownArgument => "error: unexpected argument\n".toList ++ usage
  | .invalidValue => "error: an option has no value\n".toList ++ usage
  | .valueValidation => "error: a number of bytes is not valid\n".toList ++ usage
  | .argumentConflict => "error: an argument is given twice\n".toList ++ usage
  | .tooManyValues => "error: a flag takes no value\n".toList ++ usage
  | .displayHelp => usage
  | .displayVersion => "svgscrub 0.1.0"

/-- Whether the arguments ask for nothing but information. -/
def ArgumentError.isRequest : ArgumentError → Bool
  | .displayHelp | .displayVersion => true
  | _ => false

namespace Arguments

def none : Arguments :=
  ⟨.none, .none, .none, .none, false, false⟩

/-- Lets the arguments win over the configuration. -/
def override (arguments : Arguments) (config : Config) : Config where
  maxInputBytes := arguments.maxBytes.getD config.maxInputBytes
  report := arguments.report || config.report

/-- What takes a value: the input, and the options. -/
inductive Setting
  | input
  | output
  | config
  | maxBytes
deriving DecidableEq, Repr

inductive Flag
  | report
  | verbose
  | help
  | version
deriving DecidableEq, Repr

inductive Name
  | setting (setting : Setting)
  | flag (flag : Flag)
deriving DecidableEq, Repr

/-- What a name after two hyphens stands for. -/
def Name.ofLong? (name : Text) : Option Name :=
  if name = "output" then some (.setting .output)
  else if name = "config" then some (.setting .config)
  else if name = "max-bytes" then some (.setting .maxBytes)
  else if name = "report" then some (.flag .report)
  else if name = "verbose" then some (.flag .verbose)
  else if name = "help" then some (.flag .help)
  else if name = "version" then some (.flag .version)
  else .none

def Name.ofShort? (letter : Char) : Option Name :=
  if letter = 'o' then some (.setting .output)
  else if letter = 'v' then some (.flag .verbose)
  else if letter = 'h' then some (.flag .help)
  else if letter = 'V' then some (.flag .version)
  else .none

/-- A number of bytes: decimal digits, of 64 bits, after at most one plus sign. -/
def bytes? (value : Text) : Option Nat :=
  let digits :=
    match value with
    | '+' :: digits => digits
    | digits => digits
  if digits.isEmpty then .none else JsonValue.natural64? digits

/-- A path, which is never empty. -/
def path (value : Text) : Except ArgumentError Text :=
  if value.isEmpty then .error .invalidValue else .ok value

/-- Gives a setting its value, which it takes once. -/
def set (arguments : Arguments) (setting : Setting) (value : Text) :
    Except ArgumentError Arguments :=
  match setting with
  | .input =>
      if arguments.input.isSome then .error .argumentConflict
      else do .ok { arguments with input := some (← path value) }
  | .output =>
      if arguments.output.isSome then .error .argumentConflict
      else do .ok { arguments with output := some (← path value) }
  | .config =>
      if arguments.config.isSome then .error .argumentConflict
      else do .ok { arguments with config := some (← path value) }
  | .maxBytes =>
      if arguments.maxBytes.isSome then .error .argumentConflict
      else
        match bytes? value with
        | some bytes => .ok { arguments with maxBytes := some bytes }
        | .none => .error .valueValidation

/-- Raises a flag, which goes once. -/
def raise (arguments : Arguments) (flag : Flag) : Except ArgumentError Arguments :=
  match flag with
  | .report =>
      if arguments.report then .error .argumentConflict else .ok { arguments with report := true }
  | .verbose =>
      if arguments.verbose then .error .argumentConflict
      else .ok { arguments with verbose := true }
  | .help => .error .displayHelp
  | .version => .error .displayVersion

/-- Arguments on the way: those taken in, and a setting that is not taken in yet, with its
value once that has come. -/
structure Reading where
  taken : Arguments
  pending : Option (Setting × Option Text)
deriving DecidableEq, Repr

namespace Reading

/-- Takes in the pending setting. -/
def resolve (reading : Reading) : Except ArgumentError Arguments :=
  match reading.pending with
  | .none => .ok reading.taken
  | some (_, .none) => .error .invalidValue
  | some (setting, some value) => reading.taken.set setting value

def flag (reading : Reading) (flag : Flag) : Except ArgumentError Reading := do
  let settled ← reading.resolve
  .ok ⟨← settled.raise flag, .none⟩

/-- Takes in an option with its value. -/
def option (reading : Reading) (setting : Setting) (value : Text) :
    Except ArgumentError Reading := do
  let settled ← reading.resolve
  .ok ⟨← settled.set setting value, .none⟩

def await (reading : Reading) (setting : Setting) (value : Option Text) :
    Except ArgumentError Reading := do
  .ok ⟨← reading.resolve, some (setting, value)⟩

def hasInput (reading : Reading) : Bool :=
  reading.taken.input.isSome || (reading.pending.map Prod.fst) == some .input

/-- Takes an argument as the path of the input. -/
def positional (reading : Reading) (argument : Text) : Except ArgumentError Reading :=
  if reading.hasInput then .error .unknownArgument
  else reading.await .input (some argument)

/-- Takes in what follows two hyphens. -/
def long (reading : Reading) (body : Text) : Except ArgumentError Reading :=
  let name := body.takeWhile (· != '=')
  match Name.ofLong? name, body.dropWhile (· != '=') with
  | .none, _ => .error .unknownArgument
  | some (.flag flag), [] => reading.flag flag
  | some (.flag _), _ :: _ => .error .tooManyValues
  | some (.setting setting), [] => reading.await setting .none
  | some (.setting setting), _ :: value => reading.option setting value

/-- Takes in the letters that follow one hyphen.  What stands behind the letter of an option
is its value, with or without an equals sign. -/
def short (reading : Reading) : Text → Except ArgumentError Reading
  | [] => .ok reading
  | letter :: others =>
      match Name.ofShort? letter, others with
      | .none, _ => .error .unknownArgument
      | some (.flag flag), _ => do (← reading.flag flag).short others
      | some (.setting setting), [] => reading.await setting .none
      | some (.setting setting), '=' :: value => reading.option setting value
      | some (.setting setting), value => reading.option setting value

/-- Takes an argument that is no flag and no option: the value that a pending option waits
for, or the input. -/
def plain (reading : Reading) (argument : Text) : Except ArgumentError Reading :=
  match reading.pending with
  | some (setting, .none) => .ok { reading with pending := some (setting, some argument) }
  | _ => reading.positional argument

/-- Takes in all arguments.  After two hyphens alone, every argument is a path. -/
def run (reading : Reading) : List Text → Except ArgumentError Arguments
  | [] => reading.resolve
  | argument :: others =>
      match argument with
      | ['-', '-'] => do
          let last ← others.foldlM positional reading
          last.resolve
      | '-' :: '-' :: body => do (← reading.long body).run others
      | '-' :: letter :: body => do (← reading.short (letter :: body)).run others
      | argument => do (← reading.plain argument).run others

end Reading

def parse (arguments : List Text) : Except ArgumentError Arguments :=
  Reading.run ⟨Arguments.none, .none⟩ arguments

end Arguments

end CleanSvg
