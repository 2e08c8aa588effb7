import CleanSvg.CommandLine.Run

/-!
# The program

The surroundings are the real ones here: files, the standard streams and the
environment.  What the program decides is decided in the modules it imports;
this one only carries it out.
-/

namespace CleanSvg

/-- The number and the wording that the system gives an error. -/
def systemError : IO.Error → UInt32 × String
  | .alreadyExists _ code details
  | .otherError code details
  | .resourceBusy code details
  | .resourceVanished code details
  | .unsupportedOperation code details
  | .hardwareFault code details
  | .unsatisfiedConstraints code details
  | .illegalOperation code details
  | .protocolError code details
  | .timeExpired code details
  | .interrupted _ code details
  | .noFileOrDirectory _ code details
  | .invalidArgument _ code details
  | .permissionDenied _ code details
  | .resourceExhausted _ code details
  | .inappropriateType _ code details
  | .noSuchThing _ code details => (code, details)
  | .unexpectedEof => (0, "unexpected end of file")
  | .userError details => (0, details)

/-- The cause that an error of the system stands for. -/
def FileError.ofSystem (error : IO.Error) : FileError :=
  match systemError error with
  | (2, _) => .notFound
  | (13, _) => .permissionDenied
  | (20, _) => .notDirectory
  | (21, _) => .isDirectory
  | (36, _) => .nameTooLong
  | (0, details) => .other details
  | (code, details) => .other (details ++ " (os error " ++ toString code ++ ")")

/-- Carries out an action of the system, which can fail. -/
def attempt {α : Type} (action : IO α) : IO (Except FileError α) := do
  match ← action.toBaseIO with
  | .ok value => pure (.ok value)
  | .error error => pure (.error (.ofSystem error))

/-- Reads a stream piece by piece, until it ends or as many bytes as wanted are read. -/
partial def readAtMost (stream : IO.FS.Stream) (wanted : Nat) (taken : ByteArray) :
    IO ByteArray := do
  if wanted ≤ taken.size then
    pure taken
  else
    let piece ← stream.read (min 65536 (wanted - taken.size)).toUSize
    if piece.isEmpty then pure taken
    else readAtMost stream wanted (taken ++ piece)

def metadataOf (path : Text) : IO IO.FS.Metadata := do
  (← IO.FS.realPath (String.ofList path)).metadata

instance : Platform IO where
  inspect path := attempt do
    match (← metadataOf path).type with
    | .file => pure .regular
    | .dir => pure .directory
    | _ => pure .special
  size path := attempt do
    pure (← metadataOf path).byteSize.toNat
  read path := attempt (IO.FS.readBinFile (String.ofList path))
  write path content := attempt (IO.FS.writeBinFile (String.ofList path) content)
  readInput most := do
    readAtMost (← IO.getStdin) most ByteArray.empty
  print text := do
    let output ← IO.getStdout
    output.write text.toBytes
    output.flush
  tell line := IO.eprintln (String.ofList line)

/-- The home directory in the entry of an account, found by the account's number among the
entries of all accounts. -/
def homeOfAccount? (number : String) (accounts : String) : Option Text :=
  (accounts.splitOn "\n").findSome? fun entry =>
    match entry.splitOn ":" with
    | [_, _, found, _, _, home, _] => if found = number then some home.toList else none
    | _ => none

/-- The number of the account that a process runs under, in the status of the process. -/
def accountOfStatus? (status : String) : Option String :=
  (status.splitOn "\n").findSome? fun line =>
    match line.splitOn "\t" with
    | "Uid:" :: number :: _ => some number
    | _ => none

/-- The home directory that the system keeps for the account of this process. -/
def currentAccountHome : IO (Option Text) := do
  let status ← attempt (IO.FS.readFile "/proc/self/status")
  let accounts ← attempt (IO.FS.readFile "/etc/passwd")
  match status, accounts with
  | .ok status, .ok accounts =>
      pure ((accountOfStatus? status).bind fun number => homeOfAccount? number accounts)
  | _, _ => pure none

/-- Reads the variables that lead to the configuration, and finds the home of the account. -/
def Environment.current : IO Environment := do
  let variableNamed (name : String) : IO (Option Text) := do
    pure ((← IO.getEnv name).map String.toList)
  pure {
    configPath := ← variableNamed "SVGSCRUB_CONFIG_PATH"
    configDirectory := ← variableNamed "SVGSCRUB_CONFIG_DIR"
    configHome := ← variableNamed "XDG_CONFIG_HOME"
    home := ← variableNamed "HOME"
    accountHome := ← currentAccountHome }

end CleanSvg

open CleanSvg

def main (arguments : List String) : IO UInt32 := do
  match Arguments.parse (arguments.map String.toList) with
  | .error cause =>
      if cause.isRequest then
        Platform.print (cause.message ++ ['\n'])
        pure 0
      else
        Platform.tell cause.message
        pure 2
  | .ok arguments =>
      match ← attempt (do Program.execute (← Environment.current) arguments) with
      | .ok status => pure status.toUInt32
      | .error cause =>
          Platform.tell ("エラー: ".toList ++ cause.message)
          pure 2
