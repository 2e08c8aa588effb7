import CleanSvg.CommandLine.Arguments
import CleanSvg.Config.Load
import CleanSvg.Sanitize.Document

/-!
# Cleaning one document from the command line

The input is read, cleaned and written.  Three things can come of it: the
document is written, it is refused and nothing is written, or the files do not
allow it.  Each has its exit status.
-/

namespace CleanSvg

/-- Why a run fails outside the cleaning of the document. -/
inductive Failure
  | configuration (cause : FileError)
  | inputNotFound (path : Text)
  | inputNotFile (path : Text)
  | inputTooLarge (size limit : Nat) (path : Text)
  | inputDenied (path : Text)
  | inputNotText (path : Text)
  | inputUnreadable (path : Text) (cause : FileError)
  | standardInputTooLarge (limit : Nat)
  | standardInputNotText
  | outputNotWritten (path : Text) (cause : FileError)
deriving DecidableEq, Repr

def Failure.message : Failure → Text
  | .configuration cause => cause.message
  | .inputNotFound path => "ファイルが見つかりません: ".toList ++ path
  | .inputNotFile path => "指定されたパスはファイルではありません: ".toList ++ path
  | .inputTooLarge size limit path =>
      "入力が大きすぎます (".toList ++ Text.ofNat size ++ " バイト、上限 ".toList ++
        Text.ofNat limit ++ " バイト): ".toList ++ path
  | .inputDenied path => "ファイルへのアクセス権限がありません: ".toList ++ path
  | .inputNotText path =>
      "ファイルのエンコーディングが無効です (UTF-8ではありません): ".toList ++ path
  | .inputUnreadable path cause =>
      "ファイル読み込みエラー: ".toList ++ path ++ " - ".toList ++ cause.message
  | .standardInputTooLarge limit =>
      "標準入力が大きすぎます (上限 ".toList ++ Text.ofNat limit ++ " バイト)".toList
  | .standardInputNotText => "標準入力のエンコーディングが無効です (UTF-8ではありません)"
  | .outputNotWritten path cause =>
      "ファイルの書き込みに失敗しました: ".toList ++ path ++ " - ".toList ++ cause.message

/-- What came of a document. -/
inductive Outcome
  /-- It was cleaned and written. -/
  | written (report : Report)
  /-- It was refused, and nothing was written. -/
  | rejected (cause : SanitizeError)
deriving DecidableEq, Repr

def Outcome.isSuccess : Outcome → Bool
  | .written _ => true
  | .rejected _ => false

def exitCode : Except Failure Outcome → Nat
  | .ok (.written _) => 0
  | .ok (.rejected _) => 1
  | .error _ => 2

def Report.line (report : Report) : Text :=
  if report.isClean then "変更なし"
  else
    "削除された要素: ".toList ++ Text.ofNat report.removedElements ++
      ", 削除された属性: ".toList ++ Text.ofNat report.removedAttributes ++
      ", 書き換えられた値: ".toList ++ Text.ofNat report.rewrittenValues

/-- The path of a file; no path and a lone hyphen stand for a standard stream. -/
def filePath? (path : Option Text) : Option Text :=
  path.filter (· != "-".toList)

namespace Program

variable {m : Type → Type} [Monad m] [Platform m]

/-- Loads the configuration that the arguments or the environment lead to, and lets the
arguments win over it. -/
def loadConfig (environment : Environment) (arguments : Arguments) :
    m (Except FileError Config) := do
  let loaded ←
    match arguments.config with
    | some path => Config.loadFrom path
    | none => Config.load environment
  pure (loaded.map arguments.override)

def readText (path : Text) : m (Except Failure Text) := do
  match ← Platform.read path with
  | .error .notFound => pure (.error (.inputNotFound path))
  | .error .permissionDenied => pure (.error (.inputDenied path))
  | .error cause => pure (.error (.inputUnreadable path cause))
  | .ok bytes =>
      match Text.ofBytes? bytes with
      | some text => pure (.ok text)
      | none => pure (.error (.inputNotText path))

/-- Reads the document from a file of at most `limit` bytes.  A file that does not tell its
size is read all the same. -/
def readFile (limit : Nat) (path : Text) : m (Except Failure Text) := do
  match ← Platform.inspect path with
  | .error _ => pure (.error (.inputNotFound path))
  | .ok .directory | .ok .special => pure (.error (.inputNotFile path))
  | .ok .regular =>
      match ← Platform.size path with
      | .error _ => readText path
      | .ok size =>
          if limit < size then pure (.error (.inputTooLarge size limit path))
          else readText path

/-- Reads the document from the standard input.  One byte past the limit is enough to tell
that there is too much. -/
def readStandardInput (limit : Nat) : m (Except Failure Text) := do
  let bytes ← Platform.readInput (limit + 1)
  if limit < bytes.size then pure (.error (.standardInputTooLarge limit))
  else
    match Text.ofBytes? bytes with
    | some text => pure (.ok text)
    | none => pure (.error .standardInputNotText)

def readInput (limit : Nat) (path : Option Text) : m (Except Failure Text) :=
  match filePath? path with
  | some path => readFile limit path
  | none => readStandardInput limit

def writeOutput (path : Option Text) (svg : Text) : m (Except Failure Unit) := do
  match filePath? path with
  | some path =>
      match ← Platform.write path svg.toBytes with
      | .ok () => pure (.ok ())
      | .error cause => pure (.error (.outputNotWritten path cause))
  | none => do
      Platform.print svg
      pure (.ok ())

/-- Reads, cleans and writes one document. -/
def run (environment : Environment) (arguments : Arguments) : m (Except Failure Outcome) := do
  match ← loadConfig environment arguments with
  | .error cause => pure (.error (.configuration cause))
  | .ok config =>
      match ← readInput config.maxInputBytes arguments.input with
      | .error cause => pure (.error cause)
      | .ok text =>
          match sanitizeWithin (some config.maxInputBytes) text with
          | .error cause => do
              Platform.tell ("SVGを無害化できませんでした: ".toList ++ cause.message)
              pure (.ok (.rejected cause))
          | .ok sanitized =>
              match ← writeOutput arguments.output sanitized.svg with
              | .error cause => pure (.error cause)
              | .ok () => do
                  if config.report then Platform.tell sanitized.report.line
                  pure (.ok (.written sanitized.report))

/-- Runs and says why, if the run fails; the value is the exit status. -/
def execute (environment : Environment) (arguments : Arguments) : m Nat := do
  let result ← run environment arguments
  match result with
  | .error cause => Platform.tell ("エラー: ".toList ++ cause.message)
  | .ok _ => pure ()
  pure (exitCode result)

end Program

end CleanSvg
