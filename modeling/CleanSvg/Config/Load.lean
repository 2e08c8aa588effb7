import CleanSvg.Config.Basic
import CleanSvg.Storage.Platform

/-!
# Loading configuration

A configuration file that is missing, unreadable or blank gives the defaults.
One that holds text of another kind gives the defaults too, and is copied aside
first so that nothing written by hand is lost.
-/

namespace CleanSvg

/-- The environment variables that lead to the configuration, and the home directory that the
system keeps for the account. -/
structure Environment where
  configPath : Option Text
  configDirectory : Option Text
  configHome : Option Text
  home : Option Text
  accountHome : Option Text := none
deriving DecidableEq, Repr

/-- The home directory: the one of the variables, or else the one of the account. -/
def Environment.homeDirectory? (environment : Environment) : Option Text :=
  (environment.home.filter (!·.isEmpty)).or (environment.accountHome.filter (!·.isEmpty))

/-- The path of the configuration file.  A relative directory of configurations does not
count. -/
def Environment.configFile? (environment : Environment) : Option Text :=
  match environment.configPath, environment.configDirectory with
  | some path, _ => some path
  | none, some directory => some (Path.join directory "config.json")
  | none, none =>
      match environment.homeDirectory? with
      | none => none
      | some home =>
          let base := (environment.configHome.filter Path.isAbsolute).getD
            (Path.join home ".config")
          some (Path.join (Path.join base "svgscrub") "config.json")

namespace Config

variable {m : Type → Type} [Monad m] [Platform m]

def loadFrom (path : Text) : m (Except FileError Config) := do
  match ← Platform.inspect path with
  | .error .notFound => pure (.ok standard)
  | .error cause => pure (.error cause)
  | .ok _ =>
      match ← Platform.read path with
      | .error _ => pure (.ok standard)
      | .ok bytes =>
          match Text.ofBytes? bytes with
          | none => pure (.ok standard)
          | some text =>
              if Text.allBlank text then pure (.ok standard)
              else
                match ofText? text with
                | some config => pure (.ok config.validate)
                | none => do
                    let _ ← Platform.copy path (Path.backup path)
                    pure (.ok standard)

def load (environment : Environment) : m (Except FileError Config) :=
  match environment.configFile? with
  | some path => loadFrom path
  | none => pure (.ok standard)

end Config

end CleanSvg
