import CleanSvg.CommandLine.Run
import CleanSvg.Proofs.Config.Load

/-!
# Runs without faults

A program meets its surroundings only through their operations.  Where no
operation meets a fault, a run is therefore one in a session, function by
function.
-/

namespace CleanSvg.Program

theorem run_none_loadConfig (environment : Environment) (arguments : Arguments) :
    ReaderT.run (loadConfig environment arguments) Faults.none =
      (loadConfig environment arguments : Session _) := by
  unfold loadConfig
  cases arguments.config with
  | some path =>
      simp only [ReaderT.run_bind, Config.run_none_loadFrom]
      rfl
  | none =>
      simp only [Config.load]
      cases environment.configFile? with
      | some path =>
          simp only [ReaderT.run_bind, Config.run_none_loadFrom]
          rfl
      | none => rfl

theorem run_none_readText (path : Text) :
    ReaderT.run (readText path) Faults.none = (readText path : Session _) := by
  simp only [readText, ReaderT.run_bind]
  refine bind_congr fun read => ?_
  split
  · rfl
  · rfl
  · rfl
  · split <;> rfl

theorem run_none_readInput (limit : Nat) (path : Option Text) :
    ReaderT.run (readInput limit path) Faults.none = (readInput limit path : Session _) := by
  unfold readInput
  split
  · simp only [readFile, ReaderT.run_bind]
    refine bind_congr fun seen => ?_
    split
    · rfl
    · rfl
    · rfl
    · simp only [ReaderT.run_bind]
      refine bind_congr fun stated => ?_
      split
      · exact run_none_readText _
      · split
        · rfl
        · exact run_none_readText _
  · simp only [readStandardInput, ReaderT.run_bind]
    refine bind_congr fun bytes => ?_
    split
    · rfl
    · split <;> rfl

theorem run_none_writeOutput (path : Option Text) (svg : Text) :
    ReaderT.run (writeOutput path svg) Faults.none = (writeOutput path svg : Session _) := by
  unfold writeOutput
  split
  · simp only [ReaderT.run_bind]
    refine bind_congr fun written => ?_
    split <;> rfl
  · rfl

/-- Without faults a run is one in a session. -/
theorem run_none (environment : Environment) (arguments : Arguments) :
    ReaderT.run (run environment arguments) Faults.none =
      (run environment arguments : Session _) := by
  rw [run, run, ReaderT.run_bind, run_none_loadConfig]
  refine bind_congr fun loaded => ?_
  cases loaded with
  | error cause => rfl
  | ok config =>
      simp only [ReaderT.run_bind, run_none_readInput]
      refine bind_congr fun document => ?_
      cases document with
      | error failure => rfl
      | ok text =>
          simp only
          split
          · rfl
          · simp only [ReaderT.run_bind, run_none_writeOutput]
            refine bind_congr fun written => ?_
            split
            · rfl
            · split <;> rfl

end CleanSvg.Program
