import GuestScript.Compilation
import GuestScript.Session.Invocation

/-!
# Running a source from beginning to end

A run compiles a source, loads the image into a context of its own, invokes the entry and unloads
the context, whatever became of the invocation. The trail of a run lists the stages it reached. If
the source does not compile, its diagnostics are written to the console.
-/

namespace GuestScript

namespace Session

open Compile (EntryPoint)
open Machine (Console)

/-- A stage that a run has reached. -/
inductive Stage where
  | created
  | parsed
  | compiledOk
  | compiledFail
  | loaded
  | invoked
  | unloaded
  deriving DecidableEq

/-- The written name of a stage. -/
def Stage.text : Stage → String
  | .created => "Created"
  | .parsed => "Parsed"
  | .compiledOk => "CompiledOk"
  | .compiledFail => "CompiledFail"
  | .loaded => "Loaded"
  | .invoked => "Invoked"
  | .unloaded => "Unloaded"

/-- Whether the exit status of a process shows how a run went, or is always zero. -/
inductive ExitPolicy where
  | reflect
  | legacy
  deriving DecidableEq

/-- What a run is asked for. -/
structure RunConfig where
  compile : CompileOptions := {}
  arguments : List String := ["abc"]
  exitPolicy : ExitPolicy := .reflect

/-- How a run went that the host had no trouble with: the stages, the diagnostics that stopped it,
what tells whether its context has been reclaimed, and the exit value. -/
structure RunReport where
  trail : List Stage
  diagnostics : List (Diagnostic Location)
  unload : Option UnloadHandle
  returned : Option Int64

/-- Whether the source of a run compiled. -/
def RunReport.compiled (report : RunReport) : Bool :=
  report.trail.contains .compiledOk

/-- Why a run has no report. The context of a failed invocation has been unloaded. -/
inductive RunError where
  | compiler (fault : CompilerFault)
  | load (fault : LoadFault)
  | invocation (error : InvokeError) (trail : List Stage) (unload : UnloadHandle)

namespace RunError

/-- The message of a run error. -/
def message : RunError → String
  | .compiler fault => fault.message
  | .load _ => "load failed"
  | .invocation .. => "invocation failed"

/-- The messages of what lies behind a run error. -/
def causes : RunError → List String
  | .compiler fault => fault.causes
  | .load fault => fault.message :: fault.causes
  | .invocation error _ _ => error.message :: error.causes

end RunError

/-- The outcome of a run. -/
abbrev RunOutcome := Except RunError RunReport

/-- The exit status for the outcome of a run. -/
def exitCode (policy : ExitPolicy) (outcome : RunOutcome) : Nat :=
  match policy, outcome with
  | .legacy, _ => 0
  | .reflect, .ok report => if report.compiled then 0 else 1
  | .reflect, .error _ => 2

/-- Write each diagnostic on a line of its own. What cannot be written is lost. -/
def printDiagnostics (console : Console) (diagnostics : List (Diagnostic Location)) : Console :=
  diagnostics.foldl
    (fun console diagnostic ↦
      match console.writeLine diagnostic.text with
      | .ok written => written
      | .error _ => console)
    console

namespace Host

/-- Invoke the entry that a compilation found, if it found one, and note the stage. -/
def invokeEntry (fuel : Nat) (config : RunConfig) (host : Host) (key : ContextKey)
    (entry : Option EntryPoint) :
    Option (Except InvokeError (Option Int64) × List Stage × Host) :=
  match entry with
  | none => some (.error (.entry .undescribed), [], host)
  | some entry =>
      match host.invoke fuel key entry config.arguments with
      | none => none
      | some (outcome, host) => some (outcome, [.invoked], host)

/-- Load a compiled image, invoke its entry and unload it. -/
def runImage (fuel : Nat) (config : RunConfig) (host : Host) (result : CompilationResult) :
    Option (RunOutcome × Host) :=
  match host.load result.image with
  | (.error fault, host) => some (.error (.load fault), host)
  | (.ok key, host) =>
      match host.invokeEntry fuel config key result.entry with
      | none => none
      | some (outcome, stages, host) =>
          let (unload, host) := host.unload key
          let host := host.dropHandle key
          let trail := [.created, .parsed, .compiledOk, .loaded] ++ stages ++ [.unloaded]
          match outcome with
          | .ok returned => some (.ok ⟨trail, [], some unload, returned⟩, host)
          | .error error => some (.error (.invocation error trail unload), host)

/-- Run a source from beginning to end. There is no answer if the program uses up its fuel. -/
def run (fuel : Nat) (config : RunConfig) (resolver : Resolver) (host : Host)
    (source : SourceUnit) : Option (RunOutcome × Host) :=
  let (unitName, host) := host.drawId .unit
  match Compilation.compileSource config.compile unitName source resolver with
  | .error fault => some (.error (.compiler fault), host)
  | .ok result =>
      if result.success then host.runImage fuel config result
      else
        let host := { host with console := printDiagnostics host.console result.diagnostics }
        some (.ok ⟨[.created, .parsed, .compiledFail], result.diagnostics, none, none⟩, host)

/-- Run a source that may use what the table of the host offers. -/
def runWithTable (fuel : Nat) (config : RunConfig) (host : Host) (source : SourceUnit) :
    Option (RunOutcome × Host) :=
  host.run fuel config (Resolver.ofTable host.table) source

end Host

end Session

end GuestScript
