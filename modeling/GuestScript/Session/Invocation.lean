import GuestScript.Compile.Unit
import GuestScript.Machine.Run
import GuestScript.Session.Contexts

/-!
# Invoking entries

The entry of a loaded program is found by the names that the compiler gave it, whoever may call it,
and has to be bound the way the compiler said. It is called with the array of the program's
arguments, on a new object if it is a method. An integer that it returns is the exit value.
-/

namespace GuestScript

namespace Session

open Bytecode (Binding Image RoutineIndex TypeIndex)
open Compile (EntryBinding EntryPoint)
open Machine (Ending Fault Program Value World)

/-- Why the entry of a program cannot be found. -/
inductive EntryError where
  | undescribed
  | typeNotFound (typeName : String)
  | methodNotFound (typeName method : String)
  | bindingMismatch (typeName method : String) (expected : EntryBinding) (found : Binding)
  deriving DecidableEq

/-- The message of an entry error. -/
def EntryError.message : EntryError → String
  | .undescribed => "no entry point was described for this module"
  | .typeNotFound typeName => "type " ++ typeName ++ " not found in the loaded module"
  | .methodNotFound typeName method => "method " ++ method ++ " not found on " ++ typeName
  | .bindingMismatch typeName method expected found =>
      typeName ++ "." ++ method ++ " was described as " ++ expected.text ++ " but is bound as "
        ++ found.text

/-- Why an invocation gives no result. -/
inductive InvokeError where
  | unloaded (identity : String)
  | entry (error : EntryError)
  | runtime (entry : String) (fault : Fault)
  deriving DecidableEq

namespace InvokeError

/-- The message of an invocation error. -/
def message : InvokeError → String
  | .unloaded identity => "context " ++ identity ++ " has been unloaded"
  | .entry error => error.message
  | .runtime name _ => name ++ " faulted"

/-- The messages of what lies behind an invocation error. -/
def causes : InvokeError → List String
  | .runtime _ fault => fault.message :: fault.causes
  | _ => []

end InvokeError

/-- Whether a routine is bound the way an entry says. -/
def bindingAgrees : EntryBinding → Binding → Bool
  | .static, .static => true
  | .onInstance, .onInstance => true
  | _, _ => false

/-- The type and the routine of an entry. -/
def findEntry (image : Image) (entry : EntryPoint) :
    Except EntryError (TypeIndex × RoutineIndex) :=
  let typeName := entry.fullTypeName
  match image.findType? typeName with
  | none => .error (.typeNotFound typeName)
  | some type =>
      match image.findMethod? type entry.method with
      | none => .error (.methodNotFound typeName entry.method)
      | some index =>
          match image.routines[index]? with
          | none => .error (.methodNotFound typeName entry.method)
          | some routine =>
              if bindingAgrees entry.binding routine.binding then .ok (type, index)
              else .error (.bindingMismatch typeName entry.method entry.binding routine.binding)

/-- Run the entry of a program. -/
def runEntry (fuel : Nat) (program : Program) (entry : EntryBinding) (type : TypeIndex)
    (routine : RoutineIndex) (arguments : List String) (world : World) : Option Ending :=
  let vector : Value := .array (arguments.map .str)
  match entry with
  | .static => program.call fuel routine [vector] world
  | .onInstance =>
      match program.construct fuel type world with
      | some ⟨.ok object, world⟩ => program.call fuel routine [object, vector] world
      | other => other

/-- The exit value that a returned value is. -/
def exitValue : Value → Option Int64
  | .int value => some value
  | _ => none

/-- Invoke the entry of a context. There is no answer if the program uses up its fuel. -/
def Host.invoke (fuel : Nat) (host : Host) (key : ContextKey) (entry : EntryPoint)
    (arguments : List String) : Option (Except InvokeError (Option Int64) × Host) :=
  match host.context? key with
  | none => some (.error (.unloaded ""), host)
  | some context =>
      if context.isLoaded then
        match findEntry context.program.image entry with
        | .error error => some (.error (.entry error), host)
        | .ok (type, routine) =>
            let world : World := .fresh host.console
            match runEntry fuel context.program entry.binding type routine arguments world with
            | none => none
            | some ending =>
                let host := { host with console := ending.world.console }
                match ending.result with
                | .ok value => some (.ok (exitValue value), host)
                | .error fault =>
                    let name := entry.fullTypeName ++ "." ++ entry.method
                    some (.error (.runtime name fault), host)
      else some (.error (.unloaded context.identity), host)

end Session

end GuestScript
