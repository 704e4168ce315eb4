import GuestScript.Bytecode.Verify
import GuestScript.Machine.Value

/-!
# Faults

Why a run ends without a value. A `HostError` is a host function refusing its arguments or failing
to write; the machine wraps it with the name of the function. Every error has a message and the
messages of what lies behind it.
-/

namespace GuestScript.Machine

open Bytecode (RoutineIndex TypeIndex ImportIndex)

/-- Why a host function gives no value. -/
inductive HostError where
  | arity (expected found : Nat)
  | argument (index : Nat) (mismatch : Mismatch)
  | output (reason : String)
  deriving DecidableEq

namespace HostError

/-- The message of a host error. -/
def message : HostError → String
  | .arity expected found => s!"expected {expected} arguments, found {found}"
  | .argument index mismatch => s!"argument {index}: " ++ mismatch.text
  | .output reason => "console write failed: " ++ reason

/-- The messages of what lies behind a host error. -/
def causes : HostError → List String
  | .arity .. => []
  | .argument _ mismatch => [mismatch.text]
  | .output reason => [reason]

end HostError

/-- Why a run ends without a value. An image that was verified never causes `slotOutOfRange`. -/
inductive Fault where
  | emptyStack
  | typeMismatch (mismatch : Mismatch)
  | divisionByZero
  | overflow (symbol : String)
  | indexOutOfBounds (index : Int64) (length : Nat)
  | explicitPanic (message : String)
  | tooDeep (limit : Nat)
  | host (function : String) (error : HostError)
  | missingField (typeName : String) (field : Nat)
  | notIterable (found : Kind)
  | arity (routine : String) (expected found : Nat)
  | missingRoutine (routine : RoutineIndex)
  | missingType (type : TypeIndex)
  | missingImport (imported : ImportIndex)
  | slotOutOfRange (slot : Nat)
  deriving DecidableEq

namespace Fault

/-- The message of a fault. -/
def message : Fault → String
  | .emptyStack => "operand stack empty"
  | .typeMismatch mismatch => "type mismatch: " ++ mismatch.text
  | .divisionByZero => "division by zero"
  | .overflow symbol => "integer overflow in `" ++ symbol ++ "`"
  | .indexOutOfBounds index length =>
      "index out of bounds: " ++ toString index.toInt ++ ", length: " ++ toString length
  | .explicitPanic message => "explicit panic: " ++ message
  | .tooDeep limit => s!"call depth limit of {limit} exceeded"
  | .host function error => "in native function " ++ function ++ ": " ++ error.message
  | .missingField typeName field => s!"field {field} does not exist on " ++ typeName
  | .notIterable found => "`for` over a " ++ found.text ++ " value"
  | .arity routine expected found => routine ++ s!" takes {expected} arguments, got {found}"
  | .missingRoutine routine => "function " ++ Bytecode.routineText routine ++ " does not exist"
  | .missingType type => "type " ++ Bytecode.typeText type ++ " does not exist"
  | .missingImport imported => "import " ++ Bytecode.importText imported ++ " is not linked"
  | .slotOutOfRange slot => s!"local slot {slot} does not exist"

/-- The messages of what lies behind a fault. -/
def causes : Fault → List String
  | .typeMismatch mismatch => [mismatch.text]
  | .host _ error => error.message :: error.causes
  | _ => []

end Fault

/-- Take a conversion for a step of the machine. -/
def orMismatch {Target : Type} : Except Mismatch Target → Except Fault Target
  | .ok value => .ok value
  | .error mismatch => .error (.typeMismatch mismatch)

/-- Why a host function that is called directly gives no value: it refused, or the program that it
called back ended with a fault. -/
inductive HostFailure where
  | refused (error : HostError)
  | fault (fault : Fault)
  deriving DecidableEq

namespace HostFailure

/-- The message of a failed host call. -/
def message : HostFailure → String
  | .refused error => error.message
  | .fault inner => inner.message

/-- The messages of what lies behind a failed host call. -/
def causes : HostFailure → List String
  | .refused error => error.causes
  | .fault inner => inner.causes

end HostFailure

end GuestScript.Machine
