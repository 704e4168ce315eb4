import GuestScript.Machine.Step

/-!
# Running programs

A program need not end, so a run is given fuel, one unit for each step, and has no answer if the
fuel is used up first. More fuel never changes an answer. The other definitions are the ways to
start a run: a call of a routine or a closure, the construction of an object, the enumeration of a
sequence, and a host function called from outside.
-/

namespace GuestScript.Machine

open Bytecode (RoutineIndex TypeIndex)

/-- Run from a state to the end. -/
def run (program : Program) : Nat → State → Option Ending
  | 0, _ => none
  | fuel + 1, state =>
      match step program state with
      | .ended ending => some ending
      | .running next => run program fuel next

namespace Program

/-- Do one thing to the end, with no call active. -/
def perform (program : Program) (fuel : Nat) (control : Control) (world : World) :
    Option Ending :=
  run program fuel ⟨control, [], world⟩

/-- Call a routine. -/
def call (program : Program) (fuel : Nat) (routine : RoutineIndex) (arguments : List Value)
    (world : World) : Option Ending :=
  program.perform fuel (.call routine arguments) world

/-- Call a closure. -/
def callClosure (program : Program) (fuel : Nat) (closure : Closure) (arguments : List Value)
    (world : World) : Option Ending :=
  program.perform fuel (Machine.callClosure closure arguments) world

/-- Make an object of a type. -/
def construct (program : Program) (fuel : Nat) (type : TypeIndex) (world : World) :
    Option Ending :=
  program.perform fuel (.construct type) world

/-- Enumerate a sequence; the answer is the array of its elements. -/
def force (program : Program) (fuel : Nat) (source : List Value) (stages : List Stage)
    (world : World) : Option Ending :=
  program.perform fuel (.enumerate source [] stages .array) world

/-- Call a host function from outside. -/
def callHost (program : Program) (fuel : Nat) (action : HostAction) (arguments : List Value)
    (world : World) : Option (Except HostFailure Value × World) :=
  match action.reply arguments world with
  | .value value world => some (.ok value, world)
  | .refuse error => some (.error (.refused error), world)
  | .fault fault => some (.error (.fault fault), world)
  | .enumerate source stages goal =>
      match program.perform fuel (.enumerate source [] stages goal) world with
      | none => none
      | some ⟨.ok value, world⟩ => some (.ok value, world)
      | some ⟨.error fault, world⟩ => some (.error (.fault fault), world)

end Program

end GuestScript.Machine
