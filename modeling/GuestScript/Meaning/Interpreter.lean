import GuestScript.Machine.Run

/-!
# An interpreter that counts its calls

The same programs run by an interpreter that calls itself: a call inside another is a call of the
interpreter inside another, and a fault makes every one of them return early. What is kept between two
calls is in its state, the world and the number of calls that are active. A call adds one to that number
before it runs its routine and takes one off behind it, so nothing but the order of these steps keeps
the number right. A fault does not undo them, it is a result like any other.

Work leaves a record: each value that the number is given, and each call that is asked for with the
number of calls that are active then. The record is only written, so no result depends on it.

An operation is what can be asked of an interpreter from outside. Work has fuel, one unit for each call
of the interpreter inside another; there is no answer if it is used up.
-/

namespace GuestScript.Meaning

open Bytecode (RoutineIndex TypeIndex)
open Machine (Closure Control Effect Ending Fault HostFailure Program Stage Value World execute
  maxCallDepth orMismatch)

/-- The state of an interpreter: how many calls are active, and the world. -/
structure Interpreter where
  active : Nat
  world : World

/-- A new interpreter in this world. -/
def Interpreter.fresh (world : World) : Interpreter :=
  ⟨0, world⟩

/-- What goes on record: the number of active calls is set, or a call is asked for while so many are
active. -/
inductive Notice where
  | counted (active : Nat)
  | asked (routine : RoutineIndex) (arguments : List Value) (active : Nat)

/-- What has become of some work: the answer, the interpreter afterwards and the record. -/
structure Report (Answer : Type) where
  answer : Answer
  after : Interpreter
  notices : List Notice

/-- Work of an interpreter that gives a result or ends with a fault. -/
def Counting (Result : Type) :=
  Interpreter → Option (Report (Except Fault Result))

namespace Counting

variable {Result Other : Type}

/-- No answer. -/
def unanswered : Counting Result := fun _ ↦ none

/-- Something that is settled without looking at the interpreter. -/
def settled (outcome : Except Fault Result) : Counting Result := fun before ↦
  some ⟨outcome, before, []⟩

/-- Do something in the world. -/
def inWorld (action : World → Except Fault Result × World) : Counting Result := fun before ↦
  some ⟨(action before.world).1, { before with world := (action before.world).2 }, []⟩

/-- Go on with the result of some work; behind a fault nothing more is done. -/
def andThen (work : Counting Result) (next : Result → Counting Other) : Counting Other :=
  fun before ↦
    match work before with
    | none => none
    | some ⟨.error fault, after, notices⟩ => some ⟨.error fault, after, notices⟩
    | some ⟨.ok result, middle, notices⟩ =>
        match next result middle with
        | none => none
        | some ⟨answer, after, later⟩ => some ⟨answer, after, notices ++ later⟩

instance : Monad Counting where
  pure result := settled (.ok result)
  bind := andThen

/-- The number of active calls. -/
def active : Counting Nat := fun before ↦
  some ⟨.ok before.active, before, []⟩

/-- Set the number of active calls. -/
def count (active : Nat) : Counting Unit := fun before ↦
  some ⟨.ok (), { before with active }, [.counted active]⟩

/-- Put a call that is asked for on record. -/
def ask (routine : RoutineIndex) (arguments : List Value) : Counting Unit := fun before ↦
  some ⟨.ok (), before, [.asked routine arguments before.active]⟩

/-- Some work whose fault is its result, so that more is done behind it in any case. -/
def attempt (work : Counting Result) : Counting (Except Fault Result) := fun before ↦
  match work before with
  | none => none
  | some ⟨answer, after, notices⟩ => some ⟨.ok answer, after, notices⟩

/-- Do some work as an active call. -/
def asCall (work : Counting Result) : Counting Result := do
  count ((← active) + 1)
  let answer ← attempt work
  count ((← active) - 1)
  settled answer

end Counting

open Counting

/-- Do one thing to the end. -/
def interpret (program : Program) : Nat → Control → Counting Value
  | 0, _ => unanswered
  | fuel + 1, .run frame =>
      match frame.routine.code[frame.position]? with
      | none => pure .unit
      | some op => do
          let here := frame.goTo (frame.position + 1)
          match ← inWorld fun world ↦ execute program world here op with
          | .next frame => interpret program fuel (.run frame)
          | .await frame control => do
              let value ← interpret program fuel control
              interpret program fuel (.run (frame.push value))
          | .leave value => pure value
  | fuel + 1, .call index arguments => do
      ask index arguments
      match program.image.routines[index]? with
      | none => settled (.error (.missingRoutine index))
      | some routine =>
          if arguments.length ≠ routine.arity then
            settled (.error (.arity routine.name routine.arity arguments.length))
          else if maxCallDepth ≤ (← active) then settled (.error (.tooDeep maxCallDepth))
          else asCall (interpret program fuel (.run (.enter routine arguments)))
  | fuel + 1, .construct type =>
      match program.image.types[type]? with
      | none => settled (.error (.missingType type))
      | some definition => do
          let fields := definition.fields.map fun _ ↦ (.unit : Value)
          let reference ← inWorld fun world ↦
            let (reference, after) := world.allocate type definition.fullName fields
            (.ok reference, after)
          match definition.initializer with
          | none => pure (.object reference)
          | some initializer => do
              let _ ← interpret program fuel (.call initializer [.object reference])
              pure (.object reference)
  | fuel + 1, .enumerate pending done stages goal =>
      match stages, pending with
      | [], pending => pure (goal.deliver pending)
      | _ :: later, [] => interpret program fuel (.enumerate done.reverse [] later goal)
      | stage :: later, element :: pending => do
          let answer ← interpret program fuel (Machine.callClosure stage.closure [element])
          match stage with
          | .map _ => interpret program fuel (.enumerate pending (answer :: done) (stage :: later) goal)
          | .filter _ => do
              let done := if ← settled (orMismatch answer.toBool) then element :: done else done
              interpret program fuel (.enumerate pending done (stage :: later) goal)
  | _ + 1, .answer value => pure value

/-! ## From outside -/

/-- What can be asked of an interpreter: a call of a routine or of a closure, an object of a type, the
elements of a sequence, or what a host function gives. -/
inductive Operation where
  | call (routine : RoutineIndex) (arguments : List Value)
  | callClosure (closure : Closure) (arguments : List Value)
  | construct (type : TypeIndex)
  | force (source : List Value) (stages : List Stage)
  | callHost (action : HostAction) (arguments : List Value)

/-- How a run of the machine has ended, for a caller from outside. -/
def ended (ending : Ending) : Except HostFailure Value × World :=
  (ending.result.mapError .fault, ending.world)

/-- What the machine does when it is asked for this, with no call active. -/
def Operation.run (program : Program) (fuel : Nat) (world : World) :
    Operation → Option (Except HostFailure Value × World)
  | .call routine arguments => (program.call fuel routine arguments world).map ended
  | .callClosure closure arguments => (program.callClosure fuel closure arguments world).map ended
  | .construct type => (program.construct fuel type world).map ended
  | .force source stages => (program.force fuel source stages world).map ended
  | .callHost action arguments => program.callHost fuel action arguments world

namespace Interpreter

/-- Do one thing to the end for a caller from outside. -/
def perform (program : Program) (fuel : Nat) (control : Control) (before : Interpreter) :
    Option (Report (Except HostFailure Value)) :=
  (interpret program fuel control before).map fun report ↦
    ⟨report.answer.mapError .fault, report.after, report.notices⟩

/-- Do what is asked for. -/
def operate (program : Program) (fuel : Nat) (operation : Operation) (before : Interpreter) :
    Option (Report (Except HostFailure Value)) :=
  match operation with
  | .call routine arguments => perform program fuel (.call routine arguments) before
  | .callClosure closure arguments =>
      perform program fuel (Machine.callClosure closure arguments) before
  | .construct type => perform program fuel (.construct type) before
  | .force source stages => perform program fuel (.enumerate source [] stages .array) before
  | .callHost action arguments =>
      match action.reply arguments before.world with
      | .value value world => some ⟨.ok value, { before with world }, []⟩
      | .refuse error => some ⟨.error (.refused error), before, []⟩
      | .fault fault => some ⟨.error (.fault fault), before, []⟩
      | .enumerate source stages goal =>
          perform program fuel (.enumerate source [] stages goal) before

/-- An interpreter may become another one by operations in order, whatever their answers are. -/
inductive Becomes (program : Program) : Interpreter → Interpreter → Prop where
  | refl (interpreter : Interpreter) : Becomes program interpreter interpreter
  | operated {before used : Interpreter} {fuel : Nat} {operation : Operation}
      {report : Report (Except HostFailure Value)} : Becomes program before used →
      operate program fuel operation used = some report → Becomes program before report.after

end Interpreter

end GuestScript.Meaning
