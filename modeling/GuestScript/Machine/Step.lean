import GuestScript.Machine.Arithmetic
import GuestScript.Machine.Host
import GuestScript.Machine.Stack

/-!
# The machine

The machine runs the routines of a linked image. Its state is what it is doing now, what waits for
the answer of that, innermost first, and the world. `step` does one thing: one instruction, the
start of a call, one element of a sequence, or the delivery of an answer. A fault ends the run
whatever is waiting, so there is nothing to unwind, and the number of active calls is the number of
routines that wait.
-/

namespace GuestScript.Machine

open Bytecode (Image Routine Op RoutineIndex TypeIndex ImportIndex)

/-- A host function as a linked image knows it: the name for messages, and what it does. -/
structure LinkedHost where
  name : String
  action : HostAction
  deriving DecidableEq

/-- An image whose imports are bound to host functions. -/
structure Program where
  image : Image
  hosts : Array LinkedHost
  deriving DecidableEq

/-- The most calls that may be active at once. -/
def maxCallDepth : Nat := 200

/-- An active call: its routine, the position of the next instruction, and its own slots and
operands. -/
structure Frame where
  routine : Routine
  position : Nat
  locals : Array Value
  stack : OperandStack

namespace Frame

/-- The frame of a routine with its arguments in the first slots and unit in the others. -/
def enter (routine : Routine) (arguments : List Value) : Frame :=
  let unused := List.replicate (routine.locals - arguments.length) Value.unit
  ⟨routine, 0, (arguments.take routine.locals ++ unused).toArray, .empty⟩

/-- Add an operand. -/
def push (frame : Frame) (value : Value) : Frame :=
  { frame with stack := frame.stack.push value }

/-- Go on with these operands. -/
def withStack (frame : Frame) (stack : OperandStack) : Frame :=
  { frame with stack }

/-- Go on at another position. -/
def goTo (frame : Frame) (position : Nat) : Frame :=
  { frame with position }

/-- Put a value into a slot. -/
def setLocal (frame : Frame) (slot : Nat) (value : Value) : Frame :=
  { frame with locals := frame.locals.setIfInBounds slot value }

end Frame

/-- What waits for an answer: a routine that called another, the construction of an object whose
fields are being given their first values, or an element of a sequence that a stage is run on. -/
inductive Waiting where
  | routine (frame : Frame)
  | object (value : Value)
  | element (stage : Stage) (element : Value) (pending done : List Value) (later : List Stage)
      (goal : Goal)

/-- What the machine is doing. -/
inductive Control where
  | run (frame : Frame)
  | call (routine : RoutineIndex) (arguments : List Value)
  | construct (type : TypeIndex)
  | enumerate (pending done : List Value) (stages : List Stage) (goal : Goal)
  | answer (value : Value)

/-- A state of the machine. -/
structure State where
  control : Control
  waiting : List Waiting
  world : World

/-- How a run ends: with a value or a fault, and the world as it is then. -/
structure Ending where
  result : Except Fault Value
  world : World

/-- What one step leads to. -/
inductive Step where
  | running (state : State)
  | ended (ending : Ending)

/-- What an instruction leads to: the next instruction of its routine, something that the routine
has to wait for, or the end of the routine. -/
inductive Effect where
  | next (frame : Frame)
  | await (frame : Frame) (control : Control)
  | leave (value : Value)

/-- The number of calls that are active while this waits. -/
def callDepth : List Waiting → Nat
  | [] => 0
  | .routine _ :: rest => callDepth rest + 1
  | _ :: rest => callDepth rest

/-- The call of a closure: what it captured comes before its arguments. -/
def callClosure (closure : Closure) (arguments : List Value) : Control :=
  .call closure.routine (closure.captures ++ arguments)

/-- Read a slot. -/
def load (frame : Frame) (slot : Nat) : Except Fault Frame :=
  match frame.locals[slot]? with
  | some value => .ok (frame.push value)
  | none => .error (.slotOutOfRange slot)

/-- Take an operand into a slot. -/
def store (frame : Frame) (slot : Nat) : Except Fault Frame := do
  let (value, stack) := frame.stack.pop
  let value ← value
  if slot < frame.locals.size then pure ((frame.withStack stack).setLocal slot value)
  else .error (.slotOutOfRange slot)

/-- Replace an object on the stack by the value of a field. -/
def loadField (world : World) (frame : Frame) (field : Nat) : Except Fault Frame := do
  let (target, stack) := frame.stack.pop
  let value ← world.readField (← target) field
  pure (frame.withStack (stack.push value))

/-- Take a value and an object, and assign the value to a field of the object. -/
def assignField (world : World) (frame : Frame) (field : Nat) : Except Fault (Frame × World) := do
  let (value, stack) := frame.stack.pop
  let value ← value
  let (target, stack) := stack.pop
  let world ← world.writeField (← target) field value
  pure (frame.withStack stack, world)

/-- Give a field of an object another value. -/
def storeField (world : World) (frame : Frame) (field : Nat) : Except Fault Effect × World :=
  match assignField world frame field with
  | .error fault => (.error fault, world)
  | .ok (frame, world) => (.ok (.next frame), world)

/-- Replace an operand by what a unary operator makes of it. -/
def unary (frame : Frame) (operator : UnaryOperator) : Except Fault Frame := do
  let (operand, stack) := frame.stack.pop
  let result ← applyUnary operator (← operand)
  pure (frame.withStack (stack.push result))

/-- Replace two operands by what a binary operator makes of them. -/
def binary (frame : Frame) (operator : BinaryOperator) : Except Fault Frame := do
  let (right, stack) := frame.stack.pop
  let right ← right
  let (left, stack) := stack.pop
  let result ← applyBinary operator (← left) right
  pure (frame.withStack (stack.push result))

/-- Replace operands by the array of them. -/
def makeArray (frame : Frame) (length : Nat) : Except Fault Frame := do
  let (items, stack) := frame.stack.popMany length
  pure (frame.withStack (stack.push (.array (← items))))

/-- Replace an array and an index by the item there. -/
def index (frame : Frame) : Except Fault Frame := do
  let (index, stack) := frame.stack.popAs ValueOver.toInt
  let index ← index
  let (items, stack) := stack.popAs ValueOver.toItems
  let items ← items
  match itemAt? items index with
  | some item => pure (frame.withStack (stack.push item))
  | none => .error (.indexOutOfBounds index items.length)

/-- Replace operands by a closure that captured them. -/
def makeClosure (world : World) (frame : Frame) (routine : RoutineIndex) (captures : Nat) :
    Except Fault Effect × World :=
  match frame.stack.popMany captures with
  | (.error fault, _) => (.error fault, world)
  | (.ok captured, stack) =>
      let (closure, world) := world.makeClosure routine captured
      (.ok (.next (frame.withStack (stack.push (.closure closure)))), world)

/-- Go on at the exit of a loop, or with the next item of its cursor. -/
def iterNext (frame : Frame) (slot exit : Nat) : Except Fault Frame :=
  match frame.locals[slot]? with
  | some (.cursor items position) =>
      match items[position]? with
      | some item => .ok ((frame.setLocal slot (.cursor items (position + 1))).push item)
      | none => .ok (frame.goTo exit)
  | some other => .error (.typeMismatch (other.mismatch .cursor))
  | none => .error (.slotOutOfRange slot)

/-- Start a loop over an operand: at once over an array, and after enumerating a sequence. -/
def iterStart (frame : Frame) : Except Fault Effect := do
  let (iterable, stack) := frame.stack.pop
  match ← iterable with
  | .array items => pure (.next (frame.withStack (stack.push (.cursor items 0))))
  | .seq _ source stages =>
      pure (.await (frame.withStack stack) (.enumerate source [] stages .cursor))
  | other => .error (.notIterable other.kind)

/-- Take arguments and call a routine. -/
def call (frame : Frame) (routine : RoutineIndex) (count : Nat) : Except Fault Effect := do
  let (arguments, stack) := frame.stack.popMany count
  pure (.await (frame.withStack stack) (.call routine (← arguments)))

/-- Take arguments and a closure, and call the closure. -/
def callClosureOp (frame : Frame) (count : Nat) : Except Fault Effect := do
  let (arguments, stack) := frame.stack.popMany count
  let arguments ← arguments
  let (closure, stack) := stack.popAs ValueOver.toClosure
  pure (.await (frame.withStack stack) (callClosure (← closure) arguments))

/-- What a reply of a host function leads to, for a frame whose arguments have been taken. -/
def receive (frame : Frame) (name : String) (world : World) : Reply → Except Fault Effect × World
  | .value value world => (.ok (.next (frame.push value)), world)
  | .refuse error => (.error (.host name error), world)
  | .fault fault => (.error fault, world)
  | .enumerate source stages goal => (.ok (.await frame (.enumerate source [] stages goal)), world)

/-- Take arguments and call a host function. -/
def callHost (program : Program) (world : World) (frame : Frame) (imported : ImportIndex)
    (count : Nat) : Except Fault Effect × World :=
  match frame.stack.popMany count with
  | (.error fault, _) => (.error fault, world)
  | (.ok arguments, stack) =>
      match program.hosts[imported]? with
      | none => (.error (.missingImport imported), world)
      | some host =>
          receive (frame.withStack stack) host.name world (host.action.reply arguments world)

/-- Go on at a target if an operand is false. -/
def jumpUnless (frame : Frame) (target : Nat) : Except Fault Frame := do
  let (condition, stack) := frame.stack.popAs ValueOver.toBool
  if ← condition then pure (frame.withStack stack) else pure ((frame.withStack stack).goTo target)

/-- Take the newest operand and forget it. -/
def discard (frame : Frame) : Except Fault Frame := do
  let (value, stack) := frame.stack.pop
  let _ ← value
  pure (frame.withStack stack)

/-- Go on with the next instruction in a frame. -/
def goOn (result : Except Fault Frame) : Except Fault Effect := do
  pure (.next (← result))

/-- Do what one instruction says, in a frame that has moved past it already. -/
def execute (program : Program) (world : World) (frame : Frame) : Op → Except Fault Effect × World
  | .push constant => (.ok (.next (frame.push (.ofConstant constant))), world)
  | .load slot => (goOn (load frame slot), world)
  | .store slot => (goOn (store frame slot), world)
  | .loadField field => (goOn (loadField world frame field), world)
  | .storeField field => storeField world frame field
  | .pop => (goOn (discard frame), world)
  | .unary operator => (goOn (unary frame operator), world)
  | .binary operator => (goOn (binary frame operator), world)
  | .makeArray length => (goOn (makeArray frame length), world)
  | .index => (goOn (index frame), world)
  | .makeClosure routine captures => makeClosure world frame routine captures
  | .construct type => (.ok (.await frame (.construct type)), world)
  | .call routine count => (call frame routine count, world)
  | .callClosure count => (callClosureOp frame count, world)
  | .callHost imported count => callHost program world frame imported count
  | .iterStart => (iterStart frame, world)
  | .iterNext slot exit => (goOn (iterNext frame slot exit), world)
  | .jump target => (.ok (.next (frame.goTo target)), world)
  | .jumpUnless target => (goOn (jumpUnless frame target), world)
  | .ret => (do pure (.leave (← frame.stack.pop.1)), world)

/-- Go on as an instruction says. -/
def proceed (waiting : List Waiting) : Except Fault Effect × World → Step
  | (.error fault, world) => .ended ⟨.error fault, world⟩
  | (.ok (.next frame), world) => .running ⟨.run frame, waiting, world⟩
  | (.ok (.await frame control), world) => .running ⟨control, .routine frame :: waiting, world⟩
  | (.ok (.leave value), world) => .running ⟨.answer value, waiting, world⟩

/-- Run the next instruction of a frame. A routine that has run out of instructions answers
unit. -/
def runFrame (program : Program) (frame : Frame) (waiting : List Waiting) (world : World) : Step :=
  match frame.routine.code[frame.position]? with
  | none => .running ⟨.answer .unit, waiting, world⟩
  | some op => proceed waiting (execute program world (frame.goTo (frame.position + 1)) op)

/-- Start a call: the routine has to exist, to take this many arguments, and to be within the
limit of active calls. -/
def startCall (program : Program) (index : RoutineIndex) (arguments : List Value)
    (waiting : List Waiting) (world : World) : Step :=
  match program.image.routines[index]? with
  | none => .ended ⟨.error (.missingRoutine index), world⟩
  | some routine =>
      if arguments.length ≠ routine.arity then
        .ended ⟨.error (.arity routine.name routine.arity arguments.length), world⟩
      else if maxCallDepth ≤ callDepth waiting then .ended ⟨.error (.tooDeep maxCallDepth), world⟩
      else .running ⟨.run (.enter routine arguments), waiting, world⟩

/-- Make an object with unit in its fields, and call what gives the fields their first values. -/
def startConstruction (program : Program) (type : TypeIndex) (waiting : List Waiting)
    (world : World) : Step :=
  match program.image.types[type]? with
  | none => .ended ⟨.error (.missingType type), world⟩
  | some definition =>
      let fields := definition.fields.map fun _ ↦ Value.unit
      let (reference, world) := world.allocate type definition.fullName fields
      match definition.initializer with
      | none => .running ⟨.answer (.object reference), waiting, world⟩
      | some initializer =>
          .running ⟨.call initializer [.object reference], .object (.object reference) :: waiting,
            world⟩

/-- Enumerate a sequence: run the first stage on the next element, go on to the next stage when
there is none, and deliver the elements when there is no stage. -/
def enumerate (pending done : List Value) (stages : List Stage) (goal : Goal)
    (waiting : List Waiting) (world : World) : Step :=
  match stages, pending with
  | [], pending => .running ⟨.answer (goal.deliver pending), waiting, world⟩
  | _ :: later, [] => .running ⟨.enumerate done.reverse [] later goal, waiting, world⟩
  | stage :: later, element :: pending =>
      .running ⟨callClosure stage.closure [element],
        .element stage element pending done later goal :: waiting, world⟩

/-- Hand an answer to what waits for it. -/
def deliver (value : Value) (waiting : List Waiting) (world : World) : Step :=
  match waiting with
  | [] => .ended ⟨.ok value, world⟩
  | .routine frame :: rest => .running ⟨.run (frame.push value), rest, world⟩
  | .object object :: rest => .running ⟨.answer object, rest, world⟩
  | .element stage element pending done later goal :: rest =>
      match stage with
      | .map _ => .running ⟨.enumerate pending (value :: done) (stage :: later) goal, rest, world⟩
      | .filter _ =>
          match value.toBool with
          | .error mismatch => .ended ⟨.error (.typeMismatch mismatch), world⟩
          | .ok true =>
              .running ⟨.enumerate pending (element :: done) (stage :: later) goal, rest, world⟩
          | .ok false => .running ⟨.enumerate pending done (stage :: later) goal, rest, world⟩

/-- One step of the machine. -/
def step (program : Program) (state : State) : Step :=
  match state with
  | ⟨.run frame, waiting, world⟩ => runFrame program frame waiting world
  | ⟨.call routine arguments, waiting, world⟩ =>
      startCall program routine arguments waiting world
  | ⟨.construct type, waiting, world⟩ => startConstruction program type waiting world
  | ⟨.enumerate pending done stages goal, waiting, world⟩ =>
      enumerate pending done stages goal waiting world
  | ⟨.answer value, waiting, world⟩ => deliver value waiting world

end GuestScript.Machine
