import GuestScript.Host.Module
import GuestScript.Machine.World
import GuestScript.Text.Uppercase

/-!
# What host functions do

`HostAction.reply` says what a host function does with its arguments. Most have an answer at once.
The two that need the elements of a sequence leave it to the machine to enumerate it, because that
runs closures of the program.
-/

namespace GuestScript

namespace Machine

/-- What becomes of the elements of a sequence once they are known. -/
inductive Goal where
  | cursor
  | array
  | count
  deriving DecidableEq

variable {Code : Type}

/-- The value made of the elements of a sequence. -/
def Goal.deliver : Goal → List (ValueOver Code) → ValueOver Code
  | .cursor, items => .cursor items 0
  | .array, items => .array items
  | .count, items => .ofCount items.length

/-- What a host function does with its arguments. -/
inductive ReplyOver (Code : Type) where
  | value (value : ValueOver Code) (world : WorldOver Code)
  | refuse (error : HostError)
  | fault (fault : Fault)
  | enumerate (source : List (ValueOver Code)) (stages : List (StageOver Code)) (goal : Goal)

/-- What a host function does with arguments of the machine. -/
abbrev Reply := ReplyOver Bytecode.RoutineIndex

namespace ReplyOver

/-- Go on with a converted argument, or refuse it. -/
def withArgument {Target : Type} (index : Nat) (converted : Except Mismatch Target)
    (next : Target → ReplyOver Code) : ReplyOver Code :=
  match converted with
  | .ok target => next target
  | .error mismatch => .refuse (.argument index mismatch)

/-- Answer unit in the world whose console has been written to, if writing succeeded. -/
def written (world : WorldOver Code) : Except String Console → ReplyOver Code
  | .ok console => .value .unit { world with console }
  | .error reason => .refuse (.output reason)

/-- Put a stage on a sequence. -/
def extend (world : WorldOver Code) (source : List (ValueOver Code))
    (stages : List (StageOver Code)) (stage : StageOver Code) : ReplyOver Code :=
  match appendStage? stages stage maxStages with
  | some longer =>
      let (sequence, after) := world.makeSeq source longer
      .value sequence after
  | none => .fault (.tooDeep maxStages)

end ReplyOver

end Machine

open Machine

namespace HostAction

variable {Code : Type}

/-- How many arguments a host function takes. -/
def arity : HostAction → Nat
  | .seqFilter | .seqMap => 2
  | _ => 1

/-- What a stage function does: the sequence it is given gets one more stage. -/
def extend (world : WorldOver Code) (sequence closure : ValueOver Code)
    (stage : ClosureOver Code → StageOver Code) : ReplyOver Code :=
  .withArgument 0 sequence.toSeq fun (source, stages) ↦
    .withArgument 1 closure.toClosure fun closure ↦ .extend world source stages (stage closure)

/-- What a host function does with its arguments. -/
def reply (action : HostAction) (arguments : List (ValueOver Code)) (world : WorldOver Code) :
    ReplyOver Code :=
  match action, arguments with
  | .panic, [message] => .withArgument 0 message.toStr fun text ↦ .fault (.explicitPanic text)
  | .printLine, [value] => .written world (world.console.writeLine value.display)
  | .print, [value] => .written world (world.console.write value.display)
  | .textIsEmpty, [value] =>
      .withArgument 0 value.toStr fun text ↦ .value (.bool text.isEmpty) world
  | .textLength, [value] =>
      .withArgument 0 value.toStr fun text ↦ .value (.ofCount text.length) world
  | .textUpper, [value] =>
      .withArgument 0 value.toStr fun text ↦ .value (.str (Uppercase.text text)) world
  | .seqFilter, [sequence, closure] => extend world sequence closure .filter
  | .seqMap, [sequence, closure] => extend world sequence closure .map
  | .seqCount, [sequence] =>
      .withArgument 0 sequence.toSeq fun (source, stages) ↦ .enumerate source stages .count
  | .seqToArray, [sequence] =>
      .withArgument 0 sequence.toSeq fun (source, stages) ↦ .enumerate source stages .array
  | .arrayLength, [array] =>
      .withArgument 0 array.toItems fun items ↦ .value (.ofCount items.length) world
  | action, arguments => .refuse (.arity action.arity arguments.length)

end HostAction

end GuestScript
