import GuestScript.Bytecode.Image
import Mathlib.Algebra.Group.Nat.Defs

/-!
# Values

What a running program works on. Plain data is compared by its structure. Closures, sequences and
objects are made one at a time and compared by identity: a closure and a sequence carry a number of
their own, and an object is a reference into the store. A cursor is the state of a loop and is never
shown to a program.

What a closure runs is left open: values are defined over any kind of code, and no operation on them
looks at it. The machine runs routines by their position in an image.
-/

namespace GuestScript.Machine

open Bytecode (RoutineIndex TypeIndex Constant)

/-- A reference to an object: its place in the store, and its type, which never changes. -/
structure Reference where
  address : Nat
  type : TypeIndex
  typeName : String
  deriving DecidableEq

mutual

/-- A value. A sequence holds its source and the stages that wait to be run over it. -/
inductive ValueOver (Code : Type) where
  | unit
  | int (value : Int64)
  | bool (value : Bool)
  | str (value : String)
  | array (items : List (ValueOver Code))
  | seq (identity : Nat) (source : List (ValueOver Code)) (stages : List (StageOver Code))
  | closure (closure : ClosureOver Code)
  | object (reference : Reference)
  | cursor (items : List (ValueOver Code)) (position : Nat)

/-- Code together with the values it captured. -/
inductive ClosureOver (Code : Type) where
  | mk (identity : Nat) (code : Code) (captures : List (ValueOver Code))

/-- A step of a sequence: keep the elements that a closure approves of, or put what a closure
makes of each element in its place. -/
inductive StageOver (Code : Type) where
  | filter (predicate : ClosureOver Code)
  | map (mapper : ClosureOver Code)

end

/-- A value of the machine, whose closures run routines. -/
abbrev Value := ValueOver RoutineIndex

/-- A closure of the machine. -/
abbrev Closure := ClosureOver RoutineIndex

/-- A stage of a sequence of the machine. -/
abbrev Stage := StageOver RoutineIndex

variable {Code : Type}

/-- What kind of value a value is. -/
inductive Kind where
  | unit
  | int
  | bool
  | str
  | array
  | seq
  | closure
  | object
  | cursor
  deriving DecidableEq

/-- The written name of a kind. -/
def Kind.text : Kind → String
  | .unit => "unit"
  | .int => "int"
  | .bool => "bool"
  | .str => "str"
  | .array => "array"
  | .seq => "seq"
  | .closure => "closure"
  | .object => "object"
  | .cursor => "cursor"

/-- A value of another kind than the one required. -/
structure Mismatch where
  found : Kind
  expected : Kind
  deriving DecidableEq

/-- The message of a mismatch. -/
def Mismatch.text (mismatch : Mismatch) : String :=
  "expected " ++ mismatch.expected.text ++ ", found " ++ mismatch.found.text

namespace ClosureOver

/-- The number that tells a closure from every other. -/
def identity : ClosureOver Code → Nat
  | .mk identity _ _ => identity

/-- The code that a closure runs. -/
def code : ClosureOver Code → Code
  | .mk _ code _ => code

/-- The values that a closure captured. -/
def captures : ClosureOver Code → List (ValueOver Code)
  | .mk _ _ captures => captures

end ClosureOver

/-- The routine that a closure of the machine runs. -/
abbrev Closure.routine (closure : Closure) : RoutineIndex :=
  closure.code

/-- The closure that a stage runs on each element. -/
def StageOver.closure : StageOver Code → ClosureOver Code
  | .filter closure | .map closure => closure

namespace ValueOver

/-- The kind of a value. -/
def kind : ValueOver Code → Kind
  | .unit => .unit
  | .int _ => .int
  | .bool _ => .bool
  | .str _ => .str
  | .array _ => .array
  | .seq .. => .seq
  | .closure _ => .closure
  | .object _ => .object
  | .cursor .. => .cursor

/-- The value of a constant. -/
def ofConstant : Constant → ValueOver Code
  | .unit => .unit
  | .int value => .int value
  | .bool value => .bool value
  | .str value => .str value

/-- A number of things as a value; numbers out of range count as the greatest one. -/
def ofCount (count : Nat) : ValueOver Code :=
  .int (if count < 2 ^ 63 then Int64.ofNat count else Int64.maxValue)

/-- The complaint that another kind of value was required. -/
def mismatch (value : ValueOver Code) (expected : Kind) : Mismatch :=
  ⟨value.kind, expected⟩

/-- The integer that a value is. -/
def toInt : ValueOver Code → Except Mismatch Int64
  | .int value => .ok value
  | other => .error (other.mismatch .int)

/-- The truth value that a value is. -/
def toBool : ValueOver Code → Except Mismatch Bool
  | .bool value => .ok value
  | other => .error (other.mismatch .bool)

/-- The text that a value is. -/
def toStr : ValueOver Code → Except Mismatch String
  | .str value => .ok value
  | other => .error (other.mismatch .str)

/-- The items of the array that a value is. -/
def toItems : ValueOver Code → Except Mismatch (List (ValueOver Code))
  | .array items => .ok items
  | other => .error (other.mismatch .array)

/-- The closure that a value is. -/
def toClosure : ValueOver Code → Except Mismatch (ClosureOver Code)
  | .closure value => .ok value
  | other => .error (other.mismatch .closure)

/-- The reference to the object that a value is. -/
def toReference : ValueOver Code → Except Mismatch Reference
  | .object reference => .ok reference
  | other => .error (other.mismatch .object)

/-- The source and the stages of the sequence that a value is; an array is a sequence without
stages. -/
def toSeq : ValueOver Code → Except Mismatch (List (ValueOver Code) × List (StageOver Code))
  | .seq _ source stages => .ok (source, stages)
  | .array items => .ok (items, [])
  | other => .error (other.mismatch .seq)

mutual

/-- Whether two values are equal: by structure for plain data and arrays, by identity for objects,
closures and sequences. Cursors equal nothing. -/
def equals : ValueOver Code → ValueOver Code → Bool
  | .unit, .unit => true
  | .int first, .int second => first = second
  | .bool first, .bool second => first = second
  | .str first, .str second => first = second
  | .array firsts, .array seconds => allEqual firsts seconds
  | .object first, .object second => first.address = second.address
  | .closure first, .closure second => first.identity = second.identity
  | .seq first _ _, .seq second _ _ => first = second
  | _, _ => false

/-- Whether two lists are equally long and hold equal values. -/
def allEqual : List (ValueOver Code) → List (ValueOver Code) → Bool
  | [], [] => true
  | first :: firsts, second :: seconds => equals first second && allEqual firsts seconds
  | _, _ => false

end

mutual

/-- The text that printing a value writes. A sequence is not enumerated, so that printing never
runs a program. -/
def display : ValueOver Code → String
  | .unit => "()"
  | .int value => toString value.toInt
  | .bool true => "true"
  | .bool false => "false"
  | .str value => value
  | .array [] => "[]"
  | .array (first :: rest) => displayRest rest ("[" ++ display first) ++ "]"
  | .seq .. => "<seq>"
  | .closure _ => "<fn>"
  | .object reference => "<" ++ reference.typeName ++ ">"
  | .cursor .. => "<cursor>"

/-- The texts of further values behind a text, each after a comma. -/
def displayRest : List (ValueOver Code) → String → String
  | [], written => written
  | first :: rest, written => displayRest rest (written ++ ", " ++ display first)

end

end ValueOver

namespace Value

export ValueOver (unit int bool str array seq closure object cursor)

end Value

/-- The most stages that a sequence may have. -/
def maxStages : Nat := 1024

/-- The stages of a sequence with one more behind them, if the limit allows it. -/
def appendStage? (stages : List (StageOver Code)) (stage : StageOver Code) (limit : Nat) :
    Option (List (StageOver Code)) :=
  if stages.length < limit then some (stages ++ [stage]) else none

end GuestScript.Machine
