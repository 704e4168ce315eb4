import GuestScript.Machine.Fault

/-!
# Operand stacks

Every call works on an operand stack of its own. Taking operands gives a result and the stack
afterwards: a value that turns out to be of the wrong kind has been taken all the same, while taking
several values takes all or none.
-/

namespace GuestScript.Machine

/-- An operand stack, the newest operand first. -/
structure OperandStack where
  items : List Value

namespace OperandStack

/-- The stack that a call starts with. -/
def empty : OperandStack := ⟨[]⟩

/-- The number of operands. -/
def size (stack : OperandStack) : Nat :=
  stack.items.length

/-- Whether there is no operand. -/
def isEmpty (stack : OperandStack) : Bool :=
  stack.items.isEmpty

/-- Add an operand. -/
def push (stack : OperandStack) (value : Value) : OperandStack :=
  ⟨value :: stack.items⟩

/-- Take the newest operand. -/
def pop (stack : OperandStack) : Except Fault Value × OperandStack :=
  match stack.items with
  | [] => (.error .emptyStack, stack)
  | value :: rest => (.ok value, ⟨rest⟩)

/-- Take the newest operand and convert it. -/
def popAs {Target : Type} (convert : Value → Except Mismatch Target) (stack : OperandStack) :
    Except Fault Target × OperandStack :=
  match stack.items with
  | [] => (.error .emptyStack, stack)
  | value :: rest => (orMismatch (convert value), ⟨rest⟩)

/-- Move so many values from the front of a list to the front of another, if there are enough. -/
def transfer : Nat → List Value → List Value → Option (List Value × List Value)
  | 0, taken, rest => some (taken, rest)
  | _ + 1, _, [] => none
  | count + 1, taken, value :: rest => transfer count (value :: taken) rest

/-- Take the newest operands, so many of them; the result has the oldest first. -/
def popMany (count : Nat) (stack : OperandStack) : Except Fault (List Value) × OperandStack :=
  match transfer count [] stack.items with
  | some (values, rest) => (.ok values, ⟨rest⟩)
  | none => (.error .emptyStack, stack)

end OperandStack

end GuestScript.Machine
