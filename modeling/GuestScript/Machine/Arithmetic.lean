import GuestScript.Machine.Fault
import Mathlib.Algebra.Group.Int.Defs

/-!
# Operators on values

The operators that code applies to values. Arithmetic is that of the integers: a result is exact or
a fault, because it has to fit 64 bits with a sign. Division rounds toward zero, and the remainder
has the sign of the dividend. Equality holds between any two values, order only between two
integers or two texts.
-/

namespace GuestScript.Machine

variable {Code : Type}

/-- An exact result, or a fault if it does not fit. -/
def exact (symbol : String) (value : Int) : Except Fault (ValueOver Code) :=
  if -2 ^ 63 ≤ value ∧ value < 2 ^ 63 then .ok (.int (Int64.ofInt value))
  else .error (.overflow symbol)

/-- Apply a unary operator. -/
def applyUnary (operator : UnaryOperator) (operand : ValueOver Code) :
    Except Fault (ValueOver Code) :=
  match operator with
  | .not => do
      let value ← orMismatch operand.toBool
      pure (.bool !value)
  | .negate => do
      let value ← orMismatch operand.toInt
      exact operator.symbol (-value.toInt)

/-- The order of two values of a linear order. -/
def orderOf {Element : Type} [LT Element] [DecidableLT Element] [DecidableEq Element]
    (first second : Element) : Ordering :=
  if first < second then .lt else if first = second then .eq else .gt

/-- The order of two integers or of two texts. Texts are ordered by their characters, which is the
order of their bytes. -/
def compareValues (left right : ValueOver Code) : Except Fault Ordering :=
  match left, right with
  | .int first, .int second => .ok (orderOf first second)
  | .str first, .str second => .ok (orderOf first second)
  | .int _, other => .error (.typeMismatch (other.mismatch .int))
  | .str _, other => .error (.typeMismatch (other.mismatch .str))
  | other, _ => .error (.typeMismatch (other.mismatch .int))

/-- Compare two values and say whether their order is one that an operator asks for. -/
def applyOrder (wanted : Ordering → Bool) (left right : ValueOver Code) :
    Except Fault (ValueOver Code) := do
  let order ← compareValues left right
  pure (.bool (wanted order))

/-- Apply an operation to two integers. -/
def applyInts (operation : Int → Int → Except Fault (ValueOver Code))
    (left right : ValueOver Code) : Except Fault (ValueOver Code) := do
  let first ← orMismatch left.toInt
  let second ← orMismatch right.toInt
  operation first.toInt second.toInt

/-- Divide in some way, unless the divisor is zero. -/
def divideBy (symbol : String) (operation : Int → Int → Int) (dividend divisor : Int) :
    Except Fault (ValueOver Code) :=
  if divisor = 0 then .error .divisionByZero else exact symbol (operation dividend divisor)

/-- Apply a remainder; the one that belongs to a quotient out of range is out of range too. -/
def remainderBy (symbol : String) (dividend divisor : Int) : Except Fault (ValueOver Code) :=
  if divisor = 0 then .error .divisionByZero
  else
    match (exact symbol (dividend.tdiv divisor) : Except Fault (ValueOver Code)) with
    | .error fault => .error fault
    | .ok _ => exact symbol (dividend.tmod divisor)

/-- Apply a binary operator to two values. -/
def applyBinary (operator : BinaryOperator) (left right : ValueOver Code) :
    Except Fault (ValueOver Code) :=
  match operator with
  | .equal => .ok (.bool (left.equals right))
  | .unequal => .ok (.bool !left.equals right)
  | .and => do
      if ← orMismatch left.toBool then
        let value ← orMismatch right.toBool
        pure (.bool value)
      else pure (.bool false)
  | .or => do
      if ← orMismatch left.toBool then pure (.bool true)
      else
        let value ← orMismatch right.toBool
        pure (.bool value)
  | .less => applyOrder Ordering.isLT left right
  | .atMost => applyOrder Ordering.isLE left right
  | .greater => applyOrder Ordering.isGT left right
  | .atLeast => applyOrder Ordering.isGE left right
  | .add =>
      match left with
      | .str first => do
          let second ← orMismatch right.toStr
          pure (.str (first ++ second))
      | _ => applyInts (fun first second ↦ exact operator.symbol (first + second)) left right
  | .subtract => applyInts (fun first second ↦ exact operator.symbol (first - second)) left right
  | .multiply => applyInts (fun first second ↦ exact operator.symbol (first * second)) left right
  | .divide => applyInts (divideBy operator.symbol Int.tdiv) left right
  | .remainder => applyInts (remainderBy operator.symbol) left right

/-- The item of an array at an index, if the index is not negative and not too great. -/
def itemAt? {Item : Type} (items : List Item) (index : Int64) : Option Item :=
  if 0 ≤ index.toInt then items[index.toInt.toNat]? else none

/-- The item of an array at an index, where both are values. -/
def itemOf (array index : ValueOver Code) : Except Fault (ValueOver Code) := do
  let index ← orMismatch index.toInt
  let items ← orMismatch array.toItems
  match itemAt? items index with
  | some item => pure item
  | none => .error (.indexOutOfBounds index items.length)

end GuestScript.Machine
