import GuestScript.Operator
import GuestScript.Ty

/-!
# Types of operators

The type that an operator gives, depending on the types of its operands, and the first values of
fields by their type.
-/

namespace GuestScript.Compile

/-- The type that the operand of a unary operator has to have, which is also that of its result. -/
def unaryType : UnaryOperator → Ty
  | .not => .bool
  | .negate => .int

/-- Whether arithmetic other than addition works on a type. -/
def isNumeric : Ty → Bool
  | .int | .dyn => true
  | _ => false

/-- Whether two types are both that of integers or both that of texts. -/
def areOrdered : Ty → Ty → Bool
  | .int, .int | .str, .str => true
  | _, _ => false

/-- The type of a sum. Of operands whose types are only known when the program runs, so is that of
their sum. -/
def sumType? : Ty → Ty → Option Ty
  | .int, .int => some .int
  | .str, .str => some .str
  | left, right => if left.isDyn || right.isDyn then some .dyn else none

/-- The type that a binary operator gives, if it works on operands of these types. -/
def binaryType? (operator : BinaryOperator) (left right : Ty) : Option Ty :=
  if left.isPoison || right.isPoison then some .poison
  else
    match operator with
    | .equal | .unequal => if left.admits right || right.admits left then some .bool else none
    | .less | .atMost | .greater | .atLeast =>
        if areOrdered left right || left.isDyn || right.isDyn then some .bool else none
    | .add => sumType? left right
    | .subtract | .multiply | .divide | .remainder =>
        if isNumeric left && isNumeric right then some .int else none
    | .and | .or => some .bool

/-- Whether a function of this result type may end without returning a value. -/
def returnsNothing : Ty → Bool
  | .unit | .dyn | .poison => true
  | _ => false

end GuestScript.Compile
