/-!
# Operators

The operators of the language and how they are spelled. Both the syntax tree and the bytecode
speak of them.
-/

namespace GuestScript

/-- An operator written before its operand. -/
inductive UnaryOperator where
  | not
  | negate
  deriving DecidableEq

namespace UnaryOperator

/-- Every operator, in the order of their numbers in the wire form. -/
def all : List UnaryOperator := [.not, .negate]

/-- The spelling of an operator. -/
def symbol : UnaryOperator → String
  | .not => "!"
  | .negate => "-"

end UnaryOperator

/-- An operator written between its operands. -/
inductive BinaryOperator where
  | add
  | subtract
  | multiply
  | divide
  | remainder
  | equal
  | unequal
  | less
  | atMost
  | greater
  | atLeast
  | and
  | or
  deriving DecidableEq

namespace BinaryOperator

/-- Every operator, in the order of their numbers in the wire form. -/
def all : List BinaryOperator :=
  [.add, .subtract, .multiply, .divide, .remainder, .equal, .unequal, .less, .atMost, .greater,
    .atLeast, .and, .or]

/-- The spelling of an operator. -/
def symbol : BinaryOperator → String
  | .add => "+"
  | .subtract => "-"
  | .multiply => "*"
  | .divide => "/"
  | .remainder => "%"
  | .equal => "=="
  | .unequal => "!="
  | .less => "<"
  | .atMost => "<="
  | .greater => ">"
  | .atLeast => ">="
  | .and => "&&"
  | .or => "||"

/-- How tightly an operator binds; the operator with the greater number takes the operand
between two of them. -/
def strength : BinaryOperator → Nat
  | .or => 1
  | .and => 2
  | .equal | .unequal => 3
  | .less | .atMost | .greater | .atLeast => 4
  | .add | .subtract => 5
  | .multiply | .divide | .remainder => 6

end BinaryOperator

end GuestScript
