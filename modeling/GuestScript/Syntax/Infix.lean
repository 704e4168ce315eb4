import GuestScript.Syntax.Tree

/-!
# Grouping operands by the strength of operators

An expression reads as operands with binary operators between them, and each operand may have
unary operators in front. Unary operators bind tighter than all binary ones. Of two binary
operators around an operand the stronger takes it, and of two equally strong ones the left one.
`Infix.ofChain` groups a chain from left to right by adding one operator and operand at a time to
the right edge of the tree.
-/

namespace GuestScript.Syntax

/-- Operands grouped under binary operators. -/
inductive Infix where
  | leaf (value : Expression)
  | node (operator : BinaryOperator) (left right : Infix)

namespace Infix

/-- Add an operator and the operand behind it at the right edge. The operator goes above every
operator on the edge that is at least as strong. -/
def append (operator : BinaryOperator) (operand : Expression) : Infix → Infix
  | .leaf value => .node operator (.leaf value) (.leaf operand)
  | .node outer left right =>
      if operator.strength ≤ outer.strength then
        .node operator (.node outer left right) (.leaf operand)
      else .node outer left (append operator operand right)

/-- Group a first operand and the operators and operands behind it. -/
def ofChain (first : Expression) (links : List (BinaryOperator × Expression)) : Infix :=
  links.foldl (fun tree (operator, operand) ↦ tree.append operator operand) (.leaf first)

/-- The expression of a grouping. -/
def toExpression : Infix → Expression
  | .leaf value => value
  | .node operator left right =>
      let leftValue := left.toExpression
      let rightValue := right.toExpression
      .binary operator leftValue rightValue (leftValue.span.cover rightValue.span)

end Infix

/-- Apply unary operators to an operand, the one next to it first. -/
def applyUnary (operators : List (UnaryOperator × Span)) (operand : Expression) : Expression :=
  operators.foldr
    (fun (operator, span) value ↦ .unary operator value (span.cover value.span)) operand

end GuestScript.Syntax
