import GuestScript.Syntax.Tree

/-!
# Trees without `while`

A tree is free of `while` if no such statement occurs in it at any depth: not in a block, not in the
body of a lambda, and not in the expression for the first value of a field. Other loops may occur.
-/

namespace GuestScript.Syntax

mutual

/-- Whether there is no `while` in an expression. -/
def Expression.isWhileFree : Expression → Bool
  | .int .. | .str .. | .bool .. | .receiver _ | .path .. | .construct .. => true
  | .array items _ => areWhileFree items
  | .call callee arguments _ => callee.isWhileFree && areWhileFree arguments
  | .method target _ arguments _ => target.isWhileFree && areWhileFree arguments
  | .field target _ _ => target.isWhileFree
  | .element target index _ => target.isWhileFree && index.isWhileFree
  | .lambda _ body _ => body.isWhileFree
  | .unary _ operand _ => operand.isWhileFree
  | .binary _ left right _ => left.isWhileFree && right.isWhileFree

/-- Whether there is no `while` in expressions. -/
def areWhileFree : List Expression → Bool
  | [] => true
  | first :: rest => first.isWhileFree && areWhileFree rest

/-- Whether there is no `while` in the body of a lambda. -/
def LambdaBody.isWhileFree : LambdaBody → Bool
  | .expression value => value.isWhileFree
  | .block body => body.isWhileFree

/-- Whether there is no `while` in a block. -/
def Block.isWhileFree : Block → Bool
  | .mk statements _ => statementsAreWhileFree statements

/-- Whether there is no `while` in statements. -/
def statementsAreWhileFree : List Statement → Bool
  | [] => true
  | first :: rest => first.isWhileFree && statementsAreWhileFree rest

/-- Whether a statement is no `while` and there is none in it. -/
def Statement.isWhileFree : Statement → Bool
  | .declare _ _ value _ => value.isWhileFree
  | .assign _ value _ => value.isWhileFree
  | .forEach _ iterable body _ => iterable.isWhileFree && body.isWhileFree
  | .whileLoop .. => false
  | .conditional test body other _ => test.isWhileFree && body.isWhileFree && other.isWhileFree
  | .returns none _ => true
  | .returns (some value) _ => value.isWhileFree
  | .evaluate value => value.isWhileFree

/-- Whether there is no `while` in an alternative. -/
def Alternative.isWhileFree : Alternative → Bool
  | .absent => true
  | .block body => body.isWhileFree
  | .chain conditional => conditional.isWhileFree

end

/-- Whether there is no `while` in a function. -/
def FunctionDeclaration.isWhileFree (function : FunctionDeclaration) : Bool :=
  function.body.isWhileFree

/-- Whether there is no `while` in the first value of a field. -/
def FieldDeclaration.isWhileFree (field : FieldDeclaration) : Bool :=
  field.value.all Expression.isWhileFree

/-- Whether there is no `while` in a type. -/
def TypeDeclaration.isWhileFree (type : TypeDeclaration) : Bool :=
  type.fields.all FieldDeclaration.isWhileFree
    && type.functions.all FunctionDeclaration.isWhileFree

/-- Whether there is no `while` in a file. -/
def File.isWhileFree (file : File) : Bool :=
  file.types.all TypeDeclaration.isWhileFree

end GuestScript.Syntax
