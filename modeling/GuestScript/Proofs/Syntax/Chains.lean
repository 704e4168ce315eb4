import GuestScript.Syntax.Tree

/-!
# Chains of conditionals

A syntax tree could hold any statement behind `else`, but a source text can only have a block or
another conditional there. A tree is chained if that is so throughout.
-/

namespace GuestScript.Syntax

/-- Whether a statement is a conditional. -/
def Statement.isConditional : Statement → Bool
  | .conditional .. => true
  | _ => false

mutual

/-- Whether only conditionals are chained in an expression. -/
def Expression.isChained : Expression → Bool
  | .int .. | .str .. | .bool .. | .receiver _ | .path .. | .construct .. => true
  | .array items _ => areChained items
  | .call callee arguments _ => callee.isChained && areChained arguments
  | .method target _ arguments _ => target.isChained && areChained arguments
  | .field target _ _ => target.isChained
  | .element target index _ => target.isChained && index.isChained
  | .lambda _ body _ => body.isChained
  | .unary _ operand _ => operand.isChained
  | .binary _ left right _ => left.isChained && right.isChained

/-- Whether only conditionals are chained in expressions. -/
def areChained : List Expression → Bool
  | [] => true
  | first :: rest => first.isChained && areChained rest

/-- Whether only conditionals are chained in the body of a lambda. -/
def LambdaBody.isChained : LambdaBody → Bool
  | .expression value => value.isChained
  | .block body => body.isChained

/-- Whether only conditionals are chained in a block. -/
def Block.isChained : Block → Bool
  | .mk statements _ => statementsAreChained statements

/-- Whether only conditionals are chained in statements. -/
def statementsAreChained : List Statement → Bool
  | [] => true
  | first :: rest => first.isChained && statementsAreChained rest

/-- Whether only conditionals are chained in a statement. -/
def Statement.isChained : Statement → Bool
  | .declare _ _ value _ => value.isChained
  | .assign _ value _ => value.isChained
  | .forEach _ iterable body _ => iterable.isChained && body.isChained
  | .whileLoop test body _ => test.isChained && body.isChained
  | .conditional test body other _ => test.isChained && body.isChained && other.isChained
  | .returns none _ => true
  | .returns (some value) _ => value.isChained
  | .evaluate value => value.isChained

/-- Whether only conditionals are chained in an alternative. -/
def Alternative.isChained : Alternative → Bool
  | .absent => true
  | .block body => body.isChained
  | .chain conditional => conditional.isConditional && conditional.isChained

end

/-- Whether only conditionals are chained in a function. -/
def FunctionDeclaration.isChained (function : FunctionDeclaration) : Bool :=
  function.body.isChained

/-- Whether only conditionals are chained in the first value of a field. -/
def FieldDeclaration.isChained (field : FieldDeclaration) : Bool :=
  field.value.all Expression.isChained

/-- Whether only conditionals are chained in a type. -/
def TypeDeclaration.isChained (type : TypeDeclaration) : Bool :=
  type.fields.all FieldDeclaration.isChained && type.functions.all FunctionDeclaration.isChained

/-- Whether only conditionals are chained in a file. -/
def File.isChained (file : File) : Bool :=
  file.types.all TypeDeclaration.isChained

end GuestScript.Syntax
