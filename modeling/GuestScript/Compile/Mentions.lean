import GuestScript.Syntax.Tree

/-!
# Names that a lambda mentions

A lambda copies the locals of its surroundings that its body may read, call or assign. The names are
collected without regard to scopes, so a name that the body declares itself is collected too. The
receiver counts under the name `self`; a call of a simple name may mean a method of the receiver and
so mentions it. Names are kept in order and once each.
-/

namespace GuestScript.Compile.Mentions

open Syntax

/-- The name that the receiver goes by. -/
def receiverName : String := "self"

/-- Add a name to names in order. -/
def insert (name : String) : List String → List String
  | [] => [name]
  | first :: rest =>
      if name = first then first :: rest
      else if name < first then name :: first :: rest
      else first :: insert name rest

/-- Add the name that a place mentions. -/
def inPlace (names : List String) : Place → List String
  | .binding name => insert name.name names
  | .field _ => insert receiverName names

/-- Add the name that a path mentions; a path of several segments mentions no local. -/
def inPath (names : List String) : List Identifier → List String
  | [name] => insert name.name names
  | _ => names

/-- Add what calling an expression mentions besides the expression. -/
def inCallee (names : List String) : Expression → List String
  | .path [_] _ => insert receiverName names
  | _ => names

mutual

/-- Add the names that an expression mentions. -/
def inExpression (names : List String) : Expression → List String
  | .int .. | .str .. | .bool .. | .construct .. => names
  | .receiver _ => insert receiverName names
  | .path segments _ => inPath names segments
  | .array items _ => inExpressions names items
  | .call callee arguments _ =>
      inExpressions (inExpression (inCallee names callee) callee) arguments
  | .method target _ arguments _ => inExpressions (inExpression names target) arguments
  | .field target _ _ => inExpression names target
  | .element target index _ => inExpression (inExpression names target) index
  | .lambda _ body _ => inLambda names body
  | .unary _ operand _ => inExpression names operand
  | .binary _ left right _ => inExpression (inExpression names left) right

/-- Add the names that expressions mention. -/
def inExpressions (names : List String) : List Expression → List String
  | [] => names
  | first :: rest => inExpressions (inExpression names first) rest

/-- Add the names that the body of a lambda mentions. -/
def inLambda (names : List String) : LambdaBody → List String
  | .expression value => inExpression names value
  | .block body => inBlock names body

/-- Add the names that a block mentions. -/
def inBlock (names : List String) : Block → List String
  | .mk statements _ => inStatements names statements

/-- Add the names that statements mention. -/
def inStatements (names : List String) : List Statement → List String
  | [] => names
  | first :: rest => inStatements (inStatement names first) rest

/-- Add the names that a statement mentions. -/
def inStatement (names : List String) : Statement → List String
  | .declare _ _ value _ => inExpression names value
  | .assign target value _ => inExpression (inPlace names target) value
  | .forEach _ iterable body _ => inBlock (inExpression names iterable) body
  | .whileLoop condition body _ => inBlock (inExpression names condition) body
  | .conditional condition body alternative _ =>
      inAlternative (inBlock (inExpression names condition) body) alternative
  | .returns none _ => names
  | .returns (some value) _ => inExpression names value
  | .evaluate value => inExpression names value

/-- Add the names that an alternative mentions. -/
def inAlternative (names : List String) : Alternative → List String
  | .absent => names
  | .block body => inBlock names body
  | .chain conditional => inStatement names conditional

end

end GuestScript.Compile.Mentions
