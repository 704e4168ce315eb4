import GuestScript.Operator
import GuestScript.Source

/-!
# Syntax trees

The structure of a source text. A node carries the span of text it came from; names carry their
own span besides, because messages point at them.
-/

namespace GuestScript.Syntax

/-- A name and where it stands. -/
structure Identifier where
  name : String
  span : Span
  deriving DecidableEq

/-- A type as it is written. -/
inductive TypeExpression where
  | int (span : Span)
  | str (span : Span)
  | bool (span : Span)
  | unit (span : Span)
  | dyn (span : Span)
  | array (element : TypeExpression) (span : Span)
  | seq (element : TypeExpression) (span : Span)
  | function (parameters : List TypeExpression) (result : TypeExpression) (span : Span)
  | named (name : String) (span : Span)

/-- Where a written type stands. -/
def TypeExpression.span : TypeExpression → Span
  | .int span | .str span | .bool span | .unit span | .dyn span | .array _ span | .seq _ span
  | .function _ _ span | .named _ span => span

/-- What an assignment writes to: a local variable, or a field of the receiver. -/
inductive Place where
  | binding (name : Identifier)
  | field (name : Identifier)

mutual

/-- An expression. `receiver` is the instance that a method works on. -/
inductive Expression where
  | int (value : Int64) (span : Span)
  | str (value : String) (span : Span)
  | bool (value : Bool) (span : Span)
  | array (items : List Expression) (span : Span)
  | receiver (span : Span)
  | path (segments : List Identifier) (span : Span)
  | call (callee : Expression) (arguments : List Expression) (span : Span)
  | field (target : Expression) (name : Identifier) (span : Span)
  | method (target : Expression) (name : Identifier) (arguments : List Expression) (span : Span)
  | element (target index : Expression) (span : Span)
  | construct (typeName : Identifier) (span : Span)
  | lambda (parameters : List Identifier) (body : LambdaBody) (span : Span)
  | unary (operator : UnaryOperator) (operand : Expression) (span : Span)
  | binary (operator : BinaryOperator) (left right : Expression) (span : Span)

/-- What a lambda does: give the value of an expression, or run a block. -/
inductive LambdaBody where
  | expression (value : Expression)
  | block (body : Block)

/-- Statements in braces. -/
inductive Block where
  | mk (statements : List Statement) (span : Span)

/-- A statement. -/
inductive Statement where
  | declare (name : Identifier) (type : Option TypeExpression) (value : Expression) (span : Span)
  | assign (target : Place) (value : Expression) (span : Span)
  | forEach (binding : Identifier) (iterable : Expression) (body : Block) (span : Span)
  | whileLoop (condition : Expression) (body : Block) (span : Span)
  | conditional (condition : Expression) (body : Block) (alternative : Alternative) (span : Span)
  | returns (value : Option Expression) (span : Span)
  | evaluate (value : Expression)

/-- What a conditional does when its condition is false. -/
inductive Alternative where
  | absent
  | block (body : Block)
  | chain (conditional : Statement)

end

/-- Where an expression stands. -/
def Expression.span : Expression → Span
  | .int _ span | .str _ span | .bool _ span | .array _ span | .receiver span | .path _ span
  | .call _ _ span | .field _ _ span | .method _ _ _ span | .element _ _ span
  | .construct _ span | .lambda _ _ span | .unary _ _ span | .binary _ _ _ span => span

/-- The statements of a block, in order. -/
def Block.statements : Block → List Statement
  | .mk statements _ => statements

/-- Where a block stands, braces included. -/
def Block.span : Block → Span
  | .mk _ span => span

/-- A parameter of a function. -/
structure Parameter where
  name : Identifier
  type : TypeExpression

/-- A field of a type, with the expression for its first value if there is one. -/
structure FieldDeclaration where
  name : Identifier
  type : TypeExpression
  value : Option Expression

/-- A function of a type. One that is not static works on an instance. -/
structure FunctionDeclaration where
  name : Identifier
  isPublic : Bool
  isStatic : Bool
  parameters : List Parameter
  result : Option TypeExpression
  body : Block
  span : Span

/-- A type, with the namespace it is declared in. -/
structure TypeDeclaration where
  namespaceName : String
  name : Identifier
  fields : List FieldDeclaration
  functions : List FunctionDeclaration
  span : Span

/-- A source file: the modules it asks for and the types it declares. -/
structure File where
  imports : List Identifier
  types : List TypeDeclaration

/-- The names of the modules that a file asks for. -/
def File.importNames (file : File) : List String :=
  file.imports.map Identifier.name

end GuestScript.Syntax
