import GuestScript.Grammar.Match
import GuestScript.Syntax.Infix
import GuestScript.Syntax.Literal

/-!
# From rules to syntax trees

The tree of rules that the grammar gives is turned into a syntax tree from the leaves up. Each node
becomes one `Piece`: `ofToken` makes the piece of a token and `assemble` that of a rule whose parts
are pieces already, so neither of them recurs. `build` walks the tree once, from left to right, and
notes problems in the order in which it meets their nodes. No version is asked for: which of the
problems matter under a version is decided later.
-/

namespace GuestScript.Syntax

open Grammar (Node Rule)

/-- What a node of the rule tree means. -/
inductive Piece where
  | name (name : Identifier)
  | names (names : List Identifier)
  | dotted (name : String)
  | publicMark
  | staticMark
  | text (value : String)
  | unary (operator : UnaryOperator) (span : Span)
  | binary (operator : BinaryOperator)
  | type (type : TypeExpression)
  | result (type : TypeExpression)
  | parameter (parameter : Parameter)
  | parameters (parameters : List Parameter)
  | expression (value : Expression)
  | arguments (values : List Expression) (span : Span)
  | index (value : Expression) (span : Span)
  | member (name : Identifier) (span : Span)
  | place (target : Place)
  | statement (statement : Statement)
  | block (block : Block)
  | field (field : FieldDeclaration)
  | function (function : FunctionDeclaration)
  | declaration (declaration : TypeDeclaration)
  | group (declarations : List TypeDeclaration)
  | usedModule (name : Identifier)
  | ending
  | file (file : File)

namespace Assembly

/-- The identifier that a piece is. -/
def asName : Piece → Option Identifier
  | .name name => some name
  | _ => none

/-- The type that a piece is. -/
def asType : Piece → Option TypeExpression
  | .type type => some type
  | _ => none

/-- The expression that a piece is. -/
def asExpression : Piece → Option Expression
  | .expression value => some value
  | _ => none

/-- The parameter that a piece is. -/
def asParameter : Piece → Option Parameter
  | .parameter parameter => some parameter
  | _ => none

/-- The statement that a piece is. -/
def asStatement : Piece → Option Statement
  | .statement statement => some statement
  | _ => none

/-- The type declaration that a piece is. -/
def asDeclaration : Piece → Option TypeDeclaration
  | .declaration declaration => some declaration
  | _ => none

/-- The type declarations that an item at the top of a file holds. -/
def asDeclarations : Piece → List TypeDeclaration
  | .declaration declaration => [declaration]
  | .group declarations => declarations
  | _ => []

/-- The module that an item at the top of a file asks for. -/
def asUsedModule : Piece → Option Identifier
  | .usedModule name => some name
  | _ => none

/-- The field that a member of a type is. -/
def asField : Piece → Option FieldDeclaration
  | .field field => some field
  | _ => none

/-- The function that a member of a type is. -/
def asFunction : Piece → Option FunctionDeclaration
  | .function function => some function
  | _ => none

/-- What follows the name of a function: its parameters, its result if it has one, its body. -/
def functionTail (name : Identifier) (isPublic isStatic : Bool) (span : Span) :
    List Piece → Option Piece
  | [.parameters parameters, .block body] =>
      some (.function ⟨name, isPublic, isStatic, parameters, none, body, span⟩)
  | [.parameters parameters, .result type, .block body] =>
      some (.function ⟨name, isPublic, isStatic, parameters, some type, body, span⟩)
  | _ => none

/-- A function declaration: its marks, its name and what follows. -/
def functionOf (span : Span) : List Piece → Option Piece
  | .publicMark :: .staticMark :: .name name :: tail => functionTail name true true span tail
  | .publicMark :: .name name :: tail => functionTail name true false span tail
  | .staticMark :: .name name :: tail => functionTail name false true span tail
  | .name name :: tail => functionTail name false false span tail
  | _ => none

/-- An operand with the unary operators in front of it, and the pieces behind it. -/
def operandOf : List (UnaryOperator × Span) → List Piece → Option (Expression × List Piece)
  | operators, .unary operator span :: rest => operandOf (operators ++ [(operator, span)]) rest
  | operators, .expression value :: rest => some (applyUnary operators value, rest)
  | _, _ => none

/-- The operators and operands behind the first operand of an expression. The second list holds
the unary operators, and the operator before them, that still wait for their operand. -/
def linksOf : Option (BinaryOperator × List (UnaryOperator × Span)) → List Piece →
    List (BinaryOperator × Expression) → Option (List (BinaryOperator × Expression))
  | none, [], links => some links.reverse
  | none, .binary operator :: rest, links => linksOf (some (operator, [])) rest links
  | some (operator, waiting), .unary inner span :: rest, links =>
      linksOf (some (operator, waiting ++ [(inner, span)])) rest links
  | some (operator, waiting), .expression value :: rest, links =>
      linksOf none rest ((operator, applyUnary waiting value) :: links)
  | _, _, _ => none

/-- An expression: operands with operators between them. -/
def expressionOf (pieces : List Piece) : Option Piece := do
  let (first, rest) ← operandOf [] pieces
  let links ← linksOf none rest []
  pure (.expression (Infix.ofChain first links).toExpression)

/-- Apply the suffixes behind an expression. A member with arguments behind it is a method. -/
def applySuffixes (target : Expression) : List Piece → Option Expression
  | [] => some target
  | .arguments values span :: rest =>
      applySuffixes (.call target values (target.span.cover span)) rest
  | .index value span :: rest =>
      applySuffixes (.element target value (target.span.cover span)) rest
  | .member name _ :: .arguments values span :: rest =>
      applySuffixes (.method target name values (target.span.cover span)) rest
  | .member name span :: rest => applySuffixes (.field target name (target.span.cover span)) rest
  | _ => none

/-- The last piece of a list, which is the result of a function type, and those before it. -/
def functionType (span : Span) (types : List TypeExpression) : Option Piece :=
  match types.reverse with
  | result :: parameters => some (.type (.function parameters.reverse result span))
  | [] => none

/-- The piece of a token, and the problems with it. -/
def ofToken (rule : Rule) (span : Span) (text : String) : Option (Piece × List Problem) :=
  match rule with
  | .identifier => some (.name ⟨text, span⟩, [])
  | .pubWord => some (.publicMark, [])
  | .staticWord => some (.staticMark, [])
  | .selfWord => some (.expression (.receiver span), [])
  | .booleanLiteral => some (.expression (.bool (text = "true") span), [])
  | .integerLiteral =>
      let (value, problems) := Literal.integer text span
      some (.expression (.int value span), problems)
  | .stringBody =>
      let (value, problems) := Literal.string text span
      some (.text value, problems)
  | .primitiveType =>
      if text = "int" then some (.type (.int span), [])
      else if text = "str" then some (.type (.str span), [])
      else if text = "bool" then some (.type (.bool span), [])
      else if text = "unit" then some (.type (.unit span), [])
      else if text = "dyn" then some (.type (.dyn span), [.usesFeature .dynamicType span])
      else none
  | _ => none

/-- The problems with a rule, whatever its parts are. -/
def problemsOf (rule : Rule) (span : Span) : List Problem :=
  match rule with
  | .lambda => [.usesFeature .lambda span]
  | _ => []

/-- The piece of an operator that stands between operands or before one. -/
def operatorOf (rule : Rule) (span : Span) : Option Piece :=
  match rule with
  | .notOperator => some (.unary .not span)
  | .negateOperator => some (.unary .negate span)
  | .orOperator => some (.binary .or)
  | .andOperator => some (.binary .and)
  | .equalOperator => some (.binary .equal)
  | .unequalOperator => some (.binary .unequal)
  | .atMostOperator => some (.binary .atMost)
  | .atLeastOperator => some (.binary .atLeast)
  | .lessOperator => some (.binary .less)
  | .greaterOperator => some (.binary .greater)
  | .addOperator => some (.binary .add)
  | .subtractOperator => some (.binary .subtract)
  | .multiplyOperator => some (.binary .multiply)
  | .divideOperator => some (.binary .divide)
  | .remainderOperator => some (.binary .remainder)
  | _ => none

/-- The piece of a type or of a declaration, from the pieces of its parts. -/
def assembleDeclaration (rule : Rule) (span : Span) (pieces : List Piece) : Option Piece :=
  match rule, pieces with
  | .file, pieces =>
      some (.file ⟨pieces.filterMap asUsedModule, pieces.flatMap asDeclarations⟩)
  | .endOfText, [] => some .ending
  | .useDeclaration, [.name name] => some (.usedModule name)
  | .dottedName, pieces => do
      let names ← pieces.mapM asName
      pure (.dotted (".".intercalate (names.map Identifier.name)))
  | .namespaceDeclaration, .dotted namespaceName :: types => do
      let declarations ← types.mapM asDeclaration
      pure (.group (declarations.map fun declaration ↦ { declaration with namespaceName }))
  | .typeDeclaration, .name name :: members =>
      some (.declaration
        ⟨"", name, members.filterMap asField, members.filterMap asFunction, span⟩)
  | .fieldDeclaration, [.name name, .type type] => some (.field ⟨name, type, none⟩)
  | .fieldDeclaration, [.name name, .type type, .expression value] =>
      some (.field ⟨name, type, some value⟩)
  | .functionDeclaration, pieces => functionOf span pieces
  | .parameters, pieces => do pure (.parameters (← pieces.mapM asParameter))
  | .parameter, [.name name, .type type] => some (.parameter ⟨name, type⟩)
  | .returnType, [.type type] => some (.result type)
  | .typeExpression, [.type type] => some (.type type)
  | .arrayType, [.type element] => some (.type (.array element span))
  | .seqType, [.type element] => some (.type (.seq element span))
  | .functionType, pieces => do functionType span (← pieces.mapM asType)
  | .namedType, [.name name] => some (.type (.named name.name span))
  | _, _ => none

/-- The piece of a statement, from the pieces of its parts. -/
def assembleStatement (rule : Rule) (span : Span) (pieces : List Piece) : Option Piece :=
  match rule, pieces with
  | .block, pieces => do pure (.block (.mk (← pieces.mapM asStatement) span))
  | .letStatement, [.name name, .expression value] =>
      some (.statement (.declare name none value span))
  | .letStatement, [.name name, .type type, .expression value] =>
      some (.statement (.declare name (some type) value span))
  | .forStatement, [.name name, .expression iterable, .block body] =>
      some (.statement (.forEach name iterable body span))
  | .whileStatement, [.expression condition, .block body] =>
      some (.statement (.whileLoop condition body span))
  | .ifStatement, [.expression condition, .block body] =>
      some (.statement (.conditional condition body .absent span))
  | .ifStatement, [.expression condition, .block body, .block alternative] =>
      some (.statement (.conditional condition body (.block alternative) span))
  | .ifStatement,
      [.expression condition, .block body, .statement (.conditional test inner other whole)] =>
      let alternative := .chain (.conditional test inner other whole)
      some (.statement (.conditional condition body alternative span))
  | .returnStatement, [] => some (.statement (.returns none span))
  | .returnStatement, [.expression value] => some (.statement (.returns (some value) span))
  | .assignStatement, [.place target, .expression value] =>
      some (.statement (.assign target value span))
  | .place, [.name name] => some (.place (.binding name))
  | .place, [.place target] => some (.place target)
  | .fieldPlace, [.expression _, .name name] => some (.place (.field name))
  | .expressionStatement, [.expression value] => some (.statement (.evaluate value))
  | _, _ => none

/-- The piece of an expression, from the pieces of its parts. -/
def assembleExpression (rule : Rule) (span : Span) (pieces : List Piece) : Option Piece :=
  match rule, pieces with
  | .expression, pieces => expressionOf pieces
  | .suffixed, .expression value :: suffixes => do
      pure (.expression (← applySuffixes value suffixes))
  | .callArguments, pieces => do pure (.arguments (← pieces.mapM asExpression) span)
  | .indexSuffix, [.expression value] => some (.index value span)
  | .memberSuffix, [.name name] => some (.member name span)
  | .lambda, [.names names, .block body] =>
      some (.expression (.lambda names (.block body) span))
  | .lambda, [.names names, .expression value] =>
      some (.expression (.lambda names (.expression value) span))
  | .lambdaParameters, pieces => do pure (.names (← pieces.mapM asName))
  | .newExpression, [.name name] => some (.expression (.construct name span))
  | .arrayLiteral, pieces => do
      pure (.expression (.array (← pieces.mapM asExpression) span))
  | .path, pieces => do pure (.expression (.path (← pieces.mapM asName) span))
  | .literal, [.expression value] => some (.expression value)
  | .stringLiteral, [.text value] => some (.expression (.str value span))
  | rule, [] => operatorOf rule span
  | _, _ => none

/-- The piece of a rule, from the pieces of its parts. -/
def assemble (rule : Rule) (span : Span) (pieces : List Piece) : Option Piece :=
  match assembleDeclaration rule span pieces with
  | some piece => some piece
  | none =>
      match assembleStatement rule span pieces with
      | some piece => some piece
      | none => assembleExpression rule span pieces

mutual

/-- The piece of a node, and the problems in it behind those met before; the newest problem comes
first. -/
def build : Node → List Problem → Option (Piece × List Problem)
  | .leaf rule span text, problems => do
      let (piece, found) ← ofToken rule span text
      pure (piece, found.reverse ++ problems)
  | .branch rule span children, problems => do
      let (pieces, problems) ← buildAll children (problemsOf rule span ++ problems) []
      pure (← assemble rule span pieces, problems)

/-- The pieces of nodes in order, without those that only introduce a construct. The last argument
holds the pieces made so far, the newest first. -/
def buildAll : List Node → List Problem → List Piece → Option (List Piece × List Problem)
  | [], problems, pieces => some (pieces.reverse, problems)
  | node :: rest, problems, pieces =>
      if node.rule.isIntroducer then buildAll rest problems pieces
      else
        match build node problems with
        | none => none
        | some (piece, problems) => buildAll rest problems (piece :: pieces)

end

/-- The file that a rule tree describes, and the problems in it in the order of the text. -/
def fileOf (node : Node) : Option (File × List Problem) :=
  match build node [] with
  | some (.file file, problems) => some (file, problems.reverse)
  | _ => none

end Assembly

end GuestScript.Syntax
