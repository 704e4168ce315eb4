/-!
# The rules of the grammar

The grammar is a set of named rules. This module lists them in the order in which an error message
mentions them, and says how each of them reads the text and what a message calls it.
-/

namespace GuestScript.Grammar

/-- The rules of the grammar. -/
inductive Rule where
  | endOfText
  | keyword
  | identifier
  | useWord
  | namespaceWord
  | typeWord
  | fieldWord
  | fnWord
  | letWord
  | forWord
  | inWord
  | whileWord
  | ifWord
  | elseWord
  | returnWord
  | newWord
  | file
  | useDeclaration
  | namespaceDeclaration
  | dottedName
  | typeDeclaration
  | fieldDeclaration
  | functionDeclaration
  | pubWord
  | staticWord
  | parameters
  | parameter
  | returnType
  | typeExpression
  | arrayType
  | seqType
  | functionType
  | primitiveType
  | namedType
  | block
  | letStatement
  | forStatement
  | whileStatement
  | ifStatement
  | returnStatement
  | assignStatement
  | place
  | fieldPlace
  | expressionStatement
  | expression
  | notOperator
  | negateOperator
  | orOperator
  | andOperator
  | equalOperator
  | unequalOperator
  | atMostOperator
  | atLeastOperator
  | lessOperator
  | greaterOperator
  | addOperator
  | subtractOperator
  | multiplyOperator
  | divideOperator
  | remainderOperator
  | suffixed
  | callArguments
  | indexSuffix
  | memberSuffix
  | lambda
  | lambdaParameters
  | newExpression
  | arrayLiteral
  | selfWord
  | path
  | literal
  | integerLiteral
  | booleanLiteral
  | stringLiteral
  | stringBody
  deriving DecidableEq

/-- How a rule reads the text. A `spaced` rule allows blanks and comments between its parts, a
`tight` one does not, and an `atomic` one is a single token: nothing inside it is of interest. -/
inductive Mode where
  | spaced
  | tight
  | atomic
  deriving DecidableEq

namespace Rule

/-- Every rule, in the order in which an error message mentions them. -/
def all : List Rule :=
  [.endOfText, .keyword, .identifier, .useWord, .namespaceWord, .typeWord, .fieldWord, .fnWord,
    .letWord, .forWord, .inWord, .whileWord, .ifWord, .elseWord, .returnWord, .newWord, .file,
    .useDeclaration, .namespaceDeclaration, .dottedName, .typeDeclaration, .fieldDeclaration,
    .functionDeclaration, .pubWord, .staticWord, .parameters, .parameter, .returnType,
    .typeExpression, .arrayType, .seqType, .functionType, .primitiveType, .namedType, .block,
    .letStatement, .forStatement, .whileStatement, .ifStatement, .returnStatement,
    .assignStatement, .place, .fieldPlace, .expressionStatement, .expression, .notOperator,
    .negateOperator, .orOperator, .andOperator, .equalOperator, .unequalOperator, .atMostOperator,
    .atLeastOperator, .lessOperator, .greaterOperator, .addOperator, .subtractOperator,
    .multiplyOperator, .divideOperator, .remainderOperator, .suffixed, .callArguments,
    .indexSuffix, .memberSuffix, .lambda, .lambdaParameters, .newExpression, .arrayLiteral,
    .selfWord, .path, .literal, .integerLiteral, .booleanLiteral, .stringLiteral, .stringBody]

/-- How a rule reads the text. Words, numbers and the inside of a string are single tokens. -/
def mode : Rule → Mode
  | .keyword | .identifier | .useWord | .namespaceWord | .typeWord | .fieldWord | .fnWord
  | .letWord | .forWord | .inWord | .whileWord | .ifWord | .elseWord | .returnWord | .newWord
  | .pubWord | .staticWord | .primitiveType | .selfWord | .integerLiteral | .booleanLiteral
  | .stringBody => .atomic
  | .stringLiteral => .tight
  | _ => .spaced

/-- Whether a rule is a word that introduces a construct and carries no meaning of its own. -/
def isIntroducer : Rule → Bool
  | .useWord | .namespaceWord | .typeWord | .fieldWord | .fnWord | .letWord | .forWord | .inWord
  | .whileWord | .ifWord | .elseWord | .returnWord | .newWord => true
  | _ => false

/-- What an error message calls a rule. -/
def label : Rule → String
  | .endOfText => "end of input"
  | .keyword => "keyword"
  | .identifier => "identifier"
  | .useWord | .useDeclaration => "`use`"
  | .namespaceWord | .namespaceDeclaration => "`namespace`"
  | .typeWord | .typeDeclaration => "`type`"
  | .fieldWord | .fieldDeclaration => "`field`"
  | .fnWord | .functionDeclaration => "`fn`"
  | .letWord => "kw_let"
  | .forWord => "kw_for"
  | .inWord => "kw_in"
  | .whileWord => "kw_while"
  | .ifWord => "kw_if"
  | .elseWord => "kw_else"
  | .returnWord => "kw_return"
  | .newWord => "kw_new"
  | .file => "file"
  | .dottedName => "dotted_name"
  | .pubWord => "visibility"
  | .staticWord => "static_kw"
  | .parameters => "param_list"
  | .parameter => "parameter"
  | .returnType => "return_type"
  | .typeExpression => "type"
  | .arrayType => "array_type"
  | .seqType => "seq_type"
  | .functionType => "fn_type"
  | .primitiveType => "prim_type"
  | .namedType => "named_type"
  | .block => "`\x7b`"
  | .letStatement => "let_stmt"
  | .forStatement => "for_stmt"
  | .whileStatement => "while_stmt"
  | .ifStatement => "if_stmt"
  | .returnStatement => "return_stmt"
  | .assignStatement => "assign_stmt"
  | .place => "place"
  | .fieldPlace => "field_place"
  | .expressionStatement => "expr_stmt"
  | .expression | .suffixed => "expression"
  | .notOperator => "not_op"
  | .negateOperator => "neg_op"
  | .orOperator => "or_op"
  | .andOperator => "and_op"
  | .equalOperator => "eq_op"
  | .unequalOperator => "ne_op"
  | .atMostOperator => "le_op"
  | .atLeastOperator => "ge_op"
  | .lessOperator => "lt_op"
  | .greaterOperator => "gt_op"
  | .addOperator => "add_op"
  | .subtractOperator => "sub_op"
  | .multiplyOperator => "mul_op"
  | .divideOperator => "div_op"
  | .remainderOperator => "rem_op"
  | .callArguments => "call_args"
  | .indexSuffix => "index_suffix"
  | .memberSuffix => "member_suffix"
  | .lambda => "lambda"
  | .lambdaParameters => "lambda_params"
  | .newExpression => "new_expr"
  | .arrayLiteral => "array_lit"
  | .selfWord => "self_kw"
  | .path => "path"
  | .literal => "literal"
  | .integerLiteral => "int_lit"
  | .booleanLiteral => "bool_lit"
  | .stringLiteral => "string_lit"
  | .stringBody => "string_inner"

end Rule

end GuestScript.Grammar
