import GuestScript.Grammar.Rule

/-!
# The shape of every rule

A `Pattern` describes what a rule reads: fixed text, one character of a class, other rules, and
their ordered combinations. A choice takes the first alternative that matches and never comes back
to it, so the order of alternatives is part of the language. `Rule.body` gives the pattern of each
rule; together they are the whole grammar.
-/

namespace GuestScript.Grammar

/-- A description of a piece of text. `unless` matches nothing, where its pattern does not
match. -/
inductive Pattern where
  | text (characters : List Char)
  | one (accepts : Char → Bool)
  | rule (name : Rule)
  | sequence (first second : Pattern)
  | choice (first second : Pattern)
  | optional (inner : Pattern)
  | many (inner : Pattern)
  | unless (inner : Pattern)
  | startOfText
  | endOfText

namespace Pattern

/-- The given characters. -/
def word (characters : String) : Pattern :=
  .text characters.toList

/-- One pattern after the other. -/
def inOrder : List Pattern → Pattern
  | [] => .text []
  | [last] => last
  | first :: second :: rest => .sequence first (inOrder (second :: rest))

/-- The first pattern that matches. -/
def oneOf : List Pattern → Pattern
  | [] => .one fun _ ↦ false
  | [last] => last
  | first :: second :: rest => .choice first (oneOf (second :: rest))

/-- The first of these texts that is there. -/
def oneOfWords (words : List String) : Pattern :=
  oneOf (words.map word)

/-- One or more of a pattern, with a comma between two of them. -/
def separated (item : Pattern) : Pattern :=
  .sequence item (.many (inOrder [word ",", item]))

/-- Any character at all. -/
def any : Pattern :=
  .one fun _ ↦ true

/-- A decimal digit. -/
def digit : Pattern :=
  .one Char.isDigit

/-- What an identifier may start with. -/
def identifierStart : Pattern :=
  oneOf [.one Char.isAlpha, word "_"]

/-- What an identifier may go on with. -/
def identifierPart : Pattern :=
  oneOf [.one Char.isAlphanum, word "_"]

/-- A word that is not the beginning of a longer one. -/
def wholeWord (characters : String) : Pattern :=
  inOrder [word characters, .unless identifierPart]

/-- A declaration at the top of a file. -/
def item : Pattern :=
  oneOf [.rule .namespaceDeclaration, .rule .typeDeclaration]

/-- A declaration inside a type. -/
def member : Pattern :=
  oneOf [.rule .fieldDeclaration, .rule .functionDeclaration]

/-- A statement. An expression statement comes last, because every other kind starts with a word
or a place that an expression could start with too. -/
def statement : Pattern :=
  oneOf [.rule .letStatement, .rule .forStatement, .rule .whileStatement, .rule .ifStatement,
    .rule .returnStatement, .rule .assignStatement, .rule .expressionStatement]

/-- An operator before its operand. -/
def unaryOperator : Pattern :=
  oneOf [.rule .notOperator, .rule .negateOperator]

/-- An operator between operands. A longer spelling comes before one that it starts with. -/
def binaryOperator : Pattern :=
  oneOf [.rule .orOperator, .rule .andOperator, .rule .equalOperator, .rule .unequalOperator,
    .rule .atMostOperator, .rule .atLeastOperator, .rule .lessOperator, .rule .greaterOperator,
    .rule .addOperator, .rule .subtractOperator, .rule .multiplyOperator, .rule .divideOperator,
    .rule .remainderOperator]

/-- What may follow a primary expression. -/
def suffix : Pattern :=
  oneOf [.rule .callArguments, .rule .indexSuffix, .rule .memberSuffix]

/-- An expression in parentheses; the parentheses leave no trace. -/
def parenthesized : Pattern :=
  inOrder [word "(", .rule .expression, word ")"]

/-- An expression without operators and suffixes. -/
def primary : Pattern :=
  oneOf [.rule .lambda, .rule .newExpression, .rule .literal, .rule .arrayLiteral, .rule .selfWord,
    .rule .path, parenthesized]

end Pattern

open Pattern

/-- The pattern of each rule. -/
def Rule.body : Rule → Pattern
  | .endOfText => .endOfText
  | .keyword =>
      inOrder [oneOfWords ["use", "namespace", "type", "static", "pub", "fn", "let", "field", "for",
        "in", "if", "else", "while", "return", "true", "false", "self", "new"],
        .unless identifierPart]
  | .identifier => inOrder [.unless (.rule .keyword), identifierStart, .many identifierPart]
  | .useWord => wholeWord "use"
  | .namespaceWord => wholeWord "namespace"
  | .typeWord => wholeWord "type"
  | .fieldWord => wholeWord "field"
  | .fnWord => wholeWord "fn"
  | .letWord => wholeWord "let"
  | .forWord => wholeWord "for"
  | .inWord => wholeWord "in"
  | .whileWord => wholeWord "while"
  | .ifWord => wholeWord "if"
  | .elseWord => wholeWord "else"
  | .returnWord => wholeWord "return"
  | .newWord => wholeWord "new"
  | .file => inOrder [.startOfText, .many (.rule .useDeclaration), .many item, .rule .endOfText]
  | .useDeclaration => inOrder [.rule .useWord, .rule .identifier, word ";"]
  | .namespaceDeclaration =>
      inOrder [.rule .namespaceWord, .rule .dottedName, word "\x7b", .many (.rule .typeDeclaration),
        word "\x7d"]
  | .dottedName =>
      inOrder [.rule .identifier, .many (inOrder [word ".", .rule .identifier])]
  | .typeDeclaration =>
      inOrder [.rule .typeWord, .rule .identifier, word "\x7b", .many member, word "\x7d"]
  | .fieldDeclaration =>
      inOrder [.rule .fieldWord, .rule .identifier, word ":", .rule .typeExpression,
        .optional (inOrder [word "=", .rule .expression]), word ";"]
  | .functionDeclaration =>
      inOrder [.optional (.rule .pubWord), .optional (.rule .staticWord), .rule .fnWord,
        .rule .identifier, word "(", .rule .parameters, word ")", .optional (.rule .returnType),
        .rule .block]
  | .pubWord => wholeWord "pub"
  | .staticWord => wholeWord "static"
  | .parameters =>
      .optional (inOrder [.rule .parameter, .many (inOrder [word ",", .rule .parameter]),
        .optional (word ",")])
  | .parameter => inOrder [.rule .identifier, word ":", .rule .typeExpression]
  | .returnType => inOrder [word "->", .rule .typeExpression]
  | .typeExpression =>
      oneOf [.rule .arrayType, .rule .seqType, .rule .functionType, .rule .primitiveType,
        .rule .namedType]
  | .arrayType => inOrder [word "[", .rule .typeExpression, word "]"]
  | .seqType => inOrder [word "seq", word "<", .rule .typeExpression, word ">"]
  | .functionType =>
      inOrder [.rule .fnWord, word "(", .optional (separated (.rule .typeExpression)), word ")",
        word "->", .rule .typeExpression]
  | .primitiveType =>
      inOrder [oneOfWords ["int", "str", "bool", "unit", "dyn"], .unless identifierPart]
  | .namedType => .rule .identifier
  | .block => inOrder [word "\x7b", .many statement, word "\x7d"]
  | .letStatement =>
      inOrder [.rule .letWord, .rule .identifier,
        .optional (inOrder [word ":", .rule .typeExpression]), word "=", .rule .expression,
        word ";"]
  | .forStatement =>
      inOrder [.rule .forWord, .rule .identifier, .rule .inWord, .rule .expression, .rule .block]
  | .whileStatement => inOrder [.rule .whileWord, .rule .expression, .rule .block]
  | .ifStatement =>
      inOrder [.rule .ifWord, .rule .expression, .rule .block,
        .optional (inOrder [.rule .elseWord, oneOf [.rule .ifStatement, .rule .block]])]
  | .returnStatement => inOrder [.rule .returnWord, .optional (.rule .expression), word ";"]
  | .assignStatement =>
      inOrder [.rule .place, word "=", .unless (word "="), .rule .expression, word ";"]
  | .place => oneOf [.rule .fieldPlace, .rule .identifier]
  | .fieldPlace => inOrder [.rule .selfWord, word ".", .rule .identifier]
  | .expressionStatement => inOrder [.rule .expression, word ";"]
  | .expression =>
      inOrder [.many unaryOperator, .rule .suffixed,
        .many (inOrder [binaryOperator, .many unaryOperator, .rule .suffixed])]
  | .notOperator => word "!"
  | .negateOperator => word "-"
  | .orOperator => word "||"
  | .andOperator => word "&&"
  | .equalOperator => word "=="
  | .unequalOperator => word "!="
  | .atMostOperator => word "<="
  | .atLeastOperator => word ">="
  | .lessOperator => word "<"
  | .greaterOperator => word ">"
  | .addOperator => word "+"
  | .subtractOperator => word "-"
  | .multiplyOperator => word "*"
  | .divideOperator => word "/"
  | .remainderOperator => word "%"
  | .suffixed => inOrder [primary, .many suffix]
  | .callArguments =>
      inOrder [word "(", .optional (inOrder [.rule .expression,
        .many (inOrder [word ",", .rule .expression]), .optional (word ",")]), word ")"]
  | .indexSuffix => inOrder [word "[", .rule .expression, word "]"]
  | .memberSuffix => inOrder [word ".", .rule .identifier]
  | .lambda =>
      inOrder [word "|", .rule .lambdaParameters, word "|",
        oneOf [.rule .block, .rule .expression]]
  | .lambdaParameters => .optional (separated (.rule .identifier))
  | .newExpression => inOrder [.rule .newWord, .rule .identifier, word "(", word ")"]
  | .arrayLiteral =>
      inOrder [word "[", .optional (inOrder [.rule .expression,
        .many (inOrder [word ",", .rule .expression]), .optional (word ",")]), word "]"]
  | .selfWord => wholeWord "self"
  | .path => inOrder [.rule .identifier, .many (inOrder [word "::", .rule .identifier])]
  | .literal => oneOf [.rule .integerLiteral, .rule .stringLiteral, .rule .booleanLiteral]
  | .integerLiteral => inOrder [digit, .many digit]
  | .booleanLiteral => inOrder [oneOfWords ["true", "false"], .unless identifierPart]
  | .stringLiteral => inOrder [word "\"", .rule .stringBody, word "\""]
  | .stringBody =>
      .many (oneOf [inOrder [.unless (oneOfWords ["\"", "\\"]), any], inOrder [word "\\", any]])

end GuestScript.Grammar
