import Mathlib.Data.List.Forall2
import GuestScript.Proofs.Grammar.Derivations
import GuestScript.Proofs.Syntax.Groupings
import GuestScript.Syntax.Parse

/-!
# Every rule tree has a meaning

The grammar gives a rule the parts that assembling it asks for: of a tree that follows the grammar each
node becomes a piece of the kind that its rule stands for. So a text that follows the grammar has a
syntax tree, whatever problems are noted on the way: `exists_fileOf`.
-/

namespace GuestScript.Syntax

open Grammar (Node Rule)
open Grammar.Pattern

/-- What the node of a rule means. -/
def Makes : Rule → Piece → Prop
  | .endOfText, piece => piece = .ending
  | .identifier, piece => ∃ name, piece = .name name
  | .file, piece => ∃ file, piece = .file file
  | .useDeclaration, piece => ∃ name, piece = .usedModule name
  | .namespaceDeclaration, piece => ∃ declarations, piece = .group declarations
  | .dottedName, piece => ∃ name, piece = .dotted name
  | .typeDeclaration, piece => ∃ declaration, piece = .declaration declaration
  | .fieldDeclaration, piece => ∃ field, piece = .field field
  | .functionDeclaration, piece => ∃ function, piece = .function function
  | .pubWord, piece => piece = .publicMark
  | .staticWord, piece => piece = .staticMark
  | .parameters, piece => ∃ parameters, piece = .parameters parameters
  | .parameter, piece => ∃ parameter, piece = .parameter parameter
  | .returnType, piece => ∃ type, piece = .result type
  | .typeExpression, piece | .arrayType, piece | .seqType, piece | .functionType, piece
  | .primitiveType, piece | .namedType, piece => ∃ type, piece = .type type
  | .block, piece => ∃ block, piece = .block block
  | .ifStatement, piece => ∃ condition body alternative span,
      piece = .statement (.conditional condition body alternative span)
  | .letStatement, piece | .forStatement, piece | .whileStatement, piece | .returnStatement, piece
  | .assignStatement, piece | .expressionStatement, piece => ∃ statement, piece = .statement statement
  | .place, piece | .fieldPlace, piece => ∃ target, piece = .place target
  | .notOperator, piece | .negateOperator, piece => ∃ operator span, piece = .unary operator span
  | .orOperator, piece | .andOperator, piece | .equalOperator, piece | .unequalOperator, piece
  | .atMostOperator, piece | .atLeastOperator, piece | .lessOperator, piece
  | .greaterOperator, piece | .addOperator, piece | .subtractOperator, piece
  | .multiplyOperator, piece | .divideOperator, piece | .remainderOperator, piece =>
      ∃ operator, piece = .binary operator
  | .callArguments, piece => ∃ values span, piece = .arguments values span
  | .indexSuffix, piece => ∃ value span, piece = .index value span
  | .memberSuffix, piece => ∃ name span, piece = .member name span
  | .lambdaParameters, piece => ∃ names, piece = .names names
  | .expression, piece | .suffixed, piece | .lambda, piece | .newExpression, piece
  | .arrayLiteral, piece | .selfWord, piece | .path, piece | .literal, piece
  | .integerLiteral, piece | .booleanLiteral, piece | .stringLiteral, piece =>
      ∃ value, piece = .expression value
  | .stringBody, piece => ∃ value, piece = .text value
  | _, _ => False

/-- The pieces of the nodes of these rules, without the words that only introduce a construct. -/
abbrev MakesAll (rules : List Rule) : List Piece → Prop :=
  List.Forall₂ Makes (rules.filter fun rule ↦ !rule.isIntroducer)

namespace Assembly

variable {rules others : List Rule} {pieces : List Piece}

/-! ## Parts of one kind -/

theorem forall_of_makesAll {holds : Piece → Prop} (made : MakesAll rules pieces)
    (each : ∀ rule ∈ rules, rule.isIntroducer = false → ∀ piece, Makes rule piece → holds piece) :
    ∀ piece ∈ pieces, holds piece := by
  have kept (names : List Rule) (subset : names ⊆ rules.filter fun rule ↦ !rule.isIntroducer)
      (pieces : List Piece) (made : List.Forall₂ Makes names pieces) :
      ∀ piece ∈ pieces, holds piece := by
    induction made with
    | nil => exact nofun
    | cons here _ ih =>
        obtain ⟨first, rest⟩ := List.cons_subset.mp subset
        obtain ⟨first, part⟩ := List.mem_filter.mp first
        exact List.forall_mem_cons.mpr
          ⟨each _ first (Bool.not_inj part) _ here, ih rest⟩
  exact kept _ (List.Subset.refl _) pieces made

/-- A conversion that works on every piece works on all of them. -/
theorem exists_mapM {Target : Type} {convert : Piece → Option Target}
    (each : ∀ piece ∈ pieces, ∃ target, convert piece = some target) :
    ∃ targets, pieces.mapM convert = some targets ∧ targets.length = pieces.length := by
  induction pieces with
  | nil => exact ⟨[], rfl, rfl⟩
  | cons first rest ih =>
      obtain ⟨⟨target, here⟩, others⟩ := List.forall_mem_cons.mp each
      obtain ⟨targets, made, length⟩ := ih others
      refine ⟨target :: targets, ?_, congrArg (· + 1) length⟩
      rw [List.mapM_cons, here, made]
      rfl

/-- The parts of a rule whose parts all stand for the same thing are converted to it. -/
theorem exists_mapM_of_leaves {Target : Type} {convert : Piece → Option Target}
    {pattern : Grammar.Pattern} {kind : Rule} (leaves : pattern.Leaves rules)
    (made : MakesAll rules pieces)
    (only : ∀ part ∈ pattern.rules, part.isIntroducer = false → part = kind)
    (each : ∀ piece, Makes kind piece → ∃ target, convert piece = some target) :
    ∃ targets, pieces.mapM convert = some targets ∧ targets.length = pieces.length :=
  exists_mapM (forall_of_makesAll made fun rule inside part piece here ↦
    each piece (only rule (mem_rules_of_leaves leaves rule inside) part ▸ here))

theorem asName_of_makes (piece : Piece) (made : Makes .identifier piece) :
    ∃ name, asName piece = some name := by
  obtain ⟨name, rfl⟩ := made
  exact ⟨name, rfl⟩

theorem asType_of_makes (piece : Piece) (made : Makes .typeExpression piece) :
    ∃ type, asType piece = some type := by
  obtain ⟨type, rfl⟩ := made
  exact ⟨type, rfl⟩

theorem asExpression_of_makes (piece : Piece) (made : Makes .expression piece) :
    ∃ value, asExpression piece = some value := by
  obtain ⟨value, rfl⟩ := made
  exact ⟨value, rfl⟩

theorem asParameter_of_makes (piece : Piece) (made : Makes .parameter piece) :
    ∃ parameter, asParameter piece = some parameter := by
  obtain ⟨parameter, rfl⟩ := made
  exact ⟨parameter, rfl⟩

theorem asDeclaration_of_makes (piece : Piece) (made : Makes .typeDeclaration piece) :
    ∃ declaration, asDeclaration piece = some declaration := by
  obtain ⟨declaration, rfl⟩ := made
  exact ⟨declaration, rfl⟩

theorem asStatement_of_makes {rule : Rule} (inside : rule ∈ statement.rules) (piece : Piece)
    (made : Makes rule piece) : ∃ statement, asStatement piece = some statement := by
  change rule ∈ [Rule.letStatement, .forStatement, .whileStatement, .ifStatement, .returnStatement,
    .assignStatement, .expressionStatement] at inside
  simp only [List.mem_cons, List.not_mem_nil, or_false] at inside
  obtain rfl | rfl | rfl | rfl | rfl | rfl | rfl := inside
  case inr.inr.inr.inl =>
    obtain ⟨condition, body, alternative, span, rfl⟩ := made
    exact ⟨.conditional condition body alternative span, rfl⟩
  all_goals
    obtain ⟨statement, rfl⟩ := made
    exact ⟨statement, rfl⟩

/-! ## Operands and operators -/

theorem unary_of_makes {rule : Rule} (leaves : unaryOperator.Leaves [rule]) (piece : Piece)
    (made : Makes rule piece) : ∃ operator span, piece = .unary operator span := by
  simp only [unaryOperator, oneOf, leaves_choice, leaves_rule, List.cons.injEq, and_true] at leaves
  obtain rfl | rfl := leaves <;> exact made

theorem binary_of_makes {rule : Rule} (leaves : binaryOperator.Leaves [rule]) (piece : Piece)
    (made : Makes rule piece) : ∃ operator, piece = .binary operator := by
  simp only [binaryOperator, oneOf, leaves_choice, leaves_rule, List.cons.injEq, and_true] at leaves
  obtain rfl | rfl | rfl | rfl | rfl | rfl | rfl | rfl | rfl | rfl | rfl | rfl | rfl := leaves <;>
    exact made

theorem suffix_of_makes {rule : Rule} (inside : rule ∈ suffix.rules) (piece : Piece)
    (made : Makes rule piece) : (∃ values span, piece = .arguments values span) ∨
      (∃ value span, piece = .index value span) ∨ ∃ name span, piece = .member name span := by
  change rule ∈ [Rule.callArguments, .indexSuffix, .memberSuffix] at inside
  simp only [List.mem_cons, List.not_mem_nil, or_false] at inside
  obtain rfl | rfl | rfl := inside
  · exact .inl made
  · exact .inr (.inl made)
  · exact .inr (.inr made)

theorem primary_of_makes {rule : Rule} (leaves : primary.Leaves [rule]) (piece : Piece)
    (made : Makes rule piece) : ∃ value, piece = .expression value := by
  simp only [primary, parenthesized, inOrder, word, oneOf, leaves_choice, leaves_rule, leaves_text,
    leaves_sequence, exists_eq_left, List.nil_append, List.append_nil, List.cons.injEq,
    and_true] at leaves
  obtain rfl | rfl | rfl | rfl | rfl | rfl | rfl := leaves <;> exact made

theorem exists_of_unaryOperator (leaves : unaryOperator.Leaves rules) :
    ∃ rule, rules = [rule] ∧ rule.isIntroducer = false := by
  simp only [unaryOperator, oneOf, leaves_choice, leaves_rule] at leaves
  obtain rfl | rfl := leaves <;> exact ⟨_, rfl, rfl⟩

theorem exists_of_primary (leaves : primary.Leaves rules) :
    ∃ rule, rules = [rule] ∧ rule.isIntroducer = false := by
  simp only [primary, parenthesized, inOrder, word, oneOf, leaves_choice, leaves_rule, leaves_text,
    leaves_sequence, exists_eq_left, List.nil_append, List.append_nil] at leaves
  obtain rfl | rfl | rfl | rfl | rfl | rfl | rfl := leaves <;> exact ⟨_, rfl, rfl⟩

theorem exists_of_binaryOperator (leaves : binaryOperator.Leaves rules) :
    ∃ rule, rules = [rule] ∧ rule.isIntroducer = false := by
  simp only [binaryOperator, oneOf, leaves_choice, leaves_rule] at leaves
  obtain rfl | rfl | rfl | rfl | rfl | rfl | rfl | rfl | rfl | rfl | rfl | rfl | rfl := leaves <;>
    exact ⟨_, rfl, rfl⟩

/-- The pieces of a node that is not an introducer, and of those behind it. -/
theorem makesAll_cons {rule : Rule} (part : rule.isIntroducer = false)
    (made : MakesAll (rule :: rules) pieces) :
    ∃ piece rest, pieces = piece :: rest ∧ Makes rule piece ∧ MakesAll rules rest := by
  rw [MakesAll, List.filter_cons_of_pos (by rw [part]; rfl)] at made
  obtain _ | ⟨here, further⟩ := made
  exact ⟨_, _, rfl, here, further⟩

/-- Unary operators and what they stand in front of are an operand. -/
theorem exists_operand_of_makesAll (leaves : (many unaryOperator).Leaves rules)
    (made : MakesAll (rules ++ .suffixed :: others) pieces) :
    ∃ (operand : Operand) (rest : List Piece), pieces = operand.pieces ++ rest ∧
      MakesAll others rest := by
  obtain ⟨parts, each, rfl⟩ := leaves_many.mp leaves
  clear leaves
  induction parts generalizing pieces with
  | nil =>
      obtain ⟨_, rest, rfl, ⟨value, rfl⟩, further⟩ := makesAll_cons rfl made
      exact ⟨⟨[], value⟩, rest, rfl, further⟩
  | cons part parts ih =>
      obtain ⟨here, further⟩ := List.forall_mem_cons.mp each
      obtain ⟨rule, rfl, kept⟩ := exists_of_unaryOperator here
      obtain ⟨piece, behind, rfl, unary, behindMade⟩ := makesAll_cons kept made
      obtain ⟨operator, span, rfl⟩ := unary_of_makes here piece unary
      obtain ⟨⟨operators, value⟩, rest, rfl, restMade⟩ := ih further behindMade
      exact ⟨⟨(operator, span) :: operators, value⟩, rest, rfl, restMade⟩

/-- Binary operators with an operand behind each are links. -/
theorem exists_links_of_makesAll
    (leaves : (many (inOrder [binaryOperator, many unaryOperator, .rule .suffixed])).Leaves rules)
    (made : MakesAll rules pieces) : ∃ links, pieces = piecesOfLinks links := by
  obtain ⟨parts, each, rfl⟩ := leaves_many.mp leaves
  clear leaves
  induction parts generalizing pieces with
  | nil =>
      cases made
      exact ⟨[], rfl⟩
  | cons part parts ih =>
      obtain ⟨here, further⟩ := List.forall_mem_cons.mp each
      simp only [inOrder, leaves_sequence, leaves_rule, exists_eq_left] at here
      obtain ⟨_, binary, _, ⟨unary, operators, rfl⟩, rfl⟩ := here
      obtain ⟨rule, rfl, kept⟩ := exists_of_binaryOperator binary
      rw [List.flatten_cons, List.append_assoc, List.append_assoc] at made
      obtain ⟨piece, _, rfl, first, operandMade⟩ := makesAll_cons kept made
      obtain ⟨operator, rfl⟩ := binary_of_makes binary piece first
      obtain ⟨operand, _, rfl, linksMade⟩ := exists_operand_of_makesAll operators operandMade
      obtain ⟨links, rfl⟩ := ih further linksMade
      exact ⟨(operator, operand) :: links, rfl⟩

/-- The parts of an expression are a chain. -/
theorem exists_chain_of_makesAll (leaves : Rule.expression.body.Leaves rules)
    (made : MakesAll rules pieces) : ∃ chain : Chain, pieces = chain.pieces := by
  rw [Rule.body, inOrder, leaves_sequence] at leaves
  obtain ⟨operators, unary, _, further, rfl⟩ := leaves
  rw [inOrder, leaves_sequence] at further
  obtain ⟨_, suffixed, behind, links, rfl⟩ := further
  obtain rfl := leaves_rule.mp suffixed
  obtain ⟨operand, _, rfl, linksMade⟩ := exists_operand_of_makesAll unary made
  obtain ⟨links, rfl⟩ := exists_links_of_makesAll links linksMade
  exact ⟨⟨operand, links⟩, rfl⟩

/-- Suffixes can be applied to any expression. -/
theorem exists_applySuffixes (suffixes : ∀ piece ∈ pieces,
      (∃ values span, piece = .arguments values span) ∨
        (∃ value span, piece = .index value span) ∨ ∃ name span, piece = .member name span)
    (target : Expression) : ∃ value, applySuffixes target pieces = some value := by
  induction target, pieces using applySuffixes.induct with
  | case1 target => exact ⟨target, rfl⟩
  | case2 target values span rest ih | case3 target value span rest ih =>
      rw [applySuffixes]
      exact ih (List.forall_mem_cons.mp suffixes).2
  | case4 target name span values span' rest ih =>
      rw [applySuffixes]
      exact ih (List.forall_mem_cons.mp (List.forall_mem_cons.mp suffixes).2).2
  | case5 target name span rest other ih =>
      rw [applySuffixes]
      · exact ih (List.forall_mem_cons.mp suffixes).2
      · exact other
  | case6 pieces target empty arguments index method member =>
      cases pieces with
      | nil => exact absurd rfl empty
      | cons first rest =>
          obtain ⟨_, _, rfl⟩ | ⟨_, _, rfl⟩ | ⟨_, _, rfl⟩ := suffixes first List.mem_cons_self
          · exact (arguments _ _ _ rfl).elim
          · exact (index _ _ _ rfl).elim
          · exact (member _ _ _ rfl).elim

/-! ## Declarations -/

section Declarations

variable (span : Span)

theorem exists_functionTail (name : Identifier) (isPublic isStatic : Bool)
    (leaves : (inOrder [word "(", .rule .parameters, word ")", .optional (.rule .returnType),
      .rule .block]).Leaves rules) (made : MakesAll rules pieces) :
    ∃ function, functionTail name isPublic isStatic span pieces = some (.function function) := by
  simp only [inOrder, word, leaves_sequence, leaves_text, leaves_rule, leaves_optional,
    exists_eq_left, List.nil_append, List.cons_append, or_and_right, exists_or] at leaves
  obtain rfl | rfl := leaves
  · obtain _ | ⟨⟨parameters, rfl⟩, _ | ⟨⟨body, rfl⟩, _ | _⟩⟩ :=
      (made : List.Forall₂ Makes [.parameters, .block] pieces)
    exact ⟨_, rfl⟩
  · obtain _ | ⟨⟨parameters, rfl⟩, _ | ⟨⟨result, rfl⟩, _ | ⟨⟨body, rfl⟩, _ | _⟩⟩⟩ :=
      (made : List.Forall₂ Makes [.parameters, .returnType, .block] pieces)
    exact ⟨_, rfl⟩

theorem exists_functionOf (leaves : Rule.functionDeclaration.body.Leaves rules)
    (made : MakesAll rules pieces) :
    ∃ function, functionOf span pieces = some (.function function) := by
  rw [Rule.body, inOrder, leaves_sequence] at leaves
  obtain ⟨before, visibility, _, leaves, rfl⟩ := leaves
  rw [inOrder, leaves_sequence] at leaves
  obtain ⟨marks, static, _, leaves, rfl⟩ := leaves
  rw [inOrder, leaves_sequence] at leaves
  obtain ⟨_, introducer, _, leaves, rfl⟩ := leaves
  obtain rfl := leaves_rule.mp introducer
  rw [inOrder, leaves_sequence] at leaves
  obtain ⟨_, identifier, behind, leaves, rfl⟩ := leaves
  obtain rfl := leaves_rule.mp identifier
  rw [leaves_optional, leaves_rule] at visibility static
  obtain rfl | rfl := visibility <;> obtain rfl | rfl := static
  · obtain _ | ⟨⟨name, rfl⟩, tail⟩ :=
      (made : List.Forall₂ Makes (.identifier :: behind.filter _) pieces)
    exact exists_functionTail span name false false leaves tail
  · obtain _ | ⟨rfl, _ | ⟨⟨name, rfl⟩, tail⟩⟩ :=
      (made : List.Forall₂ Makes (.staticWord :: .identifier :: behind.filter _) pieces)
    exact exists_functionTail span name false true leaves tail
  · obtain _ | ⟨rfl, _ | ⟨⟨name, rfl⟩, tail⟩⟩ :=
      (made : List.Forall₂ Makes (.pubWord :: .identifier :: behind.filter _) pieces)
    exact exists_functionTail span name true false leaves tail
  · obtain _ | ⟨rfl, _ | ⟨rfl, _ | ⟨⟨name, rfl⟩, tail⟩⟩⟩ := (made : List.Forall₂ Makes
      (.pubWord :: .staticWord :: .identifier :: behind.filter _) pieces)
    exact exists_functionTail span name true true leaves tail

/-- The rules of declarations and of their parts. -/
def declarationRules : List Rule :=
  [.endOfText, .file, .useDeclaration, .namespaceDeclaration, .dottedName, .typeDeclaration,
    .fieldDeclaration, .functionDeclaration, .parameters, .parameter, .returnType]

theorem exists_assemble_declaration {rule : Rule} (leaves : rule.body.Leaves rules)
    (made : MakesAll rules pieces) (declares : rule ∈ declarationRules) :
    ∃ piece, assemble rule span pieces = some piece ∧ Makes rule piece := by
  cases rule <;> simp only [declarationRules, List.mem_cons, List.not_mem_nil, reduceCtorEq,
    or_false, false_or] at declares
  case endOfText =>
    obtain rfl := leaves_endOfText.mp leaves
    cases (made : List.Forall₂ Makes [] pieces)
    exact ⟨_, rfl, rfl⟩
  case file => exact ⟨_, rfl, _, rfl⟩
  case functionDeclaration =>
    obtain ⟨function, assembled⟩ := exists_functionOf span leaves made
    refine ⟨.function function, ?_, _, rfl⟩
    rw [assemble, assembleDeclaration, assembled]
  case dottedName =>
    obtain ⟨names, converted, _⟩ := exists_mapM_of_leaves leaves made (by decide) asName_of_makes
    refine ⟨.dotted (".".intercalate (names.map Identifier.name)), ?_, _, rfl⟩
    rw [assemble, assembleDeclaration, converted]
    rfl
  case parameters =>
    obtain ⟨parameters, converted, _⟩ :=
      exists_mapM_of_leaves leaves made (by decide) asParameter_of_makes
    refine ⟨.parameters parameters, ?_, _, rfl⟩
    rw [assemble, assembleDeclaration, converted]
    rfl
  case namespaceDeclaration =>
    rw [Rule.body, inOrder, leaves_sequence] at leaves
    obtain ⟨_, introducer, _, leaves, rfl⟩ := leaves
    obtain rfl := leaves_rule.mp introducer
    rw [inOrder, leaves_sequence] at leaves
    obtain ⟨_, named, types, leaves, rfl⟩ := leaves
    obtain rfl := leaves_rule.mp named
    obtain _ | ⟨⟨name, rfl⟩, typesMade⟩ :=
      (made : List.Forall₂ Makes (.dottedName :: types.filter _) pieces)
    obtain ⟨declarations, converted, _⟩ :=
      exists_mapM_of_leaves leaves typesMade (by decide) asDeclaration_of_makes
    refine ⟨.group (declarations.map ({ · with namespaceName := name })), ?_, _, rfl⟩
    rw [assemble, assembleDeclaration, converted]
    rfl
  case typeDeclaration =>
    rw [Rule.body, inOrder, leaves_sequence] at leaves
    obtain ⟨_, introducer, _, leaves, rfl⟩ := leaves
    obtain rfl := leaves_rule.mp introducer
    rw [inOrder, leaves_sequence] at leaves
    obtain ⟨_, named, members, leaves, rfl⟩ := leaves
    obtain rfl := leaves_rule.mp named
    obtain _ | ⟨⟨name, rfl⟩, _⟩ :=
      (made : List.Forall₂ Makes (.identifier :: members.filter _) pieces)
    exact ⟨_, rfl, _, rfl⟩
  all_goals simp only [Rule.body, inOrder, word, leaves_sequence, leaves_text, leaves_rule,
    leaves_optional, exists_eq_left, List.nil_append, List.append_nil, List.cons_append,
    or_and_right, exists_or] at leaves
  case useDeclaration =>
    obtain rfl := leaves
    obtain _ | ⟨⟨name, rfl⟩, _ | _⟩ := (made : List.Forall₂ Makes [.identifier] pieces)
    exact ⟨_, rfl, _, rfl⟩
  case fieldDeclaration =>
    obtain rfl | rfl := leaves
    · obtain _ | ⟨⟨name, rfl⟩, _ | ⟨⟨type, rfl⟩, _ | _⟩⟩ :=
        (made : List.Forall₂ Makes [.identifier, .typeExpression] pieces)
      exact ⟨_, rfl, _, rfl⟩
    · obtain _ | ⟨⟨name, rfl⟩, _ | ⟨⟨type, rfl⟩, _ | ⟨⟨value, rfl⟩, _ | _⟩⟩⟩ :=
        (made : List.Forall₂ Makes [.identifier, .typeExpression, .expression] pieces)
      exact ⟨_, rfl, _, rfl⟩
  case parameter =>
    obtain rfl := leaves
    obtain _ | ⟨⟨name, rfl⟩, _ | ⟨⟨type, rfl⟩, _ | _⟩⟩ :=
      (made : List.Forall₂ Makes [.identifier, .typeExpression] pieces)
    exact ⟨_, rfl, _, rfl⟩
  case returnType =>
    obtain rfl := leaves
    obtain _ | ⟨⟨type, rfl⟩, _ | _⟩ := (made : List.Forall₂ Makes [.typeExpression] pieces)
    exact ⟨_, rfl, _, rfl⟩

/-- The rules of types. -/
def typeRules : List Rule :=
  [.typeExpression, .arrayType, .seqType, .functionType, .namedType]

theorem exists_functionType {types : List TypeExpression} (some : types ≠ []) :
    ∃ type, functionType span types = .some (.type type) := by
  obtain ⟨result, parameters, reversed⟩ :=
    List.exists_cons_of_ne_nil (List.reverse_eq_nil_iff.not.mpr some)
  exact ⟨.function parameters.reverse result span, by rw [functionType, reversed]⟩

/-- A function type says what it gives back. -/
theorem typeExpression_mem_of_leaves (leaves : Rule.functionType.body.Leaves rules) :
    .typeExpression ∈ rules := by
  simp only [Rule.body, inOrder, word, leaves_sequence, leaves_text, leaves_rule, exists_eq_left,
    List.nil_append] at leaves
  obtain ⟨_, ⟨_, ⟨parameters, _, rfl⟩, rfl⟩, rfl⟩ := leaves
  exact List.mem_append_right _ (List.mem_append_right _ List.mem_cons_self)

theorem exists_assemble_type {rule : Rule} (leaves : rule.body.Leaves rules)
    (made : MakesAll rules pieces) (writesType : rule ∈ typeRules) :
    ∃ piece, assemble rule span pieces = some piece ∧ Makes rule piece := by
  cases rule <;> simp only [typeRules, List.mem_cons, List.not_mem_nil, reduceCtorEq,
    or_false, false_or] at writesType
  case functionType =>
    obtain ⟨types, converted, length⟩ :=
      exists_mapM_of_leaves leaves made (by decide) asType_of_makes
    have some : types ≠ [] := by
      rintro rfl
      obtain rfl := List.length_eq_zero_iff.mp length.symm
      have none := List.filter_eq_nil_iff.mp (List.forall₂_nil_right_iff.mp made)
      exact none .typeExpression (typeExpression_mem_of_leaves leaves) rfl
    obtain ⟨type, ends⟩ := exists_functionType span some
    refine ⟨.type type, ?_, _, rfl⟩
    rw [assemble, assembleDeclaration, converted]
    simp only [Option.bind_eq_bind, Option.bind_some, ends]
  all_goals simp only [Rule.body, inOrder, oneOf, word, leaves_sequence, leaves_choice, leaves_text,
    leaves_rule, exists_eq_left, List.nil_append, List.append_nil] at leaves
  case typeExpression =>
    obtain rfl | rfl | rfl | rfl | rfl := leaves <;>
      obtain _ | ⟨⟨type, rfl⟩, _ | _⟩ := made <;>
      exact ⟨_, rfl, _, rfl⟩
  case arrayType | seqType =>
    obtain rfl := leaves
    obtain _ | ⟨⟨type, rfl⟩, _ | _⟩ := (made : List.Forall₂ Makes [.typeExpression] pieces)
    exact ⟨_, rfl, _, rfl⟩
  case namedType =>
    obtain rfl := leaves
    obtain _ | ⟨⟨name, rfl⟩, _ | _⟩ := (made : List.Forall₂ Makes [.identifier] pieces)
    exact ⟨_, rfl, _, rfl⟩

end Declarations

/-! ## Statements and expressions -/

section Statements

variable (span : Span)

/-- The rules of statements and of their parts. -/
def statementRules : List Rule :=
  [.block, .letStatement, .forStatement, .whileStatement, .ifStatement, .returnStatement,
    .assignStatement, .place, .fieldPlace, .expressionStatement]

theorem exists_assemble_statement {rule : Rule} (leaves : rule.body.Leaves rules)
    (made : MakesAll rules pieces) (states : rule ∈ statementRules) :
    ∃ piece, assemble rule span pieces = some piece ∧ Makes rule piece := by
  cases rule <;> simp only [statementRules, List.mem_cons, List.not_mem_nil, reduceCtorEq,
    or_false, false_or] at states
  case block =>
    have each : ∀ piece ∈ pieces, ∃ statement, asStatement piece = some statement :=
      forall_of_makesAll made fun rule inside _ piece here ↦
        asStatement_of_makes (mem_rules_of_leaves leaves rule inside) piece here
    obtain ⟨statements, converted, _⟩ := exists_mapM each
    refine ⟨.block (.mk statements span), ?_, _, rfl⟩
    rw [assemble, assembleDeclaration, assembleStatement, converted]
    · rfl
    all_goals exact nofun
  all_goals simp only [Rule.body, inOrder, oneOf, word, leaves_sequence, leaves_choice, leaves_text,
    leaves_rule, leaves_optional, leaves_unless, exists_eq_left, List.nil_append, List.append_nil,
    List.cons_append, or_and_right, exists_or] at leaves
  case letStatement =>
    obtain rfl | rfl := leaves
    · obtain _ | ⟨⟨name, rfl⟩, _ | ⟨⟨value, rfl⟩, _ | _⟩⟩ :=
        (made : List.Forall₂ Makes [.identifier, .expression] pieces)
      exact ⟨_, rfl, _, rfl⟩
    · obtain _ | ⟨⟨name, rfl⟩, _ | ⟨⟨type, rfl⟩, _ | ⟨⟨value, rfl⟩, _ | _⟩⟩⟩ :=
        (made : List.Forall₂ Makes [.identifier, .typeExpression, .expression] pieces)
      exact ⟨_, rfl, _, rfl⟩
  case forStatement =>
    obtain rfl := leaves
    obtain _ | ⟨⟨name, rfl⟩, _ | ⟨⟨iterable, rfl⟩, _ | ⟨⟨body, rfl⟩, _ | _⟩⟩⟩ :=
      (made : List.Forall₂ Makes [.identifier, .expression, .block] pieces)
    exact ⟨_, rfl, _, rfl⟩
  case whileStatement =>
    obtain rfl := leaves
    obtain _ | ⟨⟨condition, rfl⟩, _ | ⟨⟨body, rfl⟩, _ | _⟩⟩ :=
      (made : List.Forall₂ Makes [.expression, .block] pieces)
    exact ⟨_, rfl, _, rfl⟩
  case ifStatement =>
    obtain rfl | rfl | rfl := leaves
    · obtain _ | ⟨⟨condition, rfl⟩, _ | ⟨⟨body, rfl⟩, _ | _⟩⟩ :=
        (made : List.Forall₂ Makes [.expression, .block] pieces)
      exact ⟨_, rfl, _, _, _, _, rfl⟩
    · obtain _ | ⟨⟨condition, rfl⟩, _ | ⟨⟨body, rfl⟩, _ | ⟨⟨_, _, _, _, rfl⟩, _ | _⟩⟩⟩ :=
        (made : List.Forall₂ Makes [.expression, .block, .ifStatement] pieces)
      exact ⟨_, rfl, _, _, _, _, rfl⟩
    · obtain _ | ⟨⟨condition, rfl⟩, _ | ⟨⟨body, rfl⟩, _ | ⟨⟨alternative, rfl⟩, _ | _⟩⟩⟩ :=
        (made : List.Forall₂ Makes [.expression, .block, .block] pieces)
      exact ⟨_, rfl, _, _, _, _, rfl⟩
  case returnStatement =>
    obtain rfl | rfl := leaves
    · cases (made : List.Forall₂ Makes [] pieces)
      exact ⟨_, rfl, _, rfl⟩
    · obtain _ | ⟨⟨value, rfl⟩, _ | _⟩ := (made : List.Forall₂ Makes [.expression] pieces)
      exact ⟨_, rfl, _, rfl⟩
  case assignStatement =>
    obtain rfl := leaves
    obtain _ | ⟨⟨target, rfl⟩, _ | ⟨⟨value, rfl⟩, _ | _⟩⟩ :=
      (made : List.Forall₂ Makes [.place, .expression] pieces)
    exact ⟨_, rfl, _, rfl⟩
  case place =>
    obtain rfl | rfl := leaves
    · obtain _ | ⟨⟨target, rfl⟩, _ | _⟩ := (made : List.Forall₂ Makes [.fieldPlace] pieces)
      exact ⟨_, rfl, _, rfl⟩
    · obtain _ | ⟨⟨name, rfl⟩, _ | _⟩ := (made : List.Forall₂ Makes [.identifier] pieces)
      exact ⟨_, rfl, _, rfl⟩
  case fieldPlace =>
    obtain rfl := leaves
    obtain _ | ⟨⟨receiver, rfl⟩, _ | ⟨⟨name, rfl⟩, _ | _⟩⟩ :=
      (made : List.Forall₂ Makes [.selfWord, .identifier] pieces)
    exact ⟨_, rfl, _, rfl⟩
  case expressionStatement =>
    obtain rfl := leaves
    obtain _ | ⟨⟨value, rfl⟩, _ | _⟩ := (made : List.Forall₂ Makes [.expression] pieces)
    exact ⟨_, rfl, _, rfl⟩

end Statements

section Expressions

variable (span : Span)

/-- The rules of expressions and of their parts. -/
def expressionRules : List Rule :=
  [.expression, .suffixed, .callArguments, .indexSuffix, .memberSuffix, .lambda, .lambdaParameters,
    .newExpression, .arrayLiteral, .path, .literal, .stringLiteral]

theorem assemble_of_mem_expressionRules {rule : Rule} (values : rule ∈ expressionRules) :
    assemble rule span pieces = assembleExpression rule span pieces := by
  cases rule <;> simp only [expressionRules, List.mem_cons, List.not_mem_nil, reduceCtorEq,
    or_false, false_or] at values <;> rfl

theorem exists_assemble_expression {rule : Rule} (leaves : rule.body.Leaves rules)
    (made : MakesAll rules pieces) (values : rule ∈ expressionRules) :
    ∃ piece, assemble rule span pieces = some piece ∧ Makes rule piece := by
  rw [assemble_of_mem_expressionRules span values]
  cases rule <;> simp only [expressionRules, List.mem_cons, List.not_mem_nil, reduceCtorEq,
    or_false, false_or] at values
  case expression =>
    obtain ⟨chain, rfl⟩ := exists_chain_of_makesAll leaves made
    exact ⟨_, expressionOf_pieces chain, _, rfl⟩
  case suffixed =>
    rw [Rule.body, inOrder, leaves_sequence] at leaves
    obtain ⟨first, primary, suffixes, further, rfl⟩ := leaves
    obtain ⟨rule, rfl, part⟩ := exists_of_primary primary
    obtain ⟨piece, pieces, rfl, here, suffixesMade⟩ := makesAll_cons part made
    obtain ⟨value, rfl⟩ := primary_of_makes primary piece here
    obtain ⟨whole, applied⟩ := exists_applySuffixes (forall_of_makesAll suffixesMade
      fun rule inside _ piece here ↦
        suffix_of_makes (mem_rules_of_leaves further rule inside) piece here) value
    refine ⟨.expression whole, ?_, _, rfl⟩
    rw [assembleExpression, applied]
    rfl
  case callArguments =>
    obtain ⟨values, converted, _⟩ :=
      exists_mapM_of_leaves leaves made (by decide) asExpression_of_makes
    refine ⟨.arguments values span, ?_, _, _, rfl⟩
    rw [assembleExpression, converted]
    rfl
  case lambdaParameters =>
    obtain ⟨names, converted, _⟩ := exists_mapM_of_leaves leaves made (by decide) asName_of_makes
    refine ⟨.names names, ?_, _, rfl⟩
    rw [assembleExpression, converted]
    rfl
  case arrayLiteral =>
    obtain ⟨values, converted, _⟩ :=
      exists_mapM_of_leaves leaves made (by decide) asExpression_of_makes
    refine ⟨.expression (.array values span), ?_, _, rfl⟩
    rw [assembleExpression, converted]
    rfl
  case path =>
    obtain ⟨names, converted, _⟩ := exists_mapM_of_leaves leaves made (by decide) asName_of_makes
    refine ⟨.expression (.path names span), ?_, _, rfl⟩
    rw [assembleExpression, converted]
    rfl
  all_goals simp only [Rule.body, inOrder, oneOf, word, leaves_sequence, leaves_choice, leaves_text,
    leaves_rule, exists_eq_left, List.nil_append, List.append_nil,
    List.cons_append, or_and_right, exists_or] at leaves
  case indexSuffix =>
    obtain rfl := leaves
    obtain _ | ⟨⟨value, rfl⟩, _ | _⟩ := (made : List.Forall₂ Makes [.expression] pieces)
    exact ⟨_, rfl, _, _, rfl⟩
  case memberSuffix =>
    obtain rfl := leaves
    obtain _ | ⟨⟨name, rfl⟩, _ | _⟩ := (made : List.Forall₂ Makes [.identifier] pieces)
    exact ⟨_, rfl, _, _, rfl⟩
  case newExpression =>
    obtain rfl := leaves
    obtain _ | ⟨⟨name, rfl⟩, _ | _⟩ := (made : List.Forall₂ Makes [.identifier] pieces)
    exact ⟨_, rfl, _, rfl⟩
  case lambda =>
    obtain rfl | rfl := leaves
    · obtain _ | ⟨⟨names, rfl⟩, _ | ⟨⟨body, rfl⟩, _ | _⟩⟩ :=
        (made : List.Forall₂ Makes [.lambdaParameters, .block] pieces)
      exact ⟨_, rfl, _, rfl⟩
    · obtain _ | ⟨⟨names, rfl⟩, _ | ⟨⟨value, rfl⟩, _ | _⟩⟩ :=
        (made : List.Forall₂ Makes [.lambdaParameters, .expression] pieces)
      exact ⟨_, rfl, _, rfl⟩
  case literal =>
    obtain rfl | rfl | rfl := leaves <;>
      obtain _ | ⟨⟨value, rfl⟩, _ | _⟩ := made <;>
      exact ⟨_, rfl, _, rfl⟩
  case stringLiteral =>
    obtain rfl := leaves
    obtain _ | ⟨⟨value, rfl⟩, _ | _⟩ := (made : List.Forall₂ Makes [.stringBody] pieces)
    exact ⟨_, rfl, _, rfl⟩

/-- The rules of operators. -/
def operatorRules : List Rule :=
  unaryOperator.rules ++ binaryOperator.rules

/-- An operator has no parts. -/
theorem exists_assemble_operator {rule : Rule} (leaves : rule.body.Leaves rules)
    (made : MakesAll rules pieces) (operates : rule ∈ operatorRules) :
    ∃ piece, assemble rule span pieces = some piece ∧ Makes rule piece := by
  change rule ∈ [Rule.notOperator, .negateOperator, .orOperator, .andOperator, .equalOperator,
    .unequalOperator, .atMostOperator, .atLeastOperator, .lessOperator, .greaterOperator,
    .addOperator, .subtractOperator, .multiplyOperator, .divideOperator, .remainderOperator]
    at operates
  cases rule <;> simp only [List.mem_cons, List.not_mem_nil, reduceCtorEq, or_false, false_or]
    at operates
  all_goals
    obtain rfl := leaves_text.mp leaves
    cases (made : List.Forall₂ Makes [] pieces)
  case notOperator | negateOperator => exact ⟨_, rfl, _, _, rfl⟩
  all_goals exact ⟨_, rfl, _, rfl⟩

end Expressions

/-! ## The piece of a node -/

section Nodes

variable (span : Span)

/-- The parts of a rule make the piece that it stands for. -/
theorem exists_assemble {rule : Rule} (outside : rule.mode ≠ .atomic)
    (leaves : rule.body.Leaves rules) (made : MakesAll rules pieces) :
    ∃ piece, assemble rule span pieces = some piece ∧ Makes rule piece := by
  have family : rule ∈ declarationRules ∨ rule ∈ typeRules ∨ rule ∈ statementRules ∨
      rule ∈ expressionRules ∨ rule ∈ operatorRules := by
    cases rule <;> first
      | exact absurd rfl outside
      | decide
  obtain declares | writesType | states | values | operates := family
  · exact exists_assemble_declaration span leaves made declares
  · exact exists_assemble_type span leaves made writesType
  · exact exists_assemble_statement span leaves made states
  · exact exists_assemble_expression span leaves made values
  · exact exists_assemble_operator span leaves made operates

/-- The name of a primitive type is one of five. -/
theorem exists_ofToken_primitiveType {text : String}
    (spelled : Rule.primitiveType.body.Spells text.toList) :
    ∃ piece found, ofToken .primitiveType span text = some (piece, found) ∧
      Makes .primitiveType piece := by
  simp only [Rule.body, inOrder, oneOfWords, oneOf, word, List.map, spells_sequence, spells_choice,
    spells_text, spells_unless, exists_eq_left, List.append_nil] at spelled
  obtain ⟨_, written, same⟩ := spelled
  rw [← same] at written
  simp only [String.toList_inj] at written
  obtain rfl | rfl | rfl | rfl | rfl := written <;> exact ⟨_, _, rfl, _, rfl⟩

/-- A token has a piece, unless it is a keyword or only introduces a construct. -/
theorem exists_ofToken {rule : Rule} {text : String} (inside : rule.mode = .atomic)
    (spelled : rule.body.Spells text.toList) (part : rule.isIntroducer = false)
    (other : rule ≠ .keyword) :
    ∃ piece found, ofToken rule span text = some (piece, found) ∧ Makes rule piece := by
  have tokens : rule ∈ [Rule.identifier, .pubWord, .staticWord, .primitiveType, .selfWord,
      .integerLiteral, .booleanLiteral, .stringBody] := by
    cases rule <;> first
      | decide
      | exact absurd rfl other
      | exact absurd part (by decide)
      | exact absurd inside (by decide)
  cases rule <;> simp only [List.mem_cons, List.not_mem_nil, reduceCtorEq, or_false, false_or]
    at tokens
  case primitiveType => exact exists_ofToken_primitiveType span spelled
  case pubWord | staticWord => exact ⟨_, _, rfl, rfl⟩
  all_goals exact ⟨_, _, rfl, _, rfl⟩

end Nodes

/-- A piece is what a node means: the one built from it, and of the kind of its rule. -/
def Means (node : Node) (piece : Piece) : Prop :=
  Makes node.rule piece ∧ ∃ problems found, build node problems = some (piece, found)

/-- When each node that is not an introducer has a piece, those nodes have theirs in order. -/
theorem exists_buildAll {children : List Node} (each : ∀ child ∈ children,
      child.rule.isIntroducer = false → ∀ problems, ∃ piece found,
        build child problems = some (piece, found) ∧ Makes child.rule piece)
    (problems : List Problem) (pieces : List Piece) : ∃ made found,
      buildAll children problems pieces = some (pieces.reverse ++ made, found) ∧
        List.Forall₂ Means (children.filter fun child ↦ !child.rule.isIntroducer) made := by
  induction children generalizing problems pieces with
  | nil => exact ⟨[], problems, by rw [buildAll, List.append_nil], .nil⟩
  | cons child rest ih =>
      obtain ⟨here, others⟩ := List.forall_mem_cons.mp each
      cases part : child.rule.isIntroducer with
      | true =>
          obtain ⟨made, found, built, means⟩ := ih others problems pieces
          refine ⟨made, found, ?_, ?_⟩
          · rw [buildAll, if_pos part, built]
          · rw [List.filter_cons_of_neg (by simp only [part, Bool.not_true, Bool.false_eq_true,
              not_false_eq_true])]
            exact means
      | false =>
          obtain ⟨piece, found, built, makes⟩ := here part problems
          obtain ⟨made, further, builtRest, means⟩ := ih others found (piece :: pieces)
          refine ⟨piece :: made, further, ?_, ?_⟩
          · rw [buildAll, if_neg (Bool.eq_false_iff.mp part), built]
            simp only [builtRest, List.reverse_cons, List.append_assoc, List.singleton_append]
          · rw [List.filter_cons_of_pos (by rw [part]; rfl)]
            exact .cons ⟨makes, problems, found, built⟩ means

theorem makesAll_of_means {children : List Node}
    (means : List.Forall₂ Means (children.filter fun child ↦ !child.rule.isIntroducer) pieces) :
    MakesAll (children.map Node.rule) pieces := by
  rw [MakesAll, List.filter_map, List.forall₂_map_left_iff]
  exact means.imp fun _ _ here ↦ here.1

/-- A tree that follows the grammar has a piece of the kind that its rule stands for, unless it is a
word that carries no meaning of its own. -/
theorem exists_build {node : Node} (derived : node.IsDerived) (part : node.rule.isIntroducer = false)
    (other : node.rule ≠ .keyword) (problems : List Problem) :
    ∃ piece found, build node problems = some (piece, found) ∧ Makes node.rule piece := by
  induction derived generalizing problems with
  | @leaf rule span text inside spelled =>
      obtain ⟨piece, found, made, makes⟩ := exists_ofToken span inside spelled part other
      refine ⟨piece, found.reverse ++ problems, ?_, makes⟩
      rw [build, made]
      rfl
  | @branch rule span children outside leaves _ ih =>
      obtain ⟨pieces, found, built, means⟩ := exists_buildAll
        (fun child inside part problems ↦ ih child inside part
          (Rule.ne_keyword_of_leaves outside leaves (List.mem_map_of_mem inside)) problems)
        (problemsOf rule span ++ problems) []
      obtain ⟨piece, assembled, makes⟩ :=
        exists_assemble span outside leaves (makesAll_of_means means)
      refine ⟨piece, found, ?_, makes⟩
      rw [build, built, List.reverse_nil, List.nil_append]
      simp only [Option.bind_eq_bind, Option.bind_some, assembled]
      rfl

/-- A file that follows the grammar has a syntax tree. -/
theorem exists_fileOf {node : Node} (derived : node.IsDerived) (whole : node.rule = .file) :
    ∃ file problems, fileOf node = some (file, problems) := by
  obtain ⟨piece, found, built, makes⟩ := exists_build derived (by rw [whole]; rfl)
    (by rw [whole]; exact nofun) []
  rw [whole] at makes
  obtain ⟨file, rfl⟩ := makes
  exact ⟨file, found.reverse, by rw [fileOf, built]⟩

end Assembly

end GuestScript.Syntax
