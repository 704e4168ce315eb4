import GuestScript.Grammar.Match
import GuestScript.Syntax.Problem
import GuestScript.Syntax.Tree

/-!
# Trees without positions

A rule tree, a syntax tree and a problem say where in the text they come from. Their `bare` forms say
the same but for that: every span is the same one. Two texts with the same bare tree have the same
structure and differ only in where the parts of it stand.
-/

namespace GuestScript

/-- The span that stands for every span. -/
def Span.nowhere : Span :=
  ⟨0, 0⟩

namespace Grammar

mutual

/-- A rule tree without its positions. -/
def Node.bare : Node → Node
  | .leaf rule _ text => .leaf rule .nowhere text
  | .branch rule _ children => .branch rule .nowhere (bareAll children)

/-- Rule trees without their positions. -/
def bareAll : List Node → List Node
  | [] => []
  | first :: rest => first.bare :: bareAll rest

end

theorem bareAll_eq_map (nodes : List Node) : bareAll nodes = nodes.map Node.bare := by
  induction nodes with
  | nil => rfl
  | cons first rest ih => rw [bareAll, ih, List.map_cons]

theorem Node.rule_bare (node : Node) : node.bare.rule = node.rule := by
  cases node <;> rfl

theorem bare_close_token {rule : Rule} (token : rule.mode = .atomic) (before after : Progress) :
    (before.close rule after).nodes.map Node.bare =
      .leaf rule .nowhere (before.cursor.textTo after.cursor.offset) ::
        before.nodes.map Node.bare := by
  simp only [Progress.close, Progress.nodeFor, token, List.map_cons, Node.bare]

theorem bare_close {rule : Rule} (outside : rule.mode ≠ .atomic) (before after : Progress) :
    (before.close rule after).nodes.map Node.bare =
      .branch rule .nowhere (after.nodes.map Node.bare).reverse :: before.nodes.map Node.bare := by
  rw [← List.map_reverse, ← bareAll_eq_map after.nodes.reverse]
  simp only [Progress.close, Progress.nodeFor, List.map_cons]
  rfl

end Grammar

namespace Syntax

/-- A problem without its position. -/
def Problem.bare : Problem → Problem
  | .usesFeature feature _ => .usesFeature feature .nowhere
  | .integerOutOfRange digits _ => .integerOutOfRange digits .nowhere
  | .unknownEscape character _ => .unknownEscape character .nowhere

theorem Problem.appliesTo_bare (version : LanguageVersion) (problem : Problem) :
    problem.bare.appliesTo version = problem.appliesTo version := by
  cases problem <;> rfl

theorem Problem.code_bare (version : LanguageVersion) (problem : Problem) :
    (problem.bare.diagnostic version).code = (problem.diagnostic version).code := by
  cases problem <;> rfl

/-- Problems without their positions. -/
abbrev bareProblems (problems : List Problem) : List Problem :=
  problems.map Problem.bare

section Problems

variable {problems problems' : List Problem}

theorem bareProblems_append {others others' : List Problem}
    (same : bareProblems problems = bareProblems problems')
    (same' : bareProblems others = bareProblems others') :
    bareProblems (problems ++ others) = bareProblems (problems' ++ others') := by
  have apart (first second : List Problem) :
      bareProblems (first ++ second) = bareProblems first ++ bareProblems second :=
    List.map_append
  rw [apart, apart, same, same']

theorem bareProblems_reverse (same : bareProblems problems = bareProblems problems') :
    bareProblems problems.reverse = bareProblems problems'.reverse := by
  rw [bareProblems, bareProblems, List.map_reverse, List.map_reverse]
  exact congrArg List.reverse same

theorem bareProblems_filter (version : LanguageVersion)
    (same : bareProblems problems = bareProblems problems') :
    bareProblems (problems.filter (Problem.appliesTo version)) =
      bareProblems (problems'.filter (Problem.appliesTo version)) := by
  have kept (problems : List Problem) :
      bareProblems (problems.filter (Problem.appliesTo version)) =
        (bareProblems problems).filter (Problem.appliesTo version) := by
    rw [bareProblems, bareProblems, List.filter_map]
    congr 1
    exact List.filter_congr fun problem _ ↦ (problem.appliesTo_bare version).symm
  rw [kept problems, kept problems', same]

/-- The codes of problems do not depend on where they stand. -/
theorem code_diagnostic_bareProblems (version : LanguageVersion)
    (same : bareProblems problems = bareProblems problems') :
    problems.map (fun problem ↦ (problem.diagnostic version).code) =
      problems'.map (fun problem ↦ (problem.diagnostic version).code) := by
  have coded (problems : List Problem) :
      problems.map (fun problem ↦ (problem.diagnostic version).code) =
        (bareProblems problems).map (fun problem ↦ (problem.diagnostic version).code) := by
    rw [bareProblems, List.map_map]
    exact List.map_congr_left fun problem _ ↦ (problem.code_bare version).symm
  rw [coded problems, coded problems', same]

end Problems

/-- A name without its position. -/
def Identifier.bare (name : Identifier) : Identifier :=
  { name with span := .nowhere }

mutual

/-- A written type without positions. -/
def TypeExpression.bare : TypeExpression → TypeExpression
  | .int _ => .int .nowhere
  | .str _ => .str .nowhere
  | .bool _ => .bool .nowhere
  | .unit _ => .unit .nowhere
  | .dyn _ => .dyn .nowhere
  | .array element _ => .array element.bare .nowhere
  | .seq element _ => .seq element.bare .nowhere
  | .function parameters result _ => .function (bareTypes parameters) result.bare .nowhere
  | .named name _ => .named name .nowhere

/-- Written types without positions. -/
def bareTypes : List TypeExpression → List TypeExpression
  | [] => []
  | first :: rest => first.bare :: bareTypes rest

end

/-- The target of an assignment without its position. -/
def Place.bare : Place → Place
  | .binding name => .binding name.bare
  | .field name => .field name.bare

theorem Place.bare_binding (name : Identifier) : (binding name).bare = .binding name.bare :=
  rfl

theorem Place.bare_field (name : Identifier) : (field name).bare = .field name.bare :=
  rfl

mutual

/-- An expression without positions. -/
def Expression.bare : Expression → Expression
  | .int value _ => .int value .nowhere
  | .str value _ => .str value .nowhere
  | .bool value _ => .bool value .nowhere
  | .array items _ => .array (bareExpressions items) .nowhere
  | .receiver _ => .receiver .nowhere
  | .path segments _ => .path (segments.map Identifier.bare) .nowhere
  | .call callee arguments _ => .call callee.bare (bareExpressions arguments) .nowhere
  | .field target name _ => .field target.bare name.bare .nowhere
  | .method target name arguments _ =>
      .method target.bare name.bare (bareExpressions arguments) .nowhere
  | .element target index _ => .element target.bare index.bare .nowhere
  | .construct typeName _ => .construct typeName.bare .nowhere
  | .lambda parameters body _ => .lambda (parameters.map Identifier.bare) body.bare .nowhere
  | .unary operator operand _ => .unary operator operand.bare .nowhere
  | .binary operator left right _ => .binary operator left.bare right.bare .nowhere

/-- Expressions without positions. -/
def bareExpressions : List Expression → List Expression
  | [] => []
  | first :: rest => first.bare :: bareExpressions rest

/-- The body of a lambda without positions. -/
def LambdaBody.bare : LambdaBody → LambdaBody
  | .expression value => .expression value.bare
  | .block body => .block body.bare

/-- A block without positions. -/
def Block.bare : Block → Block
  | .mk statements _ => .mk (bareStatements statements) .nowhere

/-- Statements without positions. -/
def bareStatements : List Statement → List Statement
  | [] => []
  | first :: rest => first.bare :: bareStatements rest

/-- A statement without positions. -/
def Statement.bare : Statement → Statement
  | .declare name type value _ =>
      .declare name.bare (type.map TypeExpression.bare) value.bare .nowhere
  | .assign target value _ => .assign target.bare value.bare .nowhere
  | .forEach binding iterable body _ => .forEach binding.bare iterable.bare body.bare .nowhere
  | .whileLoop condition body _ => .whileLoop condition.bare body.bare .nowhere
  | .conditional condition body alternative _ =>
      .conditional condition.bare body.bare alternative.bare .nowhere
  | .returns none _ => .returns none .nowhere
  | .returns (some value) _ => .returns (some value.bare) .nowhere
  | .evaluate value => .evaluate value.bare

/-- An alternative without positions. -/
def Alternative.bare : Alternative → Alternative
  | .absent => .absent
  | .block body => .block body.bare
  | .chain conditional => .chain conditional.bare

end

theorem bareTypes_eq_map (types : List TypeExpression) :
    bareTypes types = types.map TypeExpression.bare := by
  induction types with
  | nil => rfl
  | cons first rest ih => rw [bareTypes, ih, List.map_cons]

theorem bareExpressions_eq_map (values : List Expression) :
    bareExpressions values = values.map Expression.bare := by
  induction values with
  | nil => rfl
  | cons first rest ih => rw [bareExpressions, ih, List.map_cons]

theorem bareStatements_eq_map (statements : List Statement) :
    bareStatements statements = statements.map Statement.bare := by
  induction statements with
  | nil => rfl
  | cons first rest ih => rw [bareStatements, ih, List.map_cons]

/-- A parameter without positions. -/
def Parameter.bare (parameter : Parameter) : Parameter :=
  ⟨parameter.name.bare, parameter.type.bare⟩

/-- A field without positions. -/
def FieldDeclaration.bare (field : FieldDeclaration) : FieldDeclaration :=
  ⟨field.name.bare, field.type.bare, field.value.map Expression.bare⟩

/-- A function without positions. -/
def FunctionDeclaration.bare (function : FunctionDeclaration) : FunctionDeclaration :=
  { function with
    name := function.name.bare
    parameters := function.parameters.map Parameter.bare
    result := function.result.map TypeExpression.bare
    body := function.body.bare
    span := .nowhere }

/-- A type without positions. -/
def TypeDeclaration.bare (type : TypeDeclaration) : TypeDeclaration :=
  { type with
    name := type.name.bare
    fields := type.fields.map FieldDeclaration.bare
    functions := type.functions.map FunctionDeclaration.bare
    span := .nowhere }

/-- A file without positions. -/
def File.bare (file : File) : File :=
  ⟨file.imports.map Identifier.bare, file.types.map TypeDeclaration.bare⟩

end Syntax

end GuestScript
