import GuestScript.Compile.Unit
import GuestScript.Proofs.Syntax.Bare

/-!
# Compiling without positions

Positions in a tree come to light in findings alone. The `bare` forms of what the compiler works on
have one span everywhere, like those of trees; what a name means, what a lambda mentions and whether a
body returns is the same in a tree and in its bare form.
-/

namespace GuestScript

/-- A finding without its position. -/
def Diagnostic.bare (finding : Diagnostic Span) : Diagnostic Span :=
  { finding with position := finding.position.map fun _ ↦ .nowhere }

theorem Diagnostic.bare_escalate (finding : Diagnostic Span) :
    finding.escalate.bare = finding.bare.escalate := by
  unfold escalate
  split
  · next warning => exact (if_pos warning).symm
  · next other => exact (if_neg other).symm

namespace Compile

open Bytecode (TypeIndex)
open Syntax

/-! ## Drafts and bodies -/

/-- A draft without the positions of its findings. -/
def Draft.bare (draft : Draft) : Draft :=
  { draft with findings := draft.findings.map Diagnostic.bare }

/-- A variable without where to point if it is never used. -/
def Local.bare (present : Local) : Local :=
  { present with lint := present.lint.map fun _ ↦ .nowhere }

/-- Scopes whose variables have no positions. -/
abbrev bareScopes (scopes : List (List Local)) : List (List Local) :=
  scopes.map (List.map Local.bare)

/-- A body without positions. -/
def Body.bare (body : Body) : Body :=
  { body with draft := body.draft.bare, scopes := bareScopes body.scopes }

theorem findIn_bare (name : String) (scope : List Local) :
    Lowering.findIn name (scope.map Local.bare) = (Lowering.findIn name scope).map Local.bare := by
  rw [Lowering.findIn, Lowering.findIn, List.find?_map]
  rfl

theorem markIn_bare (name : String) (scope : List Local) :
    Lowering.markIn name (scope.map Local.bare) = (Lowering.markIn name scope).map Local.bare := by
  induction scope with
  | nil => rfl
  | cons first rest ih =>
      have same : first.bare.name = first.name := rfl
      rw [List.map_cons, Lowering.markIn, Lowering.markIn, ih, same]
      split <;> rfl

theorem findAndMark_bare (name : String) (scopes : List (List Local)) :
    Lowering.findAndMark name (bareScopes scopes) = (Lowering.findAndMark name scopes).map
      fun (found, marked) ↦ (found.bare, bareScopes marked) := by
  induction scopes with
  | nil => rfl
  | cons scope outer ih =>
      rw [bareScopes, List.map_cons, Lowering.findAndMark, Lowering.findAndMark, findIn_bare,
        markIn_bare, ih]
      cases Lowering.findIn name scope with
      | some found => rfl
      | none => cases Lowering.findAndMark name outer <;> rfl

theorem findSome_findIn_bare (name : String) (scopes : List (List Local)) :
    (bareScopes scopes).findSome? (Lowering.findIn name)
      = (scopes.findSome? (Lowering.findIn name)).map Local.bare := by
  induction scopes with
  | nil => rfl
  | cons scope outer ih =>
      rw [bareScopes, List.map_cons, List.findSome?_cons, List.findSome?_cons, findIn_bare, ih]
      cases Lowering.findIn name scope <;> rfl

theorem unusedWarning_bare (candidate : Local) :
    Lowering.unusedWarning? candidate.bare
      = (Lowering.unusedWarning? candidate).map Diagnostic.bare := by
  obtain ⟨name, slot, type, used, lint⟩ := candidate
  cases lint with
  | none => rfl
  | some span =>
      exact (apply_ite (Option.map Diagnostic.bare) (used || name.toList.head? = some '_') none
        (some (.warning .unusedLocal ("unused local `" ++ name ++ "`") span))).symm

theorem unusedWarnings_bare (scope : List Local) :
    (scope.map Local.bare).filterMap Lowering.unusedWarning?
      = (scope.filterMap Lowering.unusedWarning?).map Diagnostic.bare := by
  rw [List.filterMap_map, List.map_filterMap]
  exact congrArg (List.filterMap · scope) (funext unusedWarning_bare)

/-! ## Declared types -/

/-- A field without positions. -/
def FieldInfo.bare (field : FieldInfo) : FieldInfo :=
  { field with value := field.value.map Expression.bare }

/-- A function without positions. -/
def MethodInfo.bare (method : MethodInfo) : MethodInfo :=
  { method with declaration := method.declaration.bare }

/-- A type without positions. -/
def TypeInfo.bare (type : TypeInfo) : TypeInfo :=
  { type with
    fields := type.fields.map FieldInfo.bare
    methods := type.methods.map MethodInfo.bare }

section Types

variable (types : List TypeInfo)

theorem names_bare : (types.map TypeInfo.bare).map TypeInfo.name = types.map TypeInfo.name := by
  rw [List.map_map]
  rfl

theorem typeNamed_bare (fullName : String) :
    typeNamed? (types.map TypeInfo.bare) fullName = typeNamed? types fullName := by
  rw [typeNamed?, typeNamed?, List.findIdx?_map]
  rfl

theorem fullNameOf_bare (index : TypeIndex) :
    fullNameOf (types.map TypeInfo.bare) index = fullNameOf types index := by
  rw [fullNameOf, fullNameOf, List.getElem?_map]
  cases types[index]? <;> rfl

theorem methodOf_bare (owner : TypeIndex) (name : String) :
    methodOf? (types.map TypeInfo.bare) owner name
      = (methodOf? types owner name).map MethodInfo.bare := by
  rw [methodOf?, methodOf?, List.getElem?_map]
  cases types[owner]? with
  | none => rfl
  | some info => exact List.find?_map

theorem fieldOf_bare (fullName name : String) :
    fieldOf? (types.map TypeInfo.bare) fullName name = fieldOf? types fullName name := by
  rw [fieldOf?, fieldOf?, typeNamed_bare]
  cases typeNamed? types fullName with
  | none => rfl
  | some index =>
      simp only [Option.bind_eq_bind, Option.bind_some, List.getElem?_map]
      cases types[index]? with
      | none => rfl
      | some info =>
          have position : (info.fields.map FieldInfo.bare).findIdx? (fun field ↦ field.name = name)
              = info.fields.findIdx? fun field ↦ field.name = name := List.findIdx?_map
          simp only [Option.map_some, Option.bind_some, TypeInfo.bare, position, List.getElem?_map]
          cases info.fields.findIdx? fun field ↦ field.name = name with
          | none => rfl
          | some position => cases here : info.fields[position]? <;> simp [here, FieldInfo.bare]

end Types

/-! ## Names that are mentioned -/

theorem pathText_bare (segments : List Identifier) :
    pathText (segments.map Identifier.bare) = pathText segments := by
  rw [pathText, pathText, List.map_map]
  rfl

namespace Mentions

variable {names : List String}

theorem inPath_bare : (segments : List Identifier) →
    inPath names (segments.map Identifier.bare) = inPath names segments
  | [] | [_] | _ :: _ :: _ => rfl

theorem inPlace_bare : (place : Place) → inPlace names place.bare = inPlace names place
  | .binding _ | .field _ => rfl

theorem inCallee_bare : (callee : Expression) → inCallee names callee.bare = inCallee names callee
  | .path segments _ => by
      rcases segments with _ | ⟨_, _ | ⟨_, _⟩⟩ <;> rfl
  | .int .. | .str .. | .bool .. | .array .. | .receiver _ | .call .. | .field .. | .method ..
  | .element .. | .construct .. | .lambda .. | .unary .. | .binary .. => rfl

mutual

/-- A bare expression mentions the same names. -/
theorem inExpression_bare (names : List String) : (value : Expression) →
    inExpression names value.bare = inExpression names value
  | .int .. | .str .. | .bool .. | .construct .. | .receiver _ => rfl
  | .path segments _ => inPath_bare segments
  | .array items _ => inExpressions_bare names items
  | .call callee arguments _ => by
      simp only [Expression.bare, inExpression]
      rw [inCallee_bare, inExpression_bare _ callee, inExpressions_bare _ arguments]
  | .method target _ arguments _ => by
      simp only [Expression.bare, inExpression]
      rw [inExpression_bare _ target, inExpressions_bare _ arguments]
  | .field target _ _ => inExpression_bare names target
  | .element target index _ => by
      simp only [Expression.bare, inExpression]
      rw [inExpression_bare _ target, inExpression_bare _ index]
  | .lambda _ body _ => inLambda_bare names body
  | .unary _ operand _ => inExpression_bare names operand
  | .binary _ left right _ => by
      simp only [Expression.bare, inExpression]
      rw [inExpression_bare _ left, inExpression_bare _ right]

theorem inExpressions_bare (names : List String) : (values : List Expression) →
    inExpressions names (bareExpressions values) = inExpressions names values
  | [] => rfl
  | first :: rest => by
      simp only [bareExpressions, inExpressions]
      rw [inExpression_bare _ first, inExpressions_bare _ rest]

/-- The bare body of a lambda mentions the same names. -/
theorem inLambda_bare (names : List String) : (body : LambdaBody) →
    inLambda names body.bare = inLambda names body
  | .expression value => inExpression_bare names value
  | .block body => inBlock_bare names body

theorem inBlock_bare (names : List String) : (body : Block) →
    inBlock names body.bare = inBlock names body
  | .mk statements _ => inStatements_bare names statements

theorem inStatements_bare (names : List String) : (statements : List Statement) →
    inStatements names (bareStatements statements) = inStatements names statements
  | [] => rfl
  | first :: rest => by
      simp only [bareStatements, inStatements]
      rw [inStatement_bare _ first, inStatements_bare _ rest]

theorem inStatement_bare (names : List String) : (statement : Statement) →
    inStatement names statement.bare = inStatement names statement
  | .declare _ _ value _ => inExpression_bare names value
  | .assign target value _ => by
      simp only [Statement.bare, inStatement]
      rw [inPlace_bare, inExpression_bare _ value]
  | .forEach _ iterable body _ => by
      simp only [Statement.bare, inStatement]
      rw [inExpression_bare _ iterable, inBlock_bare _ body]
  | .whileLoop condition body _ => by
      simp only [Statement.bare, inStatement]
      rw [inExpression_bare _ condition, inBlock_bare _ body]
  | .conditional condition body alternative _ => by
      simp only [Statement.bare, inStatement]
      rw [inExpression_bare _ condition, inBlock_bare _ body, inAlternative_bare _ alternative]
  | .returns none _ => rfl
  | .returns (some value) _ => inExpression_bare names value
  | .evaluate value => inExpression_bare names value

theorem inAlternative_bare (names : List String) : (other : Alternative) →
    inAlternative names other.bare = inAlternative names other
  | .absent => rfl
  | .block body => inBlock_bare names body
  | .chain conditional => inStatement_bare names conditional

end

end Mentions

/-! ## Returning on every path -/

mutual

/-- A bare block returns on the same paths. -/
theorem blockReturns_bare : (body : Block) → blockReturns body.bare = blockReturns body
  | .mk statements _ => anyReturns_bare statements

theorem anyReturns_bare : (statements : List Statement) →
    anyReturns (bareStatements statements) = anyReturns statements
  | [] => rfl
  | first :: rest => by
      simp only [bareStatements, anyReturns]
      rw [statementReturns_bare first, anyReturns_bare rest]

theorem statementReturns_bare : (statement : Statement) →
    statementReturns statement.bare = statementReturns statement
  | .declare .. | .assign .. | .forEach .. | .whileLoop .. | .evaluate _ | .returns none _
  | .returns (some _) _ => rfl
  | .conditional _ body other _ => by
      simp only [Statement.bare, statementReturns]
      rw [blockReturns_bare body, alternativeReturns_bare other]

theorem alternativeReturns_bare : (other : Alternative) →
    alternativeReturns other.bare = alternativeReturns other
  | .absent => rfl
  | .block body => blockReturns_bare body
  | .chain conditional => statementReturns_bare conditional

end

end Compile

end GuestScript
