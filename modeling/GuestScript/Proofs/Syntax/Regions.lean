import Mathlib.Logic.Relation
import GuestScript.Proofs.Grammar.Places
import GuestScript.Syntax.Problem
import GuestScript.Syntax.Tree

/-!
# The regions of a tree

A syntax tree divides its text into regions: what it has a span for is a region, and the regions of its
parts are inside, in the order in which they are written. A region says what kind of thing it is as far
as anything depends on it: a name with its text, something that not every version has, or any other
thing. What has no span of its own, such as a parameter or the first value of a field, stands with its
parts in the region around it.

A region of a text is well formed if it starts and ends between characters of the text, encloses all
that is inside it, and has its parts one behind the other (`Region.IsWellFormed`). Being placed, which
follows the constructors, implies it for the region and everything inside: `Region.IsPlaced.isWellFormed`.
-/

namespace GuestScript.Syntax

open Grammar (IsBoundary StandsAt bytesOf)

/-- What a region is: a name, a use of what not every version has, or anything else. -/
inductive Region.Kind where
  | name (text : String)
  | feature (feature : Feature)
  | other

/-- A part of a text that a tree has a span for, with those inside it in order. -/
inductive Region where
  | mk (kind : Region.Kind) (span : Span) (parts : List Region)

namespace Region

/-- What a region is. -/
def kind : Region → Kind
  | .mk kind _ _ => kind

/-- Where a region is. -/
def span : Region → Span
  | .mk _ span _ => span

/-- The regions directly inside a region, in order. -/
def parts : Region → List Region
  | .mk _ _ parts => parts

/-- Whether one region starts no later than another. -/
def startsBefore (first second : Region) : Bool :=
  first.span.start ≤ second.span.start

end Region

/-! ## The regions of trees -/

/-- The region of a name. -/
def Identifier.region (name : Identifier) : Region :=
  .mk (.name name.name) name.span []

mutual

/-- The region of a type; one that is written as a name is that name. -/
def TypeExpression.region : TypeExpression → Region
  | .int span | .str span | .bool span | .unit span => .mk .other span []
  | .named name span => .mk (.name name) span []
  | .dyn span => .mk (.feature .dynamicType) span []
  | .array element span | .seq element span => .mk .other span [element.region]
  | .function parameters result span =>
      .mk .other span (regionsOfTypes parameters ++ [result.region])

/-- The regions of types. -/
def regionsOfTypes : List TypeExpression → List Region
  | [] => []
  | first :: rest => first.region :: regionsOfTypes rest

end

/-- The region of what is assigned to: that of the name of the variable or field. -/
def Place.region : Place → Region
  | .binding name | .field name => name.region

mutual

/-- The region of an expression. -/
def Expression.region : Expression → Region
  | .int _ span | .str _ span | .bool _ span | .receiver span => .mk .other span []
  | .array items span => .mk .other span (regionsIn items)
  | .path segments span => .mk .other span (segments.map Identifier.region)
  | .call callee arguments span => .mk .other span (callee.region :: regionsIn arguments)
  | .field target name span => .mk .other span [target.region, name.region]
  | .method target name arguments span =>
      .mk .other span (target.region :: name.region :: regionsIn arguments)
  | .element target index span => .mk .other span [target.region, index.region]
  | .construct typeName span => .mk .other span [typeName.region]
  | .lambda parameters body span =>
      .mk (.feature .lambda) span (parameters.map Identifier.region ++ [body.region])
  | .unary _ operand span => .mk .other span [operand.region]
  | .binary _ left right span => .mk .other span [left.region, right.region]

/-- The regions of expressions. -/
def regionsIn : List Expression → List Region
  | [] => []
  | first :: rest => first.region :: regionsIn rest

/-- The region of the body of a lambda. -/
def LambdaBody.region : LambdaBody → Region
  | .expression value => value.region
  | .block body => body.region

/-- The region of a block. -/
def Block.region : Block → Region
  | .mk statements span => .mk .other span (regionsOfStatements statements)

/-- The regions of statements. -/
def regionsOfStatements : List Statement → List Region
  | [] => []
  | first :: rest => first.region :: regionsOfStatements rest

/-- The region of a statement; that of an expression is the one of the expression. -/
def Statement.region : Statement → Region
  | .declare name none value span => .mk .other span [name.region, value.region]
  | .declare name (some type) value span =>
      .mk .other span [name.region, type.region, value.region]
  | .assign target value span => .mk .other span [target.region, value.region]
  | .forEach binding iterable body span =>
      .mk .other span [binding.region, iterable.region, body.region]
  | .whileLoop condition body span => .mk .other span [condition.region, body.region]
  | .conditional condition body alternative span =>
      .mk .other span (condition.region :: body.region :: alternative.regions)
  | .returns none span => .mk .other span []
  | .returns (some value) span => .mk .other span [value.region]
  | .evaluate value => value.region

/-- The regions of what a conditional does otherwise. -/
def Alternative.regions : Alternative → List Region
  | .absent => []
  | .block body => [body.region]
  | .chain conditional => [conditional.region]

end

/-- The regions of a parameter. -/
def Parameter.regions (parameter : Parameter) : List Region :=
  [parameter.name.region, parameter.type.region]

/-- The regions of a field: its name, its type, and its first value if there is one. -/
def FieldDeclaration.regions (field : FieldDeclaration) : List Region :=
  field.name.region :: field.type.region :: field.value.toList.map Expression.region

/-- The region of a function, with its name, its parameters, its result and its body inside. -/
def FunctionDeclaration.region (function : FunctionDeclaration) : Region :=
  .mk .other function.span (function.name.region ::
    (function.parameters.flatMap Parameter.regions ++
      (function.result.toList.map TypeExpression.region ++ [function.body.region])))

/-- The region of a type. A tree has fields and functions apart; in the text they stand among each
other, so the two lists are merged by where their regions start. -/
def TypeDeclaration.region (declaration : TypeDeclaration) : Region :=
  .mk .other declaration.span (declaration.name.region ::
    (declaration.fields.flatMap FieldDeclaration.regions).merge
      (declaration.functions.map FunctionDeclaration.region) Region.startsBefore)

/-- The regions of a file that are inside no other: the modules that it asks for, and its types. -/
def File.regions (file : File) : List Region :=
  file.imports.map Identifier.region ++ file.types.map TypeDeclaration.region

theorem regionsOfTypes_eq_map (types : List TypeExpression) :
    regionsOfTypes types = types.map TypeExpression.region := by
  induction types with
  | nil => rfl
  | cons first rest ih => rw [regionsOfTypes, ih, List.map_cons]

theorem regionsIn_eq_map (values : List Expression) :
    regionsIn values = values.map Expression.region := by
  induction values with
  | nil => rfl
  | cons first rest ih => rw [regionsIn, ih, List.map_cons]

theorem regionsOfStatements_eq_map (statements : List Statement) :
    regionsOfStatements statements = statements.map Statement.region := by
  induction statements with
  | nil => rfl
  | cons first rest ih => rw [regionsOfStatements, ih, List.map_cons]

@[simp]
theorem Expression.span_region (value : Expression) : value.region.span = value.span := by
  cases value <;> rfl

/-! ## What not every version has -/

mutual

/-- The uses in a region of what not every version has, in the order of the text. -/
def Region.uses : Region → List (Feature × Span)
  | .mk (.feature feature) span parts => (feature, span) :: usesOf parts
  | .mk (.name _) _ parts | .mk .other _ parts => usesOf parts

/-- The uses in regions of what not every version has. -/
def usesOf : List Region → List (Feature × Span)
  | [] => []
  | first :: rest => first.uses ++ usesOf rest

end

/-- The lambda expressions and the `dyn` types of a file, wherever they are in it, in the order of the
text. -/
def File.uses (file : File) : List (Feature × Span) :=
  usesOf file.regions

@[simp]
theorem usesOf_append (first second : List Region) :
    usesOf (first ++ second) = usesOf first ++ usesOf second := by
  induction first with
  | nil => rfl
  | cons region rest ih => rw [List.cons_append, usesOf, usesOf, ih, List.append_assoc]

/-! ## Well-formed regions -/

namespace Region

/-- One region is directly inside another. -/
def IsPart (inner outer : Region) : Prop :=
  inner ∈ outer.parts

/-- One region is inside another, at any depth. -/
abbrev IsInside : Region → Region → Prop :=
  Relation.TransGen IsPart

/-- A region fits its text: it starts and ends between characters, in this order; where it is a name, the
name stands there; it encloses all that is inside it; and what is directly inside is in order, each
region ending before the next one starts. -/
structure IsWellFormed (text : List Char) (region : Region) : Prop where
  start : IsBoundary text region.span.start
  stop : IsBoundary text region.span.stop
  forward : region.span.start ≤ region.span.stop
  named : ∀ name, region.kind = .name name → StandsAt text name.toList region.span
  encloses : ∀ inner : Region, inner.IsInside region →
    region.span.start ≤ inner.span.start ∧ inner.span.stop ≤ region.span.stop
  apart : region.parts.Pairwise fun first second ↦ first.span.stop ≤ second.span.start

/-- A region and all inside it are at their places in a text: each takes up room between two boundaries
of the text, a name stands where its region is, and the parts of a region are in a row in it. -/
inductive IsPlaced (text : List Char) : Region → Prop
  | mk {kind : Kind} {span : Span} {parts : List Region} : IsBoundary text span.start →
      IsBoundary text span.stop → span.start < span.stop →
      (∀ name, kind = .name name → StandsAt text name.toList span) →
      Span.IsRow span.start span.stop (parts.map Region.span) →
      (∀ part ∈ parts, part.IsPlaced text) → IsPlaced text (.mk kind span parts)

section Placed

variable {text : List Char} {region inner : Region}

theorem IsPlaced.part (placed : region.IsPlaced text) (inside : inner ∈ region.parts) :
    inner.IsPlaced text ∧ region.span.start ≤ inner.span.start ∧
      inner.span.stop ≤ region.span.stop := by
  cases placed with
  | mk _ _ _ _ row each =>
      obtain ⟨low, -, high⟩ := row.within _ (List.mem_map_of_mem inside)
      exact ⟨each _ inside, low, high⟩

/-- What is inside a placed region is placed, and within its span. -/
theorem IsPlaced.inside (placed : region.IsPlaced text) (inside : inner.IsInside region) :
    inner.IsPlaced text ∧ region.span.start ≤ inner.span.start ∧
      inner.span.stop ≤ region.span.stop := by
  induction inside using Relation.TransGen.head_induction_on with
  | single direct => exact placed.part direct
  | head direct _ ih =>
      obtain ⟨between, low, high⟩ := ih
      obtain ⟨here, low', high'⟩ := between.part direct
      exact ⟨here, Nat.le_trans low low', Nat.le_trans high' high⟩

theorem IsPlaced.isWellFormed (placed : region.IsPlaced text) : region.IsWellFormed text := by
  have encloses (inner : Region) (inside : inner.IsInside region) := (placed.inside inside).2
  cases placed with
  | mk start stop room named row _ =>
      exact ⟨start, stop, Nat.le_of_lt room, named, encloses, List.pairwise_map.mp row.pairwise⟩

end Placed

end Region

end GuestScript.Syntax
