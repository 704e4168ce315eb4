import GuestScript.Proofs.Text.Vocabulary
import GuestScript.Syntax.Tree

/-!
# Plain names in a tree

A tree is plain if every name in it is, at any depth: the names of variables, members, types and
namespaces, and those of written types. The values of literals are no names.
-/

namespace GuestScript.Syntax

variable (words : Vocabulary)

/-- A name is plain. -/
def Identifier.IsPlain (name : Identifier) : Prop :=
  words.plain name.name

mutual

/-- The names in a written type are plain. -/
def TypeExpression.IsPlain : TypeExpression → Prop
  | .int _ | .str _ | .bool _ | .unit _ | .dyn _ => True
  | .array element _ | .seq element _ => element.IsPlain
  | .function parameters result _ => typesArePlain parameters ∧ result.IsPlain
  | .named name _ => words.plain name

/-- The names in written types are plain. -/
def typesArePlain : List TypeExpression → Prop
  | [] => True
  | first :: rest => first.IsPlain ∧ typesArePlain rest

end

/-- The name in a place is plain. -/
def Place.IsPlain : Place → Prop
  | .binding name | .field name => name.IsPlain words

mutual

/-- The names in an expression are plain. -/
def Expression.IsPlain : Expression → Prop
  | .int .. | .str .. | .bool .. | .receiver _ => True
  | .array items _ => arePlain items
  | .path segments _ => ∀ name ∈ segments, name.IsPlain words
  | .call callee arguments _ => callee.IsPlain ∧ arePlain arguments
  | .method target name arguments _ => target.IsPlain ∧ name.IsPlain words ∧ arePlain arguments
  | .field target name _ => target.IsPlain ∧ name.IsPlain words
  | .element target index _ => target.IsPlain ∧ index.IsPlain
  | .construct name _ => name.IsPlain words
  | .lambda parameters body _ => (∀ name ∈ parameters, name.IsPlain words) ∧ body.IsPlain
  | .unary _ operand _ => operand.IsPlain
  | .binary _ left right _ => left.IsPlain ∧ right.IsPlain

/-- The names in expressions are plain. -/
def arePlain : List Expression → Prop
  | [] => True
  | first :: rest => first.IsPlain ∧ arePlain rest

/-- The names in the body of a lambda are plain. -/
def LambdaBody.IsPlain : LambdaBody → Prop
  | .expression value => value.IsPlain
  | .block body => body.IsPlain

/-- The names in a block are plain. -/
def Block.IsPlain : Block → Prop
  | .mk statements _ => statementsArePlain statements

/-- The names in statements are plain. -/
def statementsArePlain : List Statement → Prop
  | [] => True
  | first :: rest => first.IsPlain ∧ statementsArePlain rest

/-- The names in a statement are plain. -/
def Statement.IsPlain : Statement → Prop
  | .declare name none value _ => name.IsPlain words ∧ value.IsPlain
  | .declare name (some type) value _ => name.IsPlain words ∧ type.IsPlain words ∧ value.IsPlain
  | .assign target value _ => target.IsPlain words ∧ value.IsPlain
  | .forEach binding iterable body _ =>
      binding.IsPlain words ∧ iterable.IsPlain ∧ body.IsPlain
  | .whileLoop test body _ => test.IsPlain ∧ body.IsPlain
  | .conditional test body other _ => test.IsPlain ∧ body.IsPlain ∧ other.IsPlain
  | .returns none _ => True
  | .returns (some value) _ => value.IsPlain
  | .evaluate value => value.IsPlain

/-- The names in an alternative are plain. -/
def Alternative.IsPlain : Alternative → Prop
  | .absent => True
  | .block body => body.IsPlain
  | .chain conditional => conditional.IsPlain

end

/-- The names of a parameter are plain. -/
structure Parameter.IsPlain (parameter : Parameter) : Prop where
  name : parameter.name.IsPlain words
  type : parameter.type.IsPlain words

/-- The names in a field are plain. -/
structure FieldDeclaration.IsPlain (field : FieldDeclaration) : Prop where
  name : field.name.IsPlain words
  type : field.type.IsPlain words
  value : ∀ value ∈ field.value, value.IsPlain words

/-- The names in a function are plain. -/
structure FunctionDeclaration.IsPlain (function : FunctionDeclaration) : Prop where
  name : function.name.IsPlain words
  parameters : ∀ parameter ∈ function.parameters, parameter.IsPlain words
  result : ∀ result ∈ function.result, result.IsPlain words
  body : function.body.IsPlain words

/-- The names in a type are plain. -/
structure TypeDeclaration.IsPlain (type : TypeDeclaration) : Prop where
  namespaceName : words.plain type.namespaceName
  name : type.name.IsPlain words
  fields : ∀ field ∈ type.fields, field.IsPlain words
  functions : ∀ function ∈ type.functions, function.IsPlain words

/-- The names in the types of a file are plain. -/
def File.IsPlain (file : File) : Prop :=
  ∀ type ∈ file.types, type.IsPlain words

variable {words}

theorem typesArePlain_iff {types : List TypeExpression} :
    typesArePlain words types ↔ ∀ type ∈ types, type.IsPlain words := by
  induction types with
  | nil => simp [typesArePlain]
  | cons first rest ih => simp [typesArePlain, ih]

theorem arePlain_iff {values : List Expression} :
    arePlain words values ↔ ∀ value ∈ values, value.IsPlain words := by
  induction values with
  | nil => simp [arePlain]
  | cons first rest ih => simp [arePlain, ih]

theorem statementsArePlain_iff {statements : List Statement} :
    statementsArePlain words statements ↔ ∀ statement ∈ statements, statement.IsPlain words := by
  induction statements with
  | nil => simp [statementsArePlain]
  | cons first rest ih => simp [statementsArePlain, ih]

/-! ## The vocabulary of everything -/

mutual

theorem TypeExpression.isPlain_everything :
    (written : TypeExpression) → written.IsPlain .everything
  | .int _ | .str _ | .bool _ | .unit _ | .dyn _ | .named _ _ => trivial
  | .array element _ | .seq element _ => element.isPlain_everything
  | .function parameters result _ =>
      ⟨typesArePlain_everything parameters, result.isPlain_everything⟩

theorem typesArePlain_everything :
    (types : List TypeExpression) → typesArePlain .everything types
  | [] => trivial
  | first :: rest => ⟨first.isPlain_everything, typesArePlain_everything rest⟩

end

theorem Place.isPlain_everything : (place : Place) → place.IsPlain .everything
  | .binding _ | .field _ => trivial

mutual

theorem Expression.isPlain_everything : (value : Expression) → value.IsPlain .everything
  | .int .. | .str .. | .bool .. | .receiver _ | .construct .. => trivial
  | .array items _ => arePlain_everything items
  | .path _ _ => fun _ _ ↦ trivial
  | .call callee arguments _ => ⟨callee.isPlain_everything, arePlain_everything arguments⟩
  | .method target _ arguments _ =>
      ⟨target.isPlain_everything, trivial, arePlain_everything arguments⟩
  | .field target _ _ => ⟨target.isPlain_everything, trivial⟩
  | .element target index _ => ⟨target.isPlain_everything, index.isPlain_everything⟩
  | .lambda _ body _ => ⟨fun _ _ ↦ trivial, body.isPlain_everything⟩
  | .unary _ operand _ => operand.isPlain_everything
  | .binary _ left right _ => ⟨left.isPlain_everything, right.isPlain_everything⟩

theorem arePlain_everything : (values : List Expression) → arePlain .everything values
  | [] => trivial
  | first :: rest => ⟨first.isPlain_everything, arePlain_everything rest⟩

theorem LambdaBody.isPlain_everything : (body : LambdaBody) → body.IsPlain .everything
  | .expression value => value.isPlain_everything
  | .block body => body.isPlain_everything

theorem Block.isPlain_everything : (body : Block) → body.IsPlain .everything
  | .mk statements _ => statementsArePlain_everything statements

theorem statementsArePlain_everything :
    (statements : List Statement) → statementsArePlain .everything statements
  | [] => trivial
  | first :: rest => ⟨first.isPlain_everything, statementsArePlain_everything rest⟩

theorem Statement.isPlain_everything : (statement : Statement) → statement.IsPlain .everything
  | .declare _ none value _ => ⟨trivial, value.isPlain_everything⟩
  | .declare _ (some type) value _ =>
      ⟨trivial, type.isPlain_everything, value.isPlain_everything⟩
  | .assign target value _ => ⟨target.isPlain_everything, value.isPlain_everything⟩
  | .forEach _ iterable body _ =>
      ⟨trivial, iterable.isPlain_everything, body.isPlain_everything⟩
  | .whileLoop test body _ => ⟨test.isPlain_everything, body.isPlain_everything⟩
  | .conditional test body other _ =>
      ⟨test.isPlain_everything, body.isPlain_everything, other.isPlain_everything⟩
  | .returns none _ => trivial
  | .returns (some value) _ => value.isPlain_everything
  | .evaluate value => value.isPlain_everything

theorem Alternative.isPlain_everything : (other : Alternative) → other.IsPlain .everything
  | .absent => trivial
  | .block body => body.isPlain_everything
  | .chain conditional => conditional.isPlain_everything

end

/-- All names are plain in the vocabulary of everything. -/
theorem File.isPlain_everything (file : File) : file.IsPlain .everything := fun _ _ ↦
  { namespaceName := trivial
    name := trivial
    fields := fun _ _ ↦ ⟨trivial, TypeExpression.isPlain_everything _,
      fun value _ ↦ value.isPlain_everything⟩
    functions := fun function _ ↦ ⟨trivial,
      fun parameter _ ↦ ⟨trivial, parameter.type.isPlain_everything⟩,
      fun result _ ↦ result.isPlain_everything, function.body.isPlain_everything⟩ }

end GuestScript.Syntax
