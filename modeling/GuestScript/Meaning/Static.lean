import GuestScript.Compile.Unit
import Mathlib.Algebra.GroupWithZero.Nat

/-!
# What the text of a program settles

The parts of the meaning of a program that do not depend on a run: what a written type stands for,
what a name or a call refers to, which variables a lambda copies, the static type of an expression,
and how the lambdas of a file are numbered. `typeOf` is about expressions without a mistake; where
there is one, the type is of no use.
-/

namespace GuestScript.Meaning

open Bytecode (TypeIndex)
open Compile
open Syntax

/-! ## Scopes -/

/-- A variable in scope: its name, its static type, and what holds its value. -/
structure Variable (Holder : Type) where
  name : String
  type : Ty
  holder : Holder

/-- The variables in scope, the newest first. -/
abbrev Scope (Holder : Type) := List (Variable Holder)

variable {Holder : Type}

/-- A variable with something else to hold its value. -/
def Variable.hold {Other : Type} (change : Holder → Other) (held : Variable Holder) :
    Variable Other :=
  ⟨held.name, held.type, change held.holder⟩

namespace Scope

/-- The newest variable of a name. -/
def named? (scope : Scope Holder) (name : String) : Option (Variable Holder) :=
  scope.find? fun held ↦ held.name = name

/-- The oldest variable of a name. -/
def oldest? (scope : Scope Holder) (name : String) : Option (Variable Holder) :=
  Scope.named? scope.reverse name

/-- The variables without what holds their values. -/
def typing (scope : Scope Holder) : Scope Unit :=
  scope.map (Variable.hold fun _ ↦ ())

end Scope

/-- What stays the same throughout a body: the modules and types it may use, the type it belongs to,
whether there is an instance to work on, and the type it returns. -/
structure Site where
  references : ReferenceSet
  types : List TypeInfo
  owner : TypeIndex
  ownerName : TypeName
  hasReceiver : Bool
  result : Ty

namespace Site

/-- The type of the receiver. -/
def ownerType (site : Site) : Ty :=
  .object site.ownerName.full

/-- The type that a simple name means. -/
def typeNamed? (site : Site) (name : String) : Option TypeIndex :=
  TypeName.find? (site.types.map TypeInfo.name) name site.ownerName.namespaceName

end Site

mutual

/-- The type that a written type stands for. -/
def meantType (references : ReferenceSet) (names : List TypeName) (namespaceName : String) :
    TypeExpression → Ty
  | .int _ => .int
  | .str _ => .str
  | .bool _ => .bool
  | .unit _ => .unit
  | .dyn _ => if references.contains "dynamic" then .dyn else .poison
  | .array element _ => .array (meantType references names namespaceName element)
  | .seq element _ => .seq (meantType references names namespaceName element)
  | .function parameters result _ =>
      .function (meantTypes references names namespaceName parameters)
        (meantType references names namespaceName result)
  | .named name _ =>
      match TypeName.find? names name namespaceName with
      | some index => .object ((names[index]?.map TypeName.full).getD "")
      | none => .poison

/-- The types that written types stand for. -/
def meantTypes (references : ReferenceSet) (names : List TypeName) (namespaceName : String) :
    List TypeExpression → List Ty
  | [] => []
  | first :: rest =>
      meantType references names namespaceName first
        :: meantTypes references names namespaceName rest

end

/-- The type that a type written in a body stands for. -/
def Site.meant (site : Site) (written : TypeExpression) : Ty :=
  meantType site.references (site.types.map TypeInfo.name) site.ownerName.namespaceName written

/-! ## References to members -/

/-- The position and the type of a field of a value of this static type. -/
def fieldOn? (types : List TypeInfo) (target : Ty) (name : String) : Option (Nat × Ty) :=
  match target with
  | .object fullName => fieldOf? types fullName name
  | _ => none

/-- The function that a method call on a value of this static type refers to. -/
def methodOn? (types : List TypeInfo) (target : Ty) (name : String) :
    Option (TypeIndex × MethodInfo) :=
  match target with
  | .object fullName => do
      let type ← Compile.typeNamed? types fullName
      pure (type, ← methodOf? types type name)
  | _ => none

/-- What a call by name refers to. -/
inductive Callable (Holder : Type) where
  | value (held : Variable Holder)
  | function (owner : TypeIndex) (method : MethodInfo)
  | host (name : String) (function : HostFunction)

/-- What a call of something written as a path refers to: a local variable or a function of the same
type under a simple name, a function of a named type or of a host module otherwise. -/
def callable? (site : Site) (scope : Scope Holder) : List Identifier → Option (Callable Holder)
  | [name] =>
      match scope.named? name.name with
      | some held => some (.value held)
      | none => (methodOf? site.types site.owner name.name).map (.function site.owner)
  | [qualifier, function] =>
      match site.typeNamed? qualifier.name with
      | some type => (methodOf? site.types type function.name).map (.function type)
      | none => do
          let binding ← site.references.lookup? qualifier.name
          let host ← binding.host.function? function.name
          pure (.host (binding.name ++ "::" ++ function.name) host)
  | _ => none

/-! ## Lambdas -/

/-- The copy that a lambda takes of what it mentions under a name. A parameter hides what has its
name. -/
def capture? (ownerType : Ty) (receiver : Option Holder) (parameters : List Identifier)
    (scope : Scope Holder) (name : String) : Option (Variable Holder) :=
  if name = Mentions.receiverName then receiver.map fun holder ↦ ⟨name, ownerType, holder⟩
  else if parameters.any fun parameter ↦ parameter.name = name then none
  else scope.named? name

/-- The copies that a lambda takes, in the order of the names. -/
def captures (ownerType : Ty) (receiver : Option Holder) (parameters : List Identifier)
    (scope : Scope Holder) (body : LambdaBody) : List (Variable Holder) :=
  (Mentions.inLambda [] body).filterMap (capture? ownerType receiver parameters scope)

/-- Whether one of these copies is that of the receiver. -/
def includesReceiver (copies : List (Variable Holder)) : Bool :=
  copies.any fun copy ↦ copy.name = Mentions.receiverName

/-- What stays the same throughout the body of a lambda. -/
def Site.inLambda (site : Site) (copies : List (Variable Holder)) (result : Ty) : Site :=
  { site with hasReceiver := includesReceiver copies, result }

/-- Names with the types they are declared with. -/
def declared (names : List Identifier) (types : List Ty) : List (Variable Unit) :=
  (names.zip types).map fun (name, type) ↦ ⟨name.name, type, ()⟩

/-! ## Static types -/

/-- The type that calling a value of this type gives. -/
def calledType : Ty → Ty
  | .function _ result => result
  | .dyn => .dyn
  | _ => .poison

/-- The parameters that the arguments of a call of a value of this type are for. -/
def calledParameters : Ty → List Ty
  | .function parameters _ => parameters
  | _ => []

/-- The type of the items of a value of this type. -/
def indexedType : Ty → Ty
  | .array element => element
  | .dyn => .dyn
  | _ => .poison

mutual

/-- The static type of an expression, given the type it is wanted for. -/
def typeOf (site : Site) (scope : Scope Unit) : Expression → Option Ty → Ty
  | .int .., _ => .int
  | .str .., _ => .str
  | .bool .., _ => .bool
  | .array items _, expected =>
      .array ((itemsType? site scope items (wantedElement expected)).getD .dyn)
  | .receiver _, _ => site.ownerType
  | .path segments _, _ =>
      match segments with
      | [name] => ((scope.named? name.name).map Variable.type).getD .poison
      | _ => .poison
  | .call callee arguments _, _ =>
      match callee with
      | .path segments _ =>
          match callable? site scope segments with
          | some (.value held) => calledType held.type
          | some (.function _ method) => method.result
          | some (.host _ function) =>
              function.result.substitute (bound site scope arguments function.parameters none)
          | none => .poison
      | other => calledType (typeOf site scope other none)
  | .field target name _, _ =>
      ((fieldOn? site.types (typeOf site scope target none) name.name).map Prod.snd).getD .poison
  | .method target name _ _, _ =>
      match methodOn? site.types (typeOf site scope target none) name.name with
      | some (_, method) => method.result
      | none => .poison
  | .element target _ _, _ => indexedType (typeOf site scope target none)
  | .construct name _, _ =>
      match site.typeNamed? name.name with
      | some type => .object (fullNameOf site.types type)
      | none => .poison
  | .lambda parameters body _, expected =>
      let (types, result) := lambdaSignature parameters.length expected
      let receiver := if site.hasReceiver then some () else none
      let copies := captures site.ownerType receiver parameters scope body
      .function types
        (bodyType (site.inLambda copies result)
          ((declared parameters types).reverse ++ copies.reverse) body)
  | .unary operator _ _, _ => unaryType operator
  | .binary operator left right _, _ =>
      match operator with
      | .and | .or => .bool
      | strict =>
          (binaryType? strict (typeOf site scope left none) (typeOf site scope right none)).getD
            .poison

/-- The type of the items of an array. Where no type is wanted, the first item decides. -/
def itemsType? (site : Site) (scope : Scope Unit) : List Expression → Option Ty → Option Ty
  | [], wanted => wanted
  | _ :: _, some wanted => some wanted
  | item :: _, none => some (typeOf site scope item none)

/-- What the open type of a signature is bound to behind arguments. -/
def bound (site : Site) (scope : Scope Unit) :
    List Expression → List Ty → Option Ty → Option Ty
  | [], _, binding => binding
  | _ :: rest, [], binding => bound site scope rest [] binding
  | argument :: rest, wanted :: others, binding =>
      let type := typeOf site scope argument (some (wanted.substitute binding))
      bound site scope rest others (wanted.accepts type binding).2

/-- The type of what the body of a lambda gives. -/
def bodyType (site : Site) (scope : Scope Unit) : LambdaBody → Ty
  | .expression value =>
      if site.result.isDyn then typeOf site scope value (some site.result) else site.result
  | .block _ => site.result

end

/-! ## Numbers of lambdas -/

mutual

/-- The number of lambdas in an expression. -/
def lambdasIn : Expression → Nat
  | .int .. | .str .. | .bool .. | .receiver _ | .path .. | .construct .. => 0
  | .array items _ => lambdasInAll items
  | .call callee arguments _ => lambdasIn callee + lambdasInAll arguments
  | .method target _ arguments _ => lambdasIn target + lambdasInAll arguments
  | .field target _ _ => lambdasIn target
  | .element target index _ => lambdasIn target + lambdasIn index
  | .lambda _ body _ => lambdasInBody body + 1
  | .unary _ operand _ => lambdasIn operand
  | .binary _ left right _ => lambdasIn left + lambdasIn right

/-- The number of lambdas in expressions. -/
def lambdasInAll : List Expression → Nat
  | [] => 0
  | first :: rest => lambdasIn first + lambdasInAll rest

/-- The number of lambdas in the body of a lambda. -/
def lambdasInBody : LambdaBody → Nat
  | .expression value => lambdasIn value
  | .block body => lambdasInBlock body

/-- The number of lambdas in a block. -/
def lambdasInBlock : Block → Nat
  | .mk statements _ => lambdasInStatements statements

/-- The number of lambdas in statements. -/
def lambdasInStatements : List Statement → Nat
  | [] => 0
  | first :: rest => lambdasInStatement first + lambdasInStatements rest

/-- The number of lambdas in a statement. -/
def lambdasInStatement : Statement → Nat
  | .declare _ _ value _ => lambdasIn value
  | .assign _ value _ => lambdasIn value
  | .forEach _ iterable body _ => lambdasIn iterable + lambdasInBlock body
  | .whileLoop test body _ => lambdasIn test + lambdasInBlock body
  | .conditional test body other _ =>
      lambdasIn test + lambdasInBlock body + lambdasInAlternative other
  | .returns none _ => 0
  | .returns (some value) _ => lambdasIn value
  | .evaluate value => lambdasIn value

/-- The number of lambdas in an alternative. -/
def lambdasInAlternative : Alternative → Nat
  | .absent => 0
  | .block body => lambdasInBlock body
  | .chain conditional => lambdasInStatement conditional

end

/-- The number of lambdas in the first values of fields. -/
def lambdasInFields (fields : List FieldInfo) : Nat :=
  (fields.map fun field ↦ (field.value.map lambdasIn).getD 0).sum

/-- The number of lambdas in functions. -/
def lambdasInMethods (methods : List MethodInfo) : Nat :=
  (methods.map fun method ↦ lambdasInBlock method.declaration.body).sum

/-- The number of lambdas in types. -/
def lambdasInTypes (types : List TypeInfo) : Nat :=
  (types.map fun type ↦ lambdasInFields type.fields + lambdasInMethods type.methods).sum

/-- The number of lambdas that come before the first value of the first field of a type. Lambdas are
numbered through a file: type by type, the fields of a type before its functions. -/
def lambdasBeforeFields (types : List TypeInfo) (owner : TypeIndex) : Nat :=
  lambdasInTypes (types.take owner)

/-- The number of lambdas that come before a function of a type. -/
def lambdasBeforeMethod (types : List TypeInfo) (owner : TypeIndex) (name : String) : Nat :=
  match types[owner]? with
  | some type =>
      lambdasBeforeFields types owner + lambdasInFields type.fields
        + lambdasInMethods (type.methods.takeWhile fun method ↦ method.name ≠ name)
  | none => 0

/-- The name of the routine of a lambda inside another routine. -/
def lambdaName (routine : String) (number : Nat) : String :=
  routine ++ s!"$lambda{number}"

end GuestScript.Meaning
