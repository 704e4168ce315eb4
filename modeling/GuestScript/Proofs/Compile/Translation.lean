import GuestScript.Machine.Step
import GuestScript.Meaning.Evaluation

/-!
# What code a text is translated to

The code of accepted programs as a relation between the syntax tree and the routines of a linked
image: one rule for each form of expression and statement, with the types that the checker has
agreed to. `ExpressionCode program setting scope number value expected start code` says that `code`
is that of `value` at the position `start` of a routine, where `scope` gives the slots of the
variables in scope, `number` lambdas come before, and the value is wanted for the type `expected`.
The rules for statements also say which variables are in scope afterwards and which slot is the next
free one. `LambdaCode program index code` says that a routine of the image is that of a lambda.
-/

namespace GuestScript

namespace Compile

open Meaning (Site)

/-- What stays the same throughout a body, without the names of slots and routines. -/
def Setting.site (setting : Setting) : Site :=
  ⟨setting.references, setting.types, setting.owner, setting.ownerName, setting.receiver.isSome,
    setting.result⟩

end Compile

namespace Meaning

open Bytecode (Op Routine RoutineIndex)
open Compile
open Machine (Program)
open Syntax

/-- The setting of the body of a lambda, where the copies come in the first slots. -/
def Lambda.setting (code : Lambda) : Setting :=
  { references := code.site.references
    types := code.site.types
    owner := code.site.owner
    ownerName := code.site.ownerName
    routineName := code.name
    receiver := code.copies.findIdx? fun copy ↦ copy.name = Mentions.receiverName
    result := code.site.result }

/-- Variables in slots from one on, the newest first. -/
def inSlots (binders : List (Variable Unit)) (first : Nat) : Scope Nat :=
  (binders.zipIdx first).reverse.map fun (held, slot) ↦ held.hold fun _ ↦ slot

/-- The number of arguments of the routine of a lambda. -/
def Lambda.arity (code : Lambda) : Nat :=
  code.copies.length + code.parameters.length

/-- The slots of the variables that a lambda starts with. -/
def Lambda.scope (code : Lambda) : Scope Nat :=
  inSlots (code.copies ++ code.parameters) 0

/-- A value of this type may be called with so many arguments. -/
def IsCalled : Ty → Nat → Prop
  | .function parameters _, count => count = parameters.length
  | .dyn, _ => True
  | _, _ => False

/-- A value of this type may be indexed. -/
def IsIndexed : Ty → Prop
  | .array _ | .dyn => True
  | _ => False

/-- The routine of a lambda, given the code of its body and the number of its slots. -/
def Lambda.routine (code : Lambda) (body : List Op) (locals : Nat) : Routine :=
  { name := code.name
    owner := some code.site.owner
    visibility := .owner
    binding := .closure code.copies.length
    arity := code.arity
    locals
    code := (body ++ epilogue).toArray }

mutual

/-- The code of an expression. -/
inductive ExpressionCode (program : Program) :
    Setting → Scope Nat → Nat → Expression → Option Ty → Nat → List Op → Prop where
  | int {setting scope number value span expected start} :
      ExpressionCode program setting scope number (.int value span) expected start
        [.push (.int value)]
  | str {setting scope number value span expected start} :
      ExpressionCode program setting scope number (.str value span) expected start
        [.push (.str value)]
  | bool {setting scope number value span expected start} :
      ExpressionCode program setting scope number (.bool value span) expected start
        [.push (.bool value)]
  | array {setting scope number values span expected start code} :
      ItemsCode program setting scope number values (wantedElement expected) start code →
      ExpressionCode program setting scope number (.array values span) expected start
        (code ++ [.makeArray values.length])
  | receiver {setting scope number span expected start slot} :
      setting.receiver = some slot →
      ExpressionCode program setting scope number (.receiver span) expected start [.load slot]
  | path {setting scope number name span expected start held} :
      scope.named? name.name = some held →
      ExpressionCode program setting scope number (.path [name] span) expected start
        [.load held.holder]
  | callVariable {setting scope number segments pathSpan values span expected start held code} :
      callable? setting.site scope segments = some (.value held) →
      IsCalled held.type values.length →
      ArgumentsCode program setting scope number values (calledParameters held.type) none
        (start + 1) code →
      ExpressionCode program setting scope number (.call (.path segments pathSpan) values span)
        expected start ([.load held.holder] ++ code ++ [.callClosure values.length])
  | callStatic {setting scope number segments pathSpan values span expected start owner method
        code} :
      callable? setting.site scope segments = some (.function owner method) →
      method.isStatic = true → values.length = method.parameters.length →
      ArgumentsCode program setting scope number values method.parameters none start code →
      ExpressionCode program setting scope number (.call (.path segments pathSpan) values span)
        expected start (code ++ [.call method.routine values.length])
  | callOwn {setting scope number segments pathSpan values span expected start owner method slot
        code} :
      callable? setting.site scope segments = some (.function owner method) →
      method.isStatic = false → owner = setting.owner → setting.receiver = some slot →
      values.length = method.parameters.length →
      ArgumentsCode program setting scope number values method.parameters none (start + 1) code →
      ExpressionCode program setting scope number (.call (.path segments pathSpan) values span)
        expected start ([.load slot] ++ code ++ [.call method.routine (values.length + 1)])
  | callHost {setting scope number segments pathSpan values span expected start name function
        index code} :
      callable? setting.site scope segments = some (.host name function) →
      program.hosts[index]? = some ⟨name, function.action⟩ →
      values.length = function.parameters.length →
      ArgumentsCode program setting scope number values function.parameters none start code →
      ExpressionCode program setting scope number (.call (.path segments pathSpan) values span)
        expected start (code ++ [.callHost index values.length])
  | callValue {setting scope number callee values span expected start first code} :
      (∀ segments pathSpan, callee ≠ .path segments pathSpan) →
      ExpressionCode program setting scope number callee none start first →
      IsCalled (typeOf setting.site scope.typing callee none) values.length →
      ArgumentsCode program setting scope (number + lambdasIn callee) values
        (calledParameters (typeOf setting.site scope.typing callee none)) none
        (start + first.length) code →
      ExpressionCode program setting scope number (.call callee values span) expected start
        (first ++ code ++ [.callClosure values.length])
  | method {setting scope number target name values span expected start owner method first code} :
      ExpressionCode program setting scope number target none start first →
      methodOn? setting.types (typeOf setting.site scope.typing target none) name.name
        = some (owner, method) →
      method.isStatic = false → values.length = method.parameters.length →
      ArgumentsCode program setting scope (number + lambdasIn target) values method.parameters none
        (start + first.length) code →
      ExpressionCode program setting scope number (.method target name values span) expected start
        (first ++ code ++ [.call method.routine (values.length + 1)])
  | field {setting scope number target name span expected start position type code} :
      ExpressionCode program setting scope number target none start code →
      fieldOn? setting.types (typeOf setting.site scope.typing target none) name.name
        = some (position, type) →
      ExpressionCode program setting scope number (.field target name span) expected start
        (code ++ [.loadField position])
  | element {setting scope number target index span expected start first second} :
      ExpressionCode program setting scope number target none start first →
      IsIndexed (typeOf setting.site scope.typing target none) →
      ExpressionCode program setting scope (number + lambdasIn target) index (some .int)
        (start + first.length) second →
      Ty.int.admits (typeOf setting.site scope.typing index (some .int)) = true →
      ExpressionCode program setting scope number (.element target index span) expected start
        (first ++ second ++ [.index])
  | construct {setting scope number name span expected start type} :
      setting.site.typeNamed? name.name = some type →
      ExpressionCode program setting scope number (.construct name span) expected start
        [.construct type]
  | lambda {setting scope number parameters body span expected start index copies} :
      copies = captures setting.ownerType setting.receiver parameters scope body →
      LambdaCode program index (lambdaCode setting.site setting.routineName (number + 1)
        (Scope.typing copies) parameters body expected) →
      ExpressionCode program setting scope number (.lambda parameters body span) expected start
        (copies.map (fun copy ↦ .load copy.holder) ++ [.makeClosure index copies.length])
  | unary {setting scope number operator operand span expected start code} :
      ExpressionCode program setting scope number operand (some (unaryType operator)) start code →
      (unaryType operator).admits
        (typeOf setting.site scope.typing operand (some (unaryType operator))) = true →
      ExpressionCode program setting scope number (.unary operator operand span) expected start
        (code ++ [.unary operator])
  | and {setting scope number left right span expected start first second} :
      ExpressionCode program setting scope number left (some .bool) start first →
      Ty.bool.admits (typeOf setting.site scope.typing left (some .bool)) = true →
      ExpressionCode program setting scope (number + lambdasIn left) right (some .bool)
        (start + first.length + 1) second →
      Ty.bool.admits (typeOf setting.site scope.typing right (some .bool)) = true →
      ExpressionCode program setting scope number (.binary .and left right span) expected start
        (first ++ [.jumpUnless (start + first.length + second.length + 2)] ++ second
          ++ [.jump (start + first.length + second.length + 2 + 1), .push (.bool false)])
  | or {setting scope number left right span expected start first second} :
      ExpressionCode program setting scope number left (some .bool) start first →
      Ty.bool.admits (typeOf setting.site scope.typing left (some .bool)) = true →
      ExpressionCode program setting scope (number + lambdasIn left) right (some .bool)
        (start + first.length + 3) second →
      Ty.bool.admits (typeOf setting.site scope.typing right (some .bool)) = true →
      ExpressionCode program setting scope number (.binary .or left right span) expected start
        (first ++ [.jumpUnless (start + first.length + 3), .push (.bool true),
          .jump (start + first.length + 3 + second.length)] ++ second)
  | binary {setting scope number operator left right span expected start type first second} :
      operator ≠ .and → operator ≠ .or →
      ExpressionCode program setting scope number left none start first →
      ExpressionCode program setting scope (number + lambdasIn left) right none
        (start + first.length) second →
      binaryType? operator (typeOf setting.site scope.typing left none)
        (typeOf setting.site scope.typing right none) = some type →
      ExpressionCode program setting scope number (.binary operator left right span) expected start
        (first ++ second ++ [.binary operator])

/-- The code of the items of an array, one after the other. -/
inductive ItemsCode (program : Program) :
    Setting → Scope Nat → Nat → List Expression → Option Ty → Nat → List Op → Prop where
  | nil {setting scope number wanted start} :
      ItemsCode program setting scope number [] wanted start []
  | first {setting scope number item rest start code others} :
      ExpressionCode program setting scope number item none start code →
      ItemsCode program setting scope (number + lambdasIn item) rest
        (some (typeOf setting.site scope.typing item none)) (start + code.length) others →
      ItemsCode program setting scope number (item :: rest) none start (code ++ others)
  | cons {setting scope number item rest wanted start code others} :
      ExpressionCode program setting scope number item (some wanted) start code →
      wanted.admits (typeOf setting.site scope.typing item (some wanted)) = true →
      ItemsCode program setting scope (number + lambdasIn item) rest (some wanted)
        (start + code.length) others →
      ItemsCode program setting scope number (item :: rest) (some wanted) start (code ++ others)

/-- The code of arguments, one after the other. -/
inductive ArgumentsCode (program : Program) :
    Setting → Scope Nat → Nat → List Expression → List Ty → Option Ty → Nat → List Op → Prop where
  | nil {setting scope number parameters binding start} :
      ArgumentsCode program setting scope number [] parameters binding start []
  | beyond {setting scope number argument rest binding start code others} :
      ExpressionCode program setting scope number argument none start code →
      ArgumentsCode program setting scope (number + lambdasIn argument) rest [] binding
        (start + code.length) others →
      ArgumentsCode program setting scope number (argument :: rest) [] binding start
        (code ++ others)
  | cons {setting scope number argument rest wanted parameters binding start code others} :
      ExpressionCode program setting scope number argument (some (wanted.substitute binding)) start
        code →
      (wanted.accepts (typeOf setting.site scope.typing argument
        (some (wanted.substitute binding))) binding).1 = true →
      ArgumentsCode program setting scope (number + lambdasIn argument) rest parameters
        (wanted.accepts (typeOf setting.site scope.typing argument
          (some (wanted.substitute binding))) binding).2 (start + code.length) others →
      ArgumentsCode program setting scope number (argument :: rest) (wanted :: parameters) binding
        start (code ++ others)

/-- The routine of a lambda. -/
inductive LambdaCode (program : Program) : RoutineIndex → Lambda → Prop where
  | mk {index code body locals} :
      program.image.routines[index]? = some (code.routine body locals) →
      BodyCode program code.setting code.scope code.arity code.number code.body body locals →
      LambdaCode program index code

/-- The code of the body of a lambda. -/
inductive BodyCode (program : Program) :
    Setting → Scope Nat → Nat → Nat → LambdaBody → List Op → Nat → Prop where
  | expression {setting scope next number value code} :
      ExpressionCode program setting scope number value (some setting.result) 0 code →
      setting.result.admits
        (typeOf setting.site scope.typing value (some setting.result)) = true →
      BodyCode program setting scope next number (.expression value) (code ++ [.ret]) next
  | block {setting scope next number body code after} :
      BlockCode program setting scope next number body 0 code after →
      BodyCode program setting scope next number (.block body) code after

/-- The code of a block. -/
inductive BlockCode (program : Program) :
    Setting → Scope Nat → Nat → Nat → Block → Nat → List Op → Nat → Prop where
  | mk {setting scope next number body span start code inner after} :
      StatementsCode program setting scope next number body start code inner after →
      BlockCode program setting scope next number (.mk body span) start code after

/-- The code of statements, with the variables in scope and the next free slot afterwards. -/
inductive StatementsCode (program : Program) :
    Setting → Scope Nat → Nat → Nat → List Statement → Nat → List Op → Scope Nat → Nat → Prop where
  | nil {setting scope next number start} :
      StatementsCode program setting scope next number [] start [] scope next
  | cons {setting scope next number first rest start code inner middle others outer after} :
      StatementCode program setting scope next number first start code inner middle →
      StatementsCode program setting inner middle (number + lambdasInStatement first) rest
        (start + code.length) others outer after →
      StatementsCode program setting scope next number (first :: rest) start (code ++ others) outer
        after

/-- The code of a statement, with the variables in scope and the next free slot afterwards. -/
inductive StatementCode (program : Program) :
    Setting → Scope Nat → Nat → Nat → Statement → Nat → List Op → Scope Nat → Nat → Prop where
  | declare {setting scope next number name written value span start code} :
      ExpressionCode program setting scope number value (written.map setting.site.meant) start
        code →
      (∀ wanted ∈ written.map setting.site.meant, wanted.admits
        (typeOf setting.site scope.typing value (written.map setting.site.meant)) = true) →
      StatementCode program setting scope next number (.declare name written value span) start
        (code ++ [.store next])
        (⟨name.name, (written.map setting.site.meant).getD
          (typeOf setting.site scope.typing value (written.map setting.site.meant)), next⟩ :: scope)
        (next + 1)
  | assign {setting scope next number name value span start held code} :
      scope.named? name.name = some held →
      ExpressionCode program setting scope number value (some held.type) start code →
      held.type.admits (typeOf setting.site scope.typing value (some held.type)) = true →
      StatementCode program setting scope next number (.assign (.binding name) value span) start
        (code ++ [.store held.holder]) scope next
  | assignField {setting scope next number name value span start slot position type code} :
      setting.receiver = some slot →
      fieldOf? setting.types setting.ownerName.full name.name = some (position, type) →
      ExpressionCode program setting scope number value (some type) (start + 1) code →
      type.admits (typeOf setting.site scope.typing value (some type)) = true →
      StatementCode program setting scope next number (.assign (.field name) value span) start
        ([.load slot] ++ code ++ [.storeField position]) scope next
  | forEach {setting scope next number binding iterable body span start code element inside
        after} :
      ExpressionCode program setting scope number iterable none start code →
      (typeOf setting.site scope.typing iterable none).element? = some element →
      BlockCode program setting (⟨binding.name, element, next + 1⟩ :: scope) (next + 2)
        (number + lambdasIn iterable) body (start + code.length + 2 + 2) inside after →
      StatementCode program setting scope next number (.forEach binding iterable body span) start
        (code ++ [.iterStart, .store next,
            .iterNext next (start + code.length + 2 + inside.length + 3), .store (next + 1)]
          ++ inside ++ [.jump (start + code.length + 2)]) scope after
  | whileLoop {setting scope next number test body span start code inside after} :
      ExpressionCode program setting scope number test (some .bool) start code →
      Ty.bool.admits (typeOf setting.site scope.typing test (some .bool)) = true →
      BlockCode program setting scope next (number + lambdasIn test) body
        (start + code.length + 1) inside after →
      StatementCode program setting scope next number (.whileLoop test body span) start
        (code ++ [.jumpUnless (start + code.length + inside.length + 2)] ++ inside
          ++ [.jump start]) scope after
  | ifTrue {setting scope next number test body span start code inside after} :
      ExpressionCode program setting scope number test (some .bool) start code →
      Ty.bool.admits (typeOf setting.site scope.typing test (some .bool)) = true →
      BlockCode program setting scope next (number + lambdasIn test) body
        (start + code.length + 1) inside after →
      StatementCode program setting scope next number (.conditional test body .absent span) start
        (code ++ [.jumpUnless (start + code.length + inside.length + 1)] ++ inside) scope after
  | ifElse {setting scope next number test body other span start code inside middle instead
        after} :
      other ≠ .absent →
      ExpressionCode program setting scope number test (some .bool) start code →
      Ty.bool.admits (typeOf setting.site scope.typing test (some .bool)) = true →
      BlockCode program setting scope next (number + lambdasIn test) body
        (start + code.length + 1) inside middle →
      AlternativeCode program setting scope middle
        (number + lambdasIn test + lambdasInBlock body) other
        (start + code.length + inside.length + 2) instead after →
      StatementCode program setting scope next number (.conditional test body other span) start
        (code ++ [.jumpUnless (start + code.length + inside.length + 2)] ++ inside
          ++ [.jump (start + code.length + inside.length + 2 + instead.length)] ++ instead)
        scope after
  | returnNothing {setting scope next number span start} :
      returnsNothing setting.result = true →
      StatementCode program setting scope next number (.returns none span) start
        [.push .unit, .ret] scope next
  | returnValue {setting scope next number value span start code} :
      ExpressionCode program setting scope number value (some setting.result) start code →
      setting.result.admits
        (typeOf setting.site scope.typing value (some setting.result)) = true →
      StatementCode program setting scope next number (.returns (some value) span) start
        (code ++ [.ret]) scope next
  | evaluate {setting scope next number value start code} :
      ExpressionCode program setting scope number value none start code →
      StatementCode program setting scope next number (.evaluate value) start (code ++ [.pop])
        scope next

/-- The code of an alternative. Only a conditional or a block can be one. -/
inductive AlternativeCode (program : Program) :
    Setting → Scope Nat → Nat → Nat → Alternative → Nat → List Op → Nat → Prop where
  | block {setting scope next number body start code after} :
      BlockCode program setting scope next number body start code after →
      AlternativeCode program setting scope next number (.block body) start code after
  | chain {setting scope next number conditional start code after} :
      StatementCode program setting scope next number conditional start code scope after →
      AlternativeCode program setting scope next number (.chain conditional) start code after

end

/-- A routine is that of a lambda in one of these types, in a unit that may use these modules. -/
def IsLambda (program : Program) (references : ReferenceSet) (types : List TypeInfo)
    (index : RoutineIndex) : Prop :=
  ∃ code : Lambda, LambdaCode program index code ∧ code.site.references = references ∧
    code.site.types = types ∧ code.site.owner < types.length

/-! ## Routines of types -/

/-- The setting of the routines of a type. -/
def settingOf (references : ReferenceSet) (types : List TypeInfo) (owner : Bytecode.TypeIndex)
    (info : TypeInfo) : Setting :=
  { references
    types
    owner
    ownerName := info.name
    routineName := initializerName
    receiver := none
    result := .unit }

/-- The parameters of a function with their types. -/
def parametersOf (method : MethodInfo) : List (Variable Unit) :=
  declared (method.declaration.parameters.map Syntax.Parameter.name) method.parameters

/-- The routine of a function of a type, with so many lambdas before it. -/
inductive MethodCode (program : Program) (references : ReferenceSet) (types : List TypeInfo)
    (owner : Bytecode.TypeIndex) (info : TypeInfo) (number : Nat) (method : MethodInfo) :
    Prop where
  | mk {code : List Op} {locals : Nat} :
      program.image.routines[method.routine]? = some
        { routineOf owner method.declaration method.parameters with
          code := (code ++ epilogue).toArray, locals } →
      method.declaration.parameters.length = method.parameters.length →
      (returnsNothing method.result || blockReturns method.declaration.body) = true →
      BlockCode program
        { settingOf references types owner info with
          routineName := method.name
          result := method.result
          receiver := if method.isStatic then none else some 0 }
        (inSlots (parametersOf method) (if method.isStatic then 0 else 1))
        (method.parameters.length + if method.isStatic then 0 else 1)
        number method.declaration.body 0 code locals →
      MethodCode program references types owner info number method

/-- The code that gives fields their first values, from a position of a field on. -/
inductive FieldsCode (program : Program) (setting : Setting) :
    Nat → List FieldInfo → Nat → Nat → List Op → Prop where
  | nil {number position start} : FieldsCode program setting number [] position start []
  | given {number field rest position start value code others} :
      field.value = some value →
      ExpressionCode program setting [] number value (some field.type) (start + 1) code →
      field.type.admits (typeOf setting.site [] value (some field.type)) = true →
      FieldsCode program setting (number + lambdasIn value) rest (position + 1)
        (start + code.length + 2) others →
      FieldsCode program setting number (field :: rest) position start
        ([.load 0] ++ code ++ [.storeField position] ++ others)
  | default {number field rest position start others} :
      field.value = none →
      FieldsCode program setting number rest (position + 1) (start + 3) others →
      FieldsCode program setting number (field :: rest) position start
        ([.load 0, defaultValue field.type, .storeField position] ++ others)

/-- The routine that gives the fields of a type their first values, with so many lambdas before
it. -/
inductive InitializerCode (program : Program) (references : ReferenceSet) (types : List TypeInfo)
    (owner : Bytecode.TypeIndex) (info : TypeInfo) (number : Nat) (index : RoutineIndex) :
    Prop where
  | mk {code : List Op} :
      program.image.routines[index]? = some
        { name := initializerName
          owner := some owner
          visibility := .owner
          binding := .onInstance
          arity := 1
          locals := 1
          code := (code ++ epilogue).toArray } →
      FieldsCode program { settingOf references types owner info with receiver := some 0 }
        number info.fields 0 0 code →
      InitializerCode program references types owner info number index

/-- A routine of a program is that of a function or for the fields of one of these types, or that of
a lambda. -/
inductive RoutineCode (program : Program) (references : ReferenceSet) (types : List TypeInfo)
    (index : RoutineIndex) : Prop where
  | method {owner : Bytecode.TypeIndex} {info : TypeInfo} {method : MethodInfo} {number : Nat} :
      types[owner]? = some info → method ∈ info.methods → method.routine = index →
      MethodCode program references types owner info number method →
      RoutineCode program references types index
  | initializer {owner : Bytecode.TypeIndex} {info : TypeInfo} {number : Nat} :
      types[owner]? = some info →
      InitializerCode program references types owner info number index →
      RoutineCode program references types index
  | lambda : IsLambda program references types index → RoutineCode program references types index

/-- The definition of a type in an image, with the routines of the type. -/
structure TypeCode (program : Program) (references : ReferenceSet) (types : List TypeInfo)
    (owner : Bytecode.TypeIndex) (info : TypeInfo) (definition : Bytecode.TypeDefinition) :
    Prop where
  name : definition.fullName = info.name.full
  fields : definition.fields = info.fields.map FieldInfo.name
  methods : definition.methods = info.methods.map MethodInfo.routine
  method : ∀ method ∈ info.methods, MethodCode program references types owner info
    (lambdasBeforeMethod types owner method.name) method
  initializer : match definition.initializer with
    | none => info.fields = []
    | some index => info.fields ≠ [] ∧ InitializerCode program references types owner info
        (lambdasBeforeFields types owner) index

/-- A program is the translation of these types. -/
structure TypesCode (program : Program) (references : ReferenceSet) (types : List TypeInfo) :
    Prop where
  size : program.image.types.size = types.length
  type : ∀ {owner : Bytecode.TypeIndex} {info : TypeInfo}, types[owner]? = some info →
    ∃ definition, program.image.types[owner]? = some definition ∧
      TypeCode program references types owner info definition

end Meaning

end GuestScript
