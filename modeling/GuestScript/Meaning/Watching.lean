import GuestScript.Compile.Unit

/-!
# Watching the types of a compilation

A `Watch` is told every type that the compilation of a file computes and every comparison of types
that it makes, at the time it does so, and may do something to the draft then.
`Watch.compileFile` is the compilation under a watch. It takes the same steps as `compileFile`, and
hands the watch the types of fields, parameters and results as they are declared, of every
expression when its code has been made, and of the variables in scope before and after every
statement. So a watch that would do something at certain types in certain states does nothing
exactly if such types never come up then.

An expression that is wanted for a type is compared with that type.
-/

namespace GuestScript

namespace Compile

open Bytecode (Op Routine RoutineIndex TypeDefinition TypeIndex)
open Lowering
open Syntax

/-- What is done about a type that has been computed, and about a comparison of the type that is
required with the one that is there, under a binding of the open type. -/
structure Watch where
  computed : Ty → Drafting Unit
  compared : Ty → Ty → Option Ty → Drafting Unit

namespace Watch

variable (watch : Watch)

/-! ## Telling the watch -/

/-- Tell the watch types that have been computed. -/
def tell : List Ty → Drafting Unit
  | [] => pure ()
  | first :: rest => do
      watch.computed first
      tell rest

/-- Tell the watch the types of the variables in scope. -/
def tellLocals : Lowering Unit := do
  let body ← get
  onDraft (watch.tell (body.scopes.flatten.map Local.type))

/-- Tell the watch the type of an expression, and that it is compared with the wanted one. -/
def seen (wanted : Option Ty) (value : Lowering Typed) : Lowering Typed := do
  let typed ← value
  onDraft (watch.computed typed.type)
  match wanted with
  | some wanted => onDraft (watch.compared wanted typed.type none)
  | none => pure ()
  pure typed

/-- The type that a written type means, which the watch is told. -/
def meaning (references : ReferenceSet) (names : List TypeName) (namespaceName : String)
    (written : TypeExpression) : Drafting Ty := do
  let type ← resolveType references names namespaceName written
  watch.computed type
  pure type

/-- The type that a written type means in a body, which the watch is told. -/
def resolve (setting : Setting) (written : TypeExpression) : Lowering Ty :=
  onDraft (watch.meaning setting.references (setting.types.map TypeInfo.name)
    setting.ownerName.namespaceName written)

/-! ## Bodies -/

/-- A binary operator. The types of the two sides of an equation are compared both ways. -/
def binaryValue (operator : BinaryOperator) (left right : Pending) (span : Span) (start : Nat) :
    Lowering Typed :=
  match operator with
  | .equal | .unequal => do
      let first ← left none start
      let second ← right none (start + first.code.length)
      onDraft (watch.compared first.type second.type none)
      onDraft (watch.compared second.type first.type none)
      let code := first.code ++ second.code ++ [.binary operator]
      strictOperator operator code first.type second.type span
  | other => Compile.binaryValue other left right span start

mutual

/-- The code of an expression. -/
def expression (setting : Setting) : Expression → Pending
  | .int value _, wanted, _ => watch.seen wanted do
      pure ⟨[.push (.int value)], .int⟩
  | .str value _, wanted, _ => watch.seen wanted do
      pure ⟨[.push (.str value)], .str⟩
  | .bool value _, wanted, _ => watch.seen wanted do
      pure ⟨[.push (.bool value)], .bool⟩
  | .array values _, wanted, start => watch.seen wanted do
      let (code, element) ← items setting values (wantedElement wanted) [] start
      pure ⟨code ++ [.makeArray values.length], .array (element.getD .dyn)⟩
  | .receiver span, wanted, _ => watch.seen wanted (receiverValue setting span)
  | .path segments span, wanted, _ => watch.seen wanted (pathValue segments span)
  | .call callee values span, wanted, start => watch.seen wanted <|
      match callee with
      | .path segments calleeSpan =>
          callNamed setting segments calleeSpan (arguments setting values) values.length span start
      | other => do
          let typed ← expression setting other none start
          callValue typed (arguments setting values) values.length "expression" span start
  | .method target name values span, wanted, start => watch.seen wanted do
      let typed ← expression setting target none start
      callOnTarget setting typed name (arguments setting values) values.length span start
  | .field target name _, wanted, start => watch.seen wanted do
      let typed ← expression setting target none start
      fieldValue setting typed name
  | .element target index _, wanted, start => watch.seen wanted do
      let typed ← expression setting target none start
      let position ← expression setting index (some .int) (start + typed.code.length)
      check .int position.type index.span
      let type ← itemType typed.type target.span
      pure ⟨typed.code ++ position.code ++ [.index], type⟩
  | .construct name _, wanted, _ => watch.seen wanted (newObject setting name)
  | .lambda parameters body _, wanted, _ => watch.seen wanted <|
      lambdaValue setting parameters (Mentions.inLambda [] body)
        (fun inner ↦ lambdaBody inner body) wanted
  | .unary operator operand span, wanted, start => watch.seen wanted do
      let typed ← expression setting operand (some (unaryType operator)) start
      unaryValue operator typed span
  | .binary operator left right span, wanted, start => watch.seen wanted <|
      watch.binaryValue operator (expression setting left) (expression setting right) span start

/-- The code of the items of an array, and the type of the items. -/
def items (setting : Setting) :
    List Expression → Option Ty → List Op → Nat → Lowering (List Op × Option Ty)
  | [], element, before, _ => pure (before.reverse, element)
  | item :: rest, element, before, start => do
      let typed ← expression setting item element start
      let element ← checkedType element typed.type item.span
      items setting rest (some element) (typed.code.reverse ++ before)
        (start + typed.code.length)

/-- The code of arguments. The watch is told the binding under which each of them is compared. -/
def arguments (setting : Setting) : List Expression → PendingArguments
  | [], _, _, _, bound, before, _ => pure (before.reverse, bound)
  | argument :: rest, [], callee, number, bound, before, start => do
      let typed ← expression setting argument none start
      arguments setting rest [] callee (number + 1) bound (typed.code.reverse ++ before)
        (start + typed.code.length)
  | argument :: rest, wanted :: others, callee, number, bound, before, start => do
      let typed ← expression setting argument (some (wanted.substitute bound)) start
      onDraft (watch.compared wanted typed.type bound)
      let (accepted, bound) := wanted.accepts typed.type bound
      checkArgument accepted number callee (wanted.substitute bound) typed.type argument.span
      arguments setting rest others callee (number + 1) bound (typed.code.reverse ++ before)
        (start + typed.code.length)

/-- The code of the body of a lambda, and the type of its result. -/
def lambdaBody (setting : Setting) : LambdaBody → Lowering Typed
  | .expression value => do
      watch.tellLocals
      onDraft (watch.computed setting.result)
      let typed ← expression setting value (some setting.result) 0
      check setting.result typed.type value.span
      let type := if setting.result.isDyn then typed.type else setting.result
      pure ⟨typed.code ++ [.ret], type⟩
  | .block body => do
      onDraft (watch.computed setting.result)
      pure ⟨← block setting body 0, setting.result⟩

/-- The code of a block. -/
def block (setting : Setting) : Block → Nat → Lowering (List Op)
  | .mk body _, start => do
      openScope
      let code ← statements setting body [] start
      closeScope
      pure code

/-- The code of statements. The watch is told the variables that each of them leaves in scope. -/
def statements (setting : Setting) : List Statement → List Op → Nat → Lowering (List Op)
  | [], before, _ => do
      watch.tellLocals
      pure before.reverse
  | first :: rest, before, start => do
      watch.tellLocals
      let code ← statement setting first start
      statements setting rest (code.reverse ++ before) (start + code.length)

/-- The code of a statement. -/
def statement (setting : Setting) : Statement → Nat → Lowering (List Op)
  | .declare name type value _, start => do
      let declared ← match type with
        | some written => do pure (some (← watch.resolve setting written))
        | none => pure none
      let typed ← expression setting value declared start
      declareValue name declared typed value.span
  | .assign (.binding name) value _, start =>
      assignVariable name (expression setting value) value.span start
  | .assign (.field name) value span, start =>
      assignField setting name (expression setting value) value.span span start
  | .forEach binding iterable body _, start =>
      forEachLoop binding (expression setting iterable) iterable.span (block setting body) start
  | .whileLoop test body _, start =>
      whileTrue (condition (expression setting test) test.span) (block setting body) start
  | .conditional test body .absent _, start =>
      ifTrue (condition (expression setting test) test.span) (block setting body) start
  | .conditional test body other _, start =>
      ifElse (condition (expression setting test) test.span) (block setting body)
        (alternative setting other) start
  | .returns none span, _ => returnNothing setting span
  | .returns (some value) _, start =>
      returnValue setting (expression setting value) value.span start
  | .evaluate value, start => discard (expression setting value) value.span start

/-- The code of an alternative. -/
def alternative (setting : Setting) : Alternative → Nat → Lowering (List Op)
  | .absent, _ => pure []
  | .block body, start => block setting body start
  | .chain conditional, start => statement setting conditional start

end

/-! ## Routines -/

/-- The code of the first value of a field. -/
def firstValueCode (setting : Setting) (field : FieldInfo) (start : Nat) : Lowering (List Op) :=
  match field.value with
  | some value => do
      let typed ← watch.expression setting value (some field.type) start
      check field.type typed.type value.span
      pure typed.code
  | none => pure [defaultValue field.type]

/-- The code that gives fields their first values, from a position of a field on. -/
def initializeFields (setting : Setting) (receiver : Nat) :
    List FieldInfo → Nat → List Op → Nat → Lowering (List Op)
  | [], _, before, _ => pure before.reverse
  | field :: rest, position, before, start => do
      let value ← watch.firstValueCode setting field (start + 1)
      let code := [.load receiver] ++ value ++ [.storeField position]
      initializeFields setting receiver rest (position + 1) (code.reverse ++ before)
        (start + code.length)

/-- The inside of the routine that gives the fields of a type their first values. -/
def initializerInside (setting : Setting) (fields : List FieldInfo) : Lowering (List Op) := do
  let receiver ← allocate
  watch.initializeFields { setting with receiver := some receiver } receiver fields 0 [] 0

/-- The inside of the routine of a function. -/
def methodInside (setting : Setting) (method : MethodInfo) : Lowering (List Op) := do
  let receiver ←
    if method.isStatic then pure none
    else do pure (some (← allocate))
  let names := method.declaration.parameters.map Syntax.Parameter.name
  declareParameters (names.zip method.parameters)
  watch.block { setting with receiver } method.declaration.body 0

/-- Compile the routine that gives the fields of a type their first values, if it has fields. -/
def defineInitializer (setting : Setting) (fields : List FieldInfo) :
    Drafting (Option RoutineIndex) := do
  if fields.isEmpty then pure none
  else
    let (index, _) ← addRoutine (initializerRoutine setting.owner) (fun code ↦ code ++ epilogue)
      (watch.initializerInside setting fields)
    pure (some index)

/-- Compile a function of a type. -/
def defineMethod (setting : Setting) (method : MethodInfo) : Drafting Unit := do
  let (code, locals) ← alone (watch.methodInside setting method)
  checkReturns method
  Draft.complete method.routine (code ++ epilogue) locals

/-- Compile functions of a type. -/
def defineMethods (setting : Setting) : List MethodInfo → Drafting Unit
  | [] => pure ()
  | method :: rest => do
      watch.defineMethod { setting with routineName := method.name, result := method.result } method
      defineMethods setting rest

/-- Compile the routines of a type. -/
def defineType (references : ReferenceSet) (types : List TypeInfo) (owner : TypeIndex)
    (info : TypeInfo) : Drafting TypeDefinition := do
  let setting : Setting :=
    { references
      types
      owner
      ownerName := info.name
      routineName := initializerName
      receiver := none
      result := .unit }
  let initializer ← watch.defineInitializer setting info.fields
  watch.defineMethods setting info.methods
  pure
    { namespaceName := info.name.namespaceName
      name := info.name.name
      fields := info.fields.map FieldInfo.name
      initializer
      methods := info.methods.map MethodInfo.routine }

/-- Compile the routines of types, from a position on. -/
def defineTypes (references : ReferenceSet) (types : List TypeInfo) (owner : TypeIndex) :
    List TypeInfo → Drafting (List TypeDefinition)
  | [] => pure []
  | info :: rest => do
      let definition ← watch.defineType references types owner info
      pure (definition :: (← defineTypes references types (owner + 1) rest))

/-! ## Units -/

/-- The members of the accepted types, from a position on. -/
def acceptMembers (references : ReferenceSet) (names : List TypeName) (index : TypeIndex) :
    List TypeDeclaration → Drafting (List TypeInfo)
  | [] => pure []
  | declaration :: rest => do
      let name := nameOf declaration
      let resolve := watch.meaning references names name.namespaceName
      let fields ← acceptFields resolve [] declaration.fields
      let methods ← acceptFunctions resolve index name.full [] declaration.functions
      pure (⟨name, fields, methods⟩ :: (← acceptMembers references names (index + 1) rest))

/-- The types of a file. -/
def declare (references : ReferenceSet) (file : File) : Drafting (List TypeInfo) := do
  let accepted ← acceptTypes [] file.types
  let declarations := accepted.reverse
  watch.acceptMembers references (declarations.map nameOf) 0 declarations

/-- Compile the declarations, the bodies and the entry of a file. -/
def compileFile (references : ReferenceSet) (kind : OutputKind) (file : File) :
    Drafting (List TypeDefinition × Option (EntryPoint × RoutineIndex)) := do
  let types ← watch.declare references file
  let definitions ← watch.defineTypes references types 0 types
  let entry ← match kind with
    | .executable => selectEntry types
    | .library => pure none
  pure (definitions, entry)

end Watch

end Compile

end GuestScript
