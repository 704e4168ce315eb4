import GuestScript.Compile.Lower

/-!
# Compiling a unit

A file is compiled to an image: its declarations first, then type by type the routine that gives
the fields their first values and the bodies of the functions, and at last the choice of the entry.
The findings come in the order in which they were made.
-/

namespace GuestScript.Compile

open Bytecode (Image Op Routine RoutineIndex TypeDefinition TypeIndex)
open Lowering
open Syntax (Alternative Block File Statement)

/-- How an entry is called: without an instance, or on a new one. -/
inductive EntryBinding where
  | static
  | onInstance
  deriving DecidableEq

/-- The written form of an entry binding. -/
def EntryBinding.text : EntryBinding → String
  | .static => "Static"
  | .onInstance => "Instance"

/-- The routine to start a program with, by its names in the source. -/
structure EntryPoint where
  namespaceName : String
  typeName : String
  method : String
  binding : EntryBinding
  deriving DecidableEq

/-- The full name of the type of an entry. -/
def EntryPoint.fullTypeName (entry : EntryPoint) : String :=
  Bytecode.qualifiedName entry.namespaceName entry.typeName

/-- What a unit is compiled to: a program to start, or a library. -/
inductive OutputKind where
  | executable
  | library
  deriving DecidableEq

/-! ## Returning on every path -/

mutual

/-- Whether a block returns on every path that is easily seen: a loop may not run at all. -/
def blockReturns : Block → Bool
  | .mk statements _ => anyReturns statements

/-- Whether one of these statements returns on every path. -/
def anyReturns : List Statement → Bool
  | [] => false
  | first :: rest => statementReturns first || anyReturns rest

/-- Whether a statement returns on every path. -/
def statementReturns : Statement → Bool
  | .returns .. => true
  | .conditional _ body alternative _ => blockReturns body && alternativeReturns alternative
  | _ => false

/-- Whether an alternative returns on every path. -/
def alternativeReturns : Alternative → Bool
  | .absent => false
  | .block body => blockReturns body
  | .chain conditional => statementReturns conditional

end

/-! ## Routines -/

/-- The code that a field without an expression gets its first value from. -/
def defaultValue : Ty → Op
  | .int => .push (.int 0)
  | .bool => .push (.bool false)
  | .str => .push (.str "")
  | .array _ => .makeArray 0
  | _ => .push .unit

/-- The code of the first value of a field. -/
def firstValueCode (setting : Setting) (field : FieldInfo) (start : Nat) : Lowering (List Op) :=
  match field.value with
  | some value => do
      let typed ← expression setting value (some field.type) start
      check field.type typed.type value.span
      pure typed.code
  | none => pure [defaultValue field.type]

/-- The code that gives fields their first values, from a position of a field on. -/
def initializeFields (setting : Setting) (receiver : Nat) :
    List FieldInfo → Nat → List Op → Nat → Lowering (List Op)
  | [], _, before, _ => pure before.reverse
  | field :: rest, position, before, start => do
      let value ← firstValueCode setting field (start + 1)
      let code := [.load receiver] ++ value ++ [.storeField position]
      initializeFields setting receiver rest (position + 1) (code.reverse ++ before)
        (start + code.length)

/-- The inside of the routine that gives the fields of a type their first values. -/
def initializerInside (setting : Setting) (fields : List FieldInfo) : Lowering (List Op) := do
  let receiver ← allocate
  initializeFields { setting with receiver := some receiver } receiver fields 0 [] 0

/-- The inside of the routine of a function. -/
def methodInside (setting : Setting) (method : MethodInfo) : Lowering (List Op) := do
  let receiver ←
    if method.isStatic then pure none
    else do pure (some (← allocate))
  let names := method.declaration.parameters.map Syntax.Parameter.name
  declareParameters (names.zip method.parameters)
  block { setting with receiver } method.declaration.body 0

/-- The name of the routine that gives fields their first values. -/
def initializerName : String := "<init>"

/-- The routine that gives the fields of a type their first values, without its code. -/
def initializerRoutine (owner : TypeIndex) : Routine :=
  { name := initializerName
    owner := some owner
    visibility := .owner
    binding := .onInstance
    arity := 1
    locals := 1
    code := #[] }

/-- Compile the routine that gives the fields of a type their first values, if it has fields. -/
def defineInitializer (setting : Setting) (fields : List FieldInfo) :
    Drafting (Option RoutineIndex) := do
  if fields.isEmpty then pure none
  else
    let (index, _) ← addRoutine (initializerRoutine setting.owner) (fun code ↦ code ++ epilogue)
      (initializerInside setting fields)
    pure (some index)

/-- Report a function that has to return a value and may not do so on every path. -/
def checkReturns (method : MethodInfo) : Drafting Unit := do
  if !returnsNothing method.result && !blockReturns method.declaration.body then
    Draft.report .missingReturn
      ("`" ++ method.name ++ "` must return a value of type " ++ method.result.text
        ++ " on every path") method.span

/-- Compile a function of a type. -/
def defineMethod (setting : Setting) (method : MethodInfo) : Drafting Unit := do
  let (code, locals) ← alone (methodInside setting method)
  checkReturns method
  Draft.complete method.routine (code ++ epilogue) locals

/-- Compile functions of a type. -/
def defineMethods (setting : Setting) : List MethodInfo → Drafting Unit
  | [] => pure ()
  | method :: rest => do
      defineMethod { setting with routineName := method.name, result := method.result } method
      defineMethods setting rest

/-- Compile the routines of a type. -/
def defineType (references : ReferenceSet) (types : List TypeInfo) (owner : TypeIndex)
    (info : TypeInfo) : Drafting TypeDefinition := do
  let setting : Setting :=
    { references
      types
      owner
      ownerName := info.name
      routineName := initializerName
      receiver := none
      result := .unit }
  let initializer ← defineInitializer setting info.fields
  defineMethods setting info.methods
  pure
    { namespaceName := info.name.namespaceName
      name := info.name.name
      fields := info.fields.map FieldInfo.name
      initializer
      methods := info.methods.map MethodInfo.routine }

/-- Compile the routines of types, from a position on. -/
def defineTypes (references : ReferenceSet) (types : List TypeInfo) (owner : TypeIndex) :
    List TypeInfo → Drafting (List TypeDefinition)
  | [] => pure []
  | info :: rest => do
      let definition ← defineType references types owner info
      pure (definition :: (← defineTypes references types (owner + 1) rest))

/-! ## The entry -/

/-- The name of the function that a program starts with. -/
def entryName : String := "main"

/-- The functions that have the name of the entry, with their types. -/
def entryCandidates (types : List TypeInfo) : List (TypeInfo × MethodInfo) :=
  types.flatMap fun type ↦
    (type.methods.filter fun method ↦ method.name = entryName).map fun method ↦ (type, method)

/-- Whether a function has the signature of an entry: it takes the arguments of the program and
returns nothing or an exit value. -/
def hasEntrySignature (method : MethodInfo) : Bool :=
  method.parameters = [.array .str] && (method.result = .unit || method.result = .int)

/-- The entry that a function is. -/
def entryOf (type : TypeInfo) (method : MethodInfo) : EntryPoint :=
  { namespaceName := type.name.namespaceName
    typeName := type.name.name
    method := method.name
    binding := if method.isStatic then .static else .onInstance }

/-- Report each of several entries. -/
def reportEntries (count : Nat) : List (TypeInfo × MethodInfo) → Drafting Unit
  | [] => pure ()
  | (type, method) :: rest => do
      Draft.report .multipleEntryPoints
        ("`" ++ type.name.full ++ "." ++ entryName ++ s!"` is one of {count} entry points")
        method.span
      reportEntries count rest

/-- Choose the entry: the only function of its name, if the signature is right. -/
def selectEntry (types : List TypeInfo) : Drafting (Option (EntryPoint × RoutineIndex)) := do
  match entryCandidates types with
  | [] => do
      Draft.note ⟨.error, .noEntryPoint,
        "no entry point: define `" ++ entryName ++ "(args: [str])` on a type", none, false⟩
      pure none
  | [(type, method)] =>
      if hasEntrySignature method then pure (some (entryOf type method, method.routine))
      else do
        let found := Ty.function method.parameters method.result
        Draft.report .entrySignature
          ("`" ++ type.name.full ++ "." ++ entryName
            ++ "` must have type fn([str]) -> unit or fn([str]) -> int, found " ++ found.text)
          method.span
        pure none
  | many => do
      reportEntries many.length many
      pure none

/-! ## Units -/

/-- What a file is compiled to. The image is of use only if no finding is an error. -/
structure CompiledUnit where
  image : Image
  entry : Option EntryPoint
  findings : List (Diagnostic Span)

/-- Compile the declarations, the bodies and the entry of a file. -/
def compileFile (references : ReferenceSet) (kind : OutputKind) (file : File) :
    Drafting (List TypeDefinition × Option (EntryPoint × RoutineIndex)) := do
  let types ← declare references file
  let definitions ← defineTypes references types 0 types
  let entry ← match kind with
    | .executable => selectEntry types
    | .library => pure none
  pure (definitions, entry)

/-- Compile a file to an image of a given name. -/
def compileUnit (references : ReferenceSet) (kind : OutputKind) (unitName : String)
    (file : File) : CompiledUnit :=
  let ((definitions, entry), draft) := compileFile references kind file .empty
  { image :=
      { name := unitName
        imports := draft.imports
        types := definitions.toArray
        routines := draft.routines
        entry := entry.map Prod.snd }
    entry := entry.map Prod.fst
    findings := draft.findings.reverse }

end GuestScript.Compile
