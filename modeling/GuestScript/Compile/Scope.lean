import GuestScript.Compile.Declarations

/-!
# Bodies under construction

While a body is compiled, a `Body` holds the draft, the local variables in scope and the next free
slot. Every variable gets a slot of its own that is never used again. Reading a variable marks it as
used; a variable of a `let` that goes out of scope unused is worth a warning, unless its name starts
with an underscore.
-/

namespace GuestScript.Compile

open Bytecode (Op TypeIndex)

/-- A local variable. `lint` is where to point if it is never used, for those where it matters. -/
structure Local where
  name : String
  slot : Nat
  type : Ty
  used : Bool
  lint : Option Span

/-- The state while a body is compiled; the innermost scope and the newest variable come first. -/
structure Body where
  draft : Draft
  scopes : List (List Local)
  nextSlot : Nat

/-- An action that compiles a part of a body. -/
abbrev Lowering (Value : Type) := StateM Body Value

/-- What stays the same throughout a body: the modules and types it may use, the type it belongs to,
its name, the slot of the receiver if there is one, and the type it returns. -/
structure Setting where
  references : ReferenceSet
  types : List TypeInfo
  owner : TypeIndex
  ownerName : TypeName
  routineName : String
  receiver : Option Nat
  result : Ty

/-- The type of the receiver. -/
def Setting.ownerType (setting : Setting) : Ty :=
  .object setting.ownerName.full

namespace Lowering

/-- Do something to the draft. -/
def onDraft {Value : Type} (action : Drafting Value) : Lowering Value := fun body ↦
  let (value, draft) := action body.draft
  (value, { body with draft })

/-- Add an error. -/
def report (code : Code) (message : String) (span : Span) : Lowering Unit :=
  onDraft (Draft.report code message span)

/-- Add an error, and give the type of an expression with a mistake. -/
def mistake (code : Code) (message : String) (span : Span) : Lowering Ty := do
  report code message span
  pure .poison

/-- Report a value whose type may not stand where another is required. -/
def check (expected actual : Ty) (span : Span) : Lowering Unit :=
  if expected.admits actual then pure ()
  else report .typeMismatch ("expected " ++ expected.text ++ ", found " ++ actual.text) span

/-- The type that a written type means in a body. -/
def resolve (setting : Setting) (type : Syntax.TypeExpression) : Lowering Ty :=
  onDraft (resolveType setting.references (setting.types.map TypeInfo.name)
    setting.ownerName.namespaceName type)

/-- Take the next free slot. -/
def allocate : Lowering Nat := do
  let body ← get
  set { body with nextSlot := body.nextSlot + 1 }
  pure body.nextSlot

/-- Bring a variable into the innermost scope. -/
def declareLocal (name : String) (type : Ty) (lint : Option Span) : Lowering Nat := do
  let slot ← allocate
  modify fun body ↦
    match body.scopes with
    | [] => body
    | scope :: outer => { body with scopes := (⟨name, slot, type, false, lint⟩ :: scope) :: outer }
  pure slot

/-- Bring a parameter into scope. Two parameters of one name are reported. -/
def declareParameter (name : Syntax.Identifier) (type : Ty) : Lowering Unit := do
  let taken := match (← get).scopes with
    | [] => false
    | scope :: _ => scope.any fun present ↦ present.name = name.name
  if taken then
    report .duplicateDefinition ("parameter `" ++ name.name ++ "` is declared more than once")
      name.span
  let _ ← declareLocal name.name type none

/-- The innermost variable of a name in one scope. -/
def findIn (name : String) (scope : List Local) : Option Local :=
  scope.find? fun candidate ↦ candidate.name = name

/-- Mark the innermost variable of a name in one scope as used. -/
def markIn (name : String) : List Local → List Local
  | [] => []
  | first :: rest =>
      if first.name = name then { first with used := true } :: rest else first :: markIn name rest

/-- The innermost variable of a name, and the scopes with it marked as used. -/
def findAndMark (name : String) : List (List Local) → Option (Local × List (List Local))
  | [] => none
  | scope :: outer =>
      match findIn name scope with
      | some found => some (found, markIn name scope :: outer)
      | none =>
          match findAndMark name outer with
          | some (found, outer) => some (found, scope :: outer)
          | none => none

/-- The innermost variable of a name, which counts as used from now on. -/
def lookup (name : String) : Lowering (Option Local) := do
  let body ← get
  match findAndMark name body.scopes with
  | some (found, scopes) =>
      set { body with scopes }
      pure (some found)
  | none => pure none

/-- The innermost variable of a name, for an assignment, which is no use of it. -/
def lookupTarget (name : String) : Lowering (Option Local) := do
  pure ((← get).scopes.findSome? (findIn name))

/-- Start a scope. -/
def openScope : Lowering Unit :=
  modify fun body ↦ { body with scopes := [] :: body.scopes }

/-- The warning that a variable is worth when it goes out of scope. -/
def unusedWarning? (candidate : Local) : Option (Diagnostic Span) :=
  match candidate.lint with
  | none => none
  | some span =>
      if candidate.used || candidate.name.toList.head? = some '_' then none
      else some (.warning .unusedLocal ("unused local `" ++ candidate.name ++ "`") span)

/-- End the innermost scope, and warn of its unused variables in the order of their declaration. -/
def closeScope : Lowering Unit :=
  modify fun body ↦
    match body.scopes with
    | [] => body
    | scope :: outer =>
        let warnings := scope.filterMap unusedWarning?
        { body with
          scopes := outer
          draft := { body.draft with findings := warnings ++ body.draft.findings } }

/-- Compile a routine on its own, with scopes and slots that are empty at first. The number of slots
it took comes with the result. -/
def alone {Value : Type} (action : Lowering Value) : Drafting (Value × Nat) := fun draft ↦
  let (value, body) := action ⟨draft, [[]], 0⟩
  ((value, body.nextSlot), body.draft)

/-- Add a routine. Its code is made of what compiling it gives. -/
def addRoutine {Value : Type} (routine : Bytecode.Routine) (code : Value → List Op)
    (action : Lowering Value) : Drafting (Bytecode.RoutineIndex × Value) := do
  let index ← Draft.reserve routine
  let (value, locals) ← alone action
  Draft.complete index (code value) locals
  pure (index, value)

end Lowering

end GuestScript.Compile
