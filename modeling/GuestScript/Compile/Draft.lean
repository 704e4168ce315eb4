import GuestScript.Bytecode.Image
import GuestScript.Diagnostic

/-!
# Units under construction

A `Draft` holds what a compilation has produced so far: imports, routines and findings. A finding is
a diagnostic in terms of spans. Routines get their positions when they are reserved and their code
when it is complete, so that code can call routines that come later.
-/

namespace GuestScript.Compile

open Bytecode (Import ImportIndex Op Routine RoutineIndex)

/-- What a compilation has produced so far; the newest finding comes first. -/
structure Draft where
  imports : Array Import
  routines : Array Routine
  findings : List (Diagnostic Span)
  lambdas : Nat

/-- An action that adds to a draft. -/
abbrev Drafting (Value : Type) := StateM Draft Value

namespace Draft

/-- The draft of an empty unit. -/
def empty : Draft := ⟨#[], #[], [], 0⟩

/-- Add a finding. -/
def note (finding : Diagnostic Span) : Drafting Unit :=
  modify fun draft ↦ { draft with findings := finding :: draft.findings }

/-- Add an error. -/
def report (code : Code) (message : String) (span : Span) : Drafting Unit :=
  note (.error code message span)

/-- Add a warning. -/
def warn (code : Code) (message : String) (span : Span) : Drafting Unit :=
  note (.warning code message span)

/-- The position of an import; it is added if it is not there yet. -/
def importIndex (wanted : Import) : Drafting ImportIndex := do
  let draft ← get
  let known := draft.imports.findIdx? fun present ↦
    present.moduleName = wanted.moduleName && present.function = wanted.function
  match known with
  | some index => pure index
  | none =>
      set { draft with imports := draft.imports.push wanted }
      pure draft.imports.size

/-- Reserve the next position for a routine whose code is still to come. -/
def reserve (routine : Routine) : Drafting RoutineIndex := do
  let draft ← get
  set { draft with routines := draft.routines.push routine }
  pure draft.routines.size

/-- Give a reserved routine its code and the number of its slots. -/
def complete (index : RoutineIndex) (code : List Op) (locals : Nat) : Drafting Unit :=
  modify fun draft ↦
    { draft with routines := draft.routines.modify index fun routine ↦
        { routine with code := code.toArray, locals } }

/-- Number the next lambda. -/
def nextLambda : Drafting Nat := do
  modify fun draft ↦ { draft with lambdas := draft.lambdas + 1 }
  pure (← get).lambdas

end Draft

end GuestScript.Compile
