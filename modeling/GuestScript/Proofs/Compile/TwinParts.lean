import GuestScript.Proofs.Compile.Parts
import GuestScript.Proofs.Compile.TwinBodies

/-!
# Parts in step

A part of a unit and its twin in a unit whose types are in another order stay in step. The
initializer of a type adds a routine of its own. A function gives its code to a routine that has
been reserved before: what a frame says of the routines behind its start is not touched by this, so
`defineMethod_routine` says by itself what becomes of the reserved routine.
-/

namespace GuestScript.Compile

open Bytecode (Op Renumbering Routine RoutineIndex)
open Lowering
open Meaning (settingOf)
open Syntax

variable {frame : Frame} {setting setting' : Setting}

/-! ## Fields -/

theorem twins_firstValueCode (sound : frame.Sound)
    (reordered : SettingsReordered frame.references frame.renumbering setting setting')
    (field : FieldInfo) (start : Nat) :
    Twinned frame.bodies frame.renumbering.code (firstValueCode setting field start)
      (firstValueCode setting' field start) := by
  have plain (type : Ty) : frame.renumbering.op (defaultValue type) = defaultValue type := by
    cases type <;> rfl
  rw [firstValueCode, firstValueCode]
  cases field.value with
  | some value =>
      exact (twins_expression sound reordered value _ _).bind fun typed ↦
        (twins_check _ _ _).map fun _ ↦ rfl
  | none => exact .give (by rw [Renumbering.code_cons, plain, Renumbering.code_nil])

theorem twins_initializeFields (sound : frame.Sound)
    (reordered : SettingsReordered frame.references frame.renumbering setting setting')
    (receiver : Nat) : (fields : List FieldInfo) → (position : Nat) → (before : List Op) →
    (start : Nat) → Twinned frame.bodies frame.renumbering.code
      (initializeFields setting receiver fields position before start)
      (initializeFields setting' receiver fields position (frame.renumbering.code before) start)
  | [], _, _, _ => .give (by rw [Renumbering.code_reverse])
  | field :: rest, position, before, start => by
      rw [initializeFields, initializeFields]
      refine (twins_firstValueCode sound reordered field (start + 1)).bind fun value ↦ ?_
      have others := twins_initializeFields sound reordered receiver rest (position + 1)
        (([Op.load receiver] ++ value ++ [Op.storeField position]).reverse ++ before)
        (start + ([Op.load receiver] ++ value ++ [Op.storeField position]).length)
      simpa [Renumbering.op] using others

theorem twins_initializerInside (sound : frame.Sound)
    (reordered : SettingsReordered frame.references frame.renumbering setting setting')
    (fields : List FieldInfo) :
    Twinned frame.bodies frame.renumbering.code (initializerInside setting fields)
      (initializerInside setting' fields) :=
  twins_allocate.bind fun receiver ↦
    twins_initializeFields sound (reordered.withReceiver (some receiver)) receiver fields 0 [] 0

instance covers_option {Value : Type} (move : Equiv.Perm Value) : Covers (Option.map move) :=
  ⟨fun found ↦ ⟨found.map move.symm, by simp⟩⟩

theorem twins_defineInitializer (sound : frame.Sound)
    (reordered : SettingsReordered frame.references frame.renumbering setting setting')
    (fields : List FieldInfo) :
    Twinned frame.drafts (Option.map frame.renumbering.routines) (defineInitializer setting fields)
      (defineInitializer setting' fields) := by
  have routine : (initializerRoutine setting.owner).Renumbered frame.renumbering
      (initializerRoutine setting'.owner) :=
    { name := frame.renumbering.renames_self _
      named := fun _ ↦ rfl
      owner := congrArg some reordered.owner
      visibility := rfl
      binding := rfl
      arity := rfl
      locals := rfl
      code := rfl }
  unfold defineInitializer
  refine .ite .rfl (.give rfl) ?_
  exact (twins_addRoutine sound routine (twins_initializerInside sound reordered fields) fun code ↦
    (Renumbering.code_append _ code epilogue).symm).map fun _ ↦ rfl

/-! ## Functions -/

theorem twins_methodInside (sound : frame.Sound)
    (reordered : SettingsReordered frame.references frame.renumbering setting setting')
    (method : MethodInfo) :
    Twinned frame.bodies frame.renumbering.code (methodInside setting method)
      (methodInside setting' (method.renumber frame.renumbering)) := by
  have rest (receiver : Option Nat) : Twinned frame.bodies frame.renumbering.code (do
      declareParameters ((method.declaration.parameters.map Parameter.name).zip method.parameters)
      block { setting with receiver } method.declaration.body 0) (do
      declareParameters ((method.declaration.parameters.map Parameter.name).zip method.parameters)
      block { setting' with receiver } method.declaration.body 0) :=
    (twins_declareParameters _).bind fun _ ↦
      twins_block sound (reordered.withReceiver receiver) method.declaration.body 0
  unfold methodInside
  exact .ite .rfl (Mirrored.bind (.pure none) rest)
    (twins_allocate.bind fun slot ↦ Mirrored.bind (.pure (some slot)) rest)

theorem twins_checkReturns (method : MethodInfo) :
    Mirrored frame.drafts (checkReturns method)
      (checkReturns (method.renumber frame.renumbering)) := by
  unfold checkReturns
  exact .ite .rfl (Draft.twins_report _ _ _) (.pure ())

/-- Code of routines that were there at the start leaves all that was gained since then. -/
theorem Draft.twins_complete_older {index index' : RoutineIndex}
    (older : index < frame.first.routines.size) (older' : index' < frame.first'.routines.size)
    (code code' : List Op) (locals locals' : Nat) :
    Mirrored frame.drafts (complete index code locals) (complete index' code' locals') := by
  have within {last draft : Draft} {index : RoutineIndex} {code : List Op} {locals : Nat}
      (ended : (complete index code locals draft).2.Within last) : draft.Within last := by
    refine ⟨ended.imports, ?_, ended.lambdas⟩
    have size := ended.size
    change (draft.routines.modify _ _).size ≤ _ at size
    rwa [Array.size_modify] at size
  refine ⟨fun _ ↦ within, fun _ ↦ within, fun {draft draft'} alike _ _ ↦ ⟨rfl, ?_⟩⟩
  refine { alike with size := ?_, routines := fun other ↦ ?_ }
  · change ∃ total, (draft.routines.modify _ _).size = _ ∧ (draft'.routines.modify _ _).size = _
    rw [Array.size_modify, Array.size_modify]
    exact alike.size
  · change Option.Rel _ (draft.routines.modify _ _)[frame.first.routines.size + other]?
      (draft'.routines.modify _ _)[frame.first'.routines.size + other]?
    have apart {index size : Nat} (older : index < size) : ¬ index = size + other := by omega
    rw [Array.getElem?_modify, Array.getElem?_modify, if_neg (apart older), if_neg (apart older')]
    exact alike.routines other

/-- What is done with the code of a function. -/
def finishMethod (method : MethodInfo) (compiled : List Op × Nat) : Drafting Unit := do
  checkReturns method
  Draft.complete method.routine (compiled.1 ++ epilogue) compiled.2

theorem defineMethod_eq (setting : Setting) (method : MethodInfo) :
    defineMethod setting method = alone (methodInside setting method) >>= finishMethod method :=
  rfl

variable {method : MethodInfo}

theorem twins_finishMethod (older : method.routine < frame.first.routines.size)
    (older' : frame.renumbering.routines method.routine < frame.first'.routines.size)
    (compiled : List Op × Nat) :
    Mirrored frame.drafts (finishMethod method compiled)
      (finishMethod (method.renumber frame.renumbering)
        (Prod.map frame.renumbering.code id compiled)) :=
  (twins_checkReturns method).bind fun _ ↦ Draft.twins_complete_older older older' _ _ _ _

theorem twins_defineMethod (sound : frame.Sound)
    (reordered : SettingsReordered frame.references frame.renumbering setting setting')
    (older : method.routine < frame.first.routines.size)
    (older' : frame.renumbering.routines method.routine < frame.first'.routines.size) :
    Mirrored frame.drafts (defineMethod setting method)
      (defineMethod setting' (method.renumber frame.renumbering)) := by
  rw [defineMethod_eq, defineMethod_eq]
  exact (twins_alone (twins_methodInside sound reordered method)).bind
    (twins_finishMethod older older')

/-- The reserved routine of a function has the code of the function afterwards. -/
theorem defineMethod_routine {draft : Draft} {routine : Routine}
    (reserved : draft.routines[method.routine]? = some routine) :
    (defineMethod setting method draft).2.routines[method.routine]? = some
      { routine with
        code := ((alone (methodInside setting method) draft).1.1 ++ epilogue).toArray
        locals := (alone (methodInside setting method) draft).1.2 } := by
  let compiled := alone (methodInside setting method) draft
  have grown : draft.Extends compiled.2 := (grows_methodInside method ⟨draft, [[]], 0⟩).1
  have grown' : compiled.2.Extends (checkReturns method compiled.2).2 :=
    (leaves_checkReturns method compiled.2).extends'
  have inside := (Array.getElem?_eq_some_iff.mp reserved).1
  exact Draft.complete_routine (((grown.trans grown').routines inside).trans reserved)

/-- Routines that are reserved for a function and for its twin are completed in step. -/
theorem routines_defineMethod (sound : frame.Sound)
    (reordered : SettingsReordered frame.references frame.renumbering setting setting')
    (imports : ImportsFrom frame.references frame.first.imports)
    (imports' : ImportsFrom frame.references frame.first'.imports)
    (ended : (defineMethod setting method frame.first).2.Within frame.last)
    (ended' : (defineMethod setting' (method.renumber frame.renumbering) frame.first').2.Within
      frame.last') {routine routine' : Routine}
    (reserved : frame.first.routines[method.routine]? = some routine)
    (reserved' : frame.first'.routines[frame.renumbering.routines method.routine]? = some routine')
    (same : routine.Renumbered frame.renumbering routine') :
    Option.Rel (Routine.Renumbered frame.renumbering)
      (defineMethod setting method frame.first).2.routines[method.routine]?
      (defineMethod setting' (method.renumber frame.renumbering)
        frame.first').2.routines[frame.renumbering.routines method.routine]? := by
  have older := (Array.getElem?_eq_some_iff.mp reserved).1
  have older' := (Array.getElem?_eq_some_iff.mp reserved').1
  have finish := twins_finishMethod older older'
  have compiled := twins_alone (twins_methodInside sound reordered method)
  have inside : (alone (methodInside setting method) frame.first).2.Within frame.last :=
    (finish (alone (methodInside setting method) frame.first).1).within _ ended
  -- What the twin is compiled to is not known to be that of the function yet, but it is known to be
  -- what something is seen as.
  obtain ⟨value, seen⟩ : ∃ value, Prod.map frame.renumbering.code id value
      = (alone (methodInside setting' (method.renumber frame.renumbering)) frame.first').1 :=
    covers_pair.covers _
  have inside' : (alone (methodInside setting' (method.renumber frame.renumbering))
      frame.first').2.Within frame.last' := by
    refine (finish value).within' _ ?_
    rw [seen]
    exact ended'
  have given := (compiled.alike (Frame.alike_start imports imports') inside inside').1
  have completed' : (defineMethod setting' (method.renumber frame.renumbering)
      frame.first').2.routines[(method.renumber frame.renumbering).routine]? = _ :=
    defineMethod_routine reserved'
  rw [given] at completed'
  rw [defineMethod_routine reserved]
  change Option.Rel _ _ ((defineMethod setting' (method.renumber frame.renumbering)
    frame.first').2.routines[(method.renumber frame.renumbering).routine]?)
  rw [completed']
  refine .some { same with locals := rfl, code := ?_ }
  exact (Renumbering.code_append _ _ epilogue).symm

/-! ## Parts -/

/-- One part is the twin of another one. -/
structure Part.Twin (renumbering : Renumbering) (part part' : Part) : Prop where
  owner : part'.owner = renumbering.types part.owner
  info : part.info.Reordered renumbering part'.info
  member : part'.member = part.member.map (MethodInfo.renumber renumbering)

namespace Part.Twin

variable {renumbering : Renumbering} {part part' : Part}

theorem key (twin : part.Twin renumbering part') : part'.key = part.key := by
  rw [Part.key, Part.key, twin.info.name, twin.member, Option.map_map]
  rfl

theorem lambdas (twin : part.Twin renumbering part') : part'.lambdas = part.lambdas := by
  rw [Part.lambdas, Part.lambdas, twin.info.fields, twin.member]
  cases part.member <;> rfl

theorem added (twin : part.Twin renumbering part') : part'.added = part.added := by
  rw [Part.added, Part.added, twin.info.fields, twin.member, twin.lambdas]
  cases part.member <;> rfl

end Part.Twin

/-- What stays the same throughout the bodies of a type stays the same for its twin. -/
theorem settingsReordered_settingOf (references : ReferenceSet) {types types' : List TypeInfo}
    {renumbering : Renumbering} (reordered : TypesReordered renumbering types types')
    {info info' : TypeInfo} (same : info.Reordered renumbering info')
    (owner : Bytecode.TypeIndex) :
    SettingsReordered references renumbering (settingOf references types owner info)
      (settingOf references types' (renumbering.types owner) info') where
  references := rfl
  references' := rfl
  types := reordered
  owner := rfl
  ownerName := same.name
  routineName := renumbering.renames_self _
  receiver := rfl
  result := rfl

/-- A part stays in step with its twin. -/
theorem Part.Twin.define (sound : frame.Sound) {types types' : List TypeInfo}
    (reordered : TypesReordered frame.renumbering types types') {part part' : Part}
    (twin : part.Twin frame.renumbering part')
    (older : ∀ method ∈ part.member, method.routine < frame.first.routines.size ∧
      frame.renumbering.routines method.routine < frame.first'.routines.size) :
    Mirrored frame.drafts (part.define frame.references types)
      (part'.define frame.references types') := by
  obtain ⟨owner, info, member⟩ := part
  obtain ⟨_, info', _⟩ := part'
  obtain ⟨rfl, same, rfl⟩ := twin
  have settings := settingsReordered_settingOf frame.references reordered same owner
  cases member with
  | none =>
      change Mirrored frame.drafts (defineInitializer _ info.fields >>= fun _ ↦ pure ())
        (defineInitializer _ info'.fields >>= fun _ ↦ pure ())
      rw [same.fields]
      exact (twins_defineInitializer sound settings info.fields).bind fun _ ↦ .pure ()
  | some method =>
      obtain ⟨here, there⟩ := older method rfl
      exact twins_defineMethod sound
        { settings with routineName := frame.renumbering.renames_self _, result := rfl } here there

end GuestScript.Compile
