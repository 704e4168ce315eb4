import GuestScript.Proofs.Compile.Emits
import GuestScript.Proofs.Compile.Reordered

/-!
# One body in two units

A body is compiled in two units that have the same types in another order. What comes before it
differs, so its routines, imports and lambdas get other numbers. A `Frame` says where the body
starts and where the units end, in both, and which renumbering leads from the one to the other.
`Twinned` says of an action and its twin that they stay in step: from drafts that have gained alike
they give the same up to the renumbering, and leave drafts that have gained alike.

The renumbering is fixed before anything is compiled, and the numbers are right because the drafts
stay within those that the units end with. That is known at the end of an action, so it has to be
carried back to where the action starts: the second part of a composition tells it of the first
part. What the twin of the first part gives is not known by then to be the twin of anything.
`Covers` helps out: whatever it is, a renumbering can be undone, so it is what some value is seen
as.
-/

namespace GuestScript.Compile

open Bytecode (Import ImportIndex Op Renumbering Routine RoutineIndex)
open Meaning (HostCall)

/-! ## Ways to see values -/

/-- Every value is what some value is seen as. -/
class Covers {Value Other : Type} (see : Value → Other) : Prop where
  covers : Function.Surjective see

/-- Code and a type under a renumbering. -/
def renumberTyped (renumbering : Renumbering) (typed : Typed) : Typed :=
  ⟨renumbering.code typed.code, typed.type⟩

@[simp]
theorem renumberTyped_code (renumbering : Renumbering) (typed : Typed) :
    (renumberTyped renumbering typed).code = renumbering.code typed.code :=
  rfl

@[simp]
theorem renumberTyped_type (renumbering : Renumbering) (typed : Typed) :
    (renumberTyped renumbering typed).type = typed.type :=
  rfl

section Covers

variable {renumbering : Renumbering} {Value Other First Second : Type}

instance covers_code : Covers renumbering.code :=
  ⟨fun code ↦ ⟨_, renumbering.code_back code⟩⟩

instance covers_typed : Covers (renumberTyped renumbering) :=
  ⟨fun typed ↦ ⟨⟨renumbering.back.code typed.code, typed.type⟩, by simp [renumberTyped]⟩⟩

instance covers_perm (move : Equiv.Perm Value) : Covers move :=
  ⟨move.surjective⟩

instance covers_id : Covers (id : Value → Value) :=
  ⟨Function.surjective_id⟩

instance covers_pair {see : Value → Other} {see' : First → Second} [first : Covers see]
    [second : Covers see'] : Covers (Prod.map see see') :=
  ⟨first.covers.prodMap second.covers⟩

end Covers

/-! ## Actions in step -/

/-- States of two runs: which are within the end of each, and which belong together. -/
structure Pairing (State : Type) where
  within : State → Prop
  within' : State → Prop
  alike : State → State → Prop

/-- An action and its twin stay in step: states that belong together lead to such states, and what
the action gives is seen as what the twin gives. Where either ends within bounds it has started
within them. -/
structure Twinned {State Value Other : Type} (pairing : Pairing State) (see : Value → Other)
    (action : StateM State Value) (twin : StateM State Other) : Prop where
  within : ∀ state, pairing.within (action state).2 → pairing.within state
  within' : ∀ state, pairing.within' (twin state).2 → pairing.within' state
  alike : ∀ {state state'}, pairing.alike state state' → pairing.within (action state).2 →
    pairing.within' (twin state').2 →
    (twin state').1 = see (action state).1 ∧ pairing.alike (action state).2 (twin state').2

/-- An action and its twin stay in step and give the same. -/
abbrev Mirrored {State Value : Type} (pairing : Pairing State)
    (action twin : StateM State Value) : Prop :=
  Twinned pairing (id : Value → Value) action twin

namespace Twinned

variable {State Value Other Next Last : Type} {pairing : Pairing State} {see : Value → Other}
  {see' : Next → Last} {action : StateM State Value} {twin : StateM State Other}

/-- A value that is seen as another one. -/
theorem give {value : Value} {value' : Other} (same : value' = see value) :
    Twinned pairing see (Pure.pure value) (Pure.pure value') :=
  ⟨fun _ ↦ id, fun _ ↦ id, fun alike _ _ ↦ ⟨same, alike⟩⟩

protected theorem pure (value : Value) :
    Twinned pairing id (Pure.pure value : StateM State Value) (Pure.pure value) :=
  give rfl

protected theorem bind [covers : Covers see] {next : Value → StateM State Next}
    {next' : Other → StateM State Last} (first : Twinned pairing see action twin)
    (second : ∀ value, Twinned pairing see' (next value) (next' (see value))) :
    Twinned pairing see' (action >>= next) (twin >>= next') := by
  have between (state : State) (ended : pairing.within' ((twin >>= next') state).2) :
      pairing.within' (twin state).2 := by
    obtain ⟨value, seen⟩ := covers.covers (twin state).1
    refine (second value).within' (twin state).2 ?_
    rw [seen]
    exact ended
  refine ⟨fun state ended ↦ first.within _ ((second _).within _ ended),
    fun state ended ↦ first.within' _ (between state ended), ?_⟩
  intro state state' alike ended ended'
  obtain ⟨same, after⟩ :=
    first.alike alike ((second _).within _ ended) (between state' ended')
  change pairing.within' (next' (twin state').1 (twin state').2).2 at ended'
  change (next' (twin state').1 (twin state').2).1 = _ ∧
    pairing.alike _ (next' (twin state').1 (twin state').2).2
  rw [same] at ended' ⊢
  exact (second _).alike after ended ended'

protected theorem map [Covers see] {make : Value → Next} {make' : Other → Last}
    (first : Twinned pairing see action twin)
    (same : ∀ value, make' (see value) = see' (make value)) :
    Twinned pairing see' (action >>= fun value ↦ Pure.pure (make value))
      (twin >>= fun value ↦ Pure.pure (make' value)) :=
  first.bind fun value ↦ give (same value)

protected theorem ite {condition condition' : Prop} [Decidable condition] [Decidable condition']
    {other : StateM State Value} {other' : StateM State Other} (same : condition' ↔ condition)
    (first : Twinned pairing see action twin) (second : Twinned pairing see other other') :
    Twinned pairing see (if condition then action else other)
      (if condition' then twin else other') := by
  by_cases holds : condition
  · rw [if_pos holds, if_pos (same.mpr holds)]
    exact first
  · rw [if_neg holds, if_neg fun holds' ↦ holds (same.mp holds')]
    exact second

end Twinned

namespace Mirrored

variable {State Value Next Last : Type} {pairing : Pairing State} {see' : Next → Last}
  {action twin : StateM State Value}

protected theorem bind {next : Value → StateM State Next} {next' : Value → StateM State Last}
    (first : Mirrored pairing action twin)
    (second : ∀ value, Twinned pairing see' (next value) (next' value)) :
    Twinned pairing see' (action >>= next) (twin >>= next') :=
  Twinned.bind first second

protected theorem map {make : Value → Next} {make' : Value → Last}
    (first : Mirrored pairing action twin) (same : ∀ value, make' value = see' (make value)) :
    Twinned pairing see' (action >>= fun value ↦ Pure.pure (make value))
      (twin >>= fun value ↦ Pure.pure (make' value)) :=
  Twinned.map first same

end Mirrored

/-! ## Frames -/

/-- A draft has no more than another one. -/
structure Draft.Within (draft last : Draft) : Prop where
  imports : ∀ {index : Nat} {imported : Import}, draft.imports[index]? = some imported →
    last.imports[index]? = some imported
  size : draft.routines.size ≤ last.routines.size
  lambdas : draft.lambdas ≤ last.lambdas

theorem Draft.Within.of_extends {before after last : Draft} (within : after.Within last)
    (grown : before.Extends after) (numbered : before.lambdas ≤ after.lambdas) :
    before.Within last :=
  ⟨fun found ↦ within.imports (grown.imports found), Nat.le_trans grown.size within.size,
    Nat.le_trans numbered within.lambdas⟩

/-- Where a body starts and what the units are in the end, in two compilations, and the renumbering
that leads from the one to the other. -/
structure Frame where
  references : ReferenceSet
  renumbering : Renumbering
  first : Draft
  first' : Draft
  last : Draft
  last' : Draft

namespace Frame

variable (frame : Frame)

/-- The renumbering of a frame moves what a body adds from the place that it gets in the one unit to
the place that it gets in the other, and every import from the one unit to the other. -/
structure Sound : Prop where
  routines : ∀ count, frame.first.routines.size + count < frame.last.routines.size →
    frame.first'.routines.size + count < frame.last'.routines.size →
    frame.renumbering.routines (frame.first.routines.size + count)
      = frame.first'.routines.size + count
  lambdas : ∀ count, frame.first.lambdas + count < frame.last.lambdas →
    frame.first'.lambdas + count < frame.last'.lambdas →
    frame.renumbering.lambdas (frame.first.lambdas + count + 1)
      = frame.first'.lambdas + count + 1
  imports : ∀ {imported : Import} {index index' : ImportIndex},
    frame.last.imports[index]? = some imported → frame.last'.imports[index']? = some imported →
    frame.renumbering.imports index = index'

/-- Two drafts have gained alike since the body started: the same findings, as many lambdas, the
same routines up to the renumbering, and the same imports, apart from those that were there. -/
structure Alike (draft draft' : Draft) : Prop where
  findings : ∃ added, draft.findings = added ++ frame.first.findings ∧
    draft'.findings = added ++ frame.first'.findings
  lambdas : ∃ count, draft.lambdas = frame.first.lambdas + count ∧
    draft'.lambdas = frame.first'.lambdas + count
  size : ∃ count, draft.routines.size = frame.first.routines.size + count ∧
    draft'.routines.size = frame.first'.routines.size + count
  routines : ∀ count, Option.Rel (Routine.Renumbered frame.renumbering)
    draft.routines[frame.first.routines.size + count]?
    draft'.routines[frame.first'.routines.size + count]?
  imports : ImportsFrom frame.references draft.imports
  imports' : ImportsFrom frame.references draft'.imports
  gained : ∀ imported ∈ draft.imports,
    imported ∈ frame.first.imports ∨ imported ∈ draft'.imports
  gained' : ∀ imported ∈ draft'.imports,
    imported ∈ frame.first'.imports ∨ imported ∈ draft.imports

/-- Drafts while a body is compiled. -/
def drafts : Pairing Draft :=
  ⟨fun draft ↦ draft.Within frame.last, fun draft ↦ draft.Within frame.last', frame.Alike⟩

/-- Bodies under construction: the variables in scope and the next free slot are the same. -/
def bodies : Pairing Body where
  within body := body.draft.Within frame.last
  within' body := body.draft.Within frame.last'
  alike body body' :=
    frame.Alike body.draft body'.draft ∧ body'.scopes = body.scopes ∧ body'.nextSlot = body.nextSlot

variable {frame}

/-- At its start a body has gained nothing. -/
theorem alike_start (imports : ImportsFrom frame.references frame.first.imports)
    (imports' : ImportsFrom frame.references frame.first'.imports) :
    frame.Alike frame.first frame.first' where
  findings := ⟨[], rfl, rfl⟩
  lambdas := ⟨0, rfl, rfl⟩
  size := ⟨0, rfl, rfl⟩
  routines count := by
    rw [Array.getElem?_eq_none (Nat.le_add_right _ count),
      Array.getElem?_eq_none (Nat.le_add_right _ count)]
    exact .none
  imports := imports
  imports' := imports'
  gained _ inside := .inl inside
  gained' _ inside := .inl inside

end Frame

/-! ## Actions on drafts -/

namespace Draft

variable {frame : Frame}

theorem twins_note (finding : Diagnostic Span) :
    Mirrored frame.drafts (note finding) (note finding) where
  within _ ended := ⟨ended.imports, ended.size, ended.lambdas⟩
  within' _ ended := ⟨ended.imports, ended.size, ended.lambdas⟩
  alike alike _ _ := by
    obtain ⟨added, same, same'⟩ := alike.findings
    exact ⟨rfl, { alike with
      findings := ⟨finding :: added, congrArg (finding :: ·) same, congrArg (finding :: ·) same'⟩ }⟩

theorem twins_report (code : Code) (message : String) (span : Span) :
    Mirrored frame.drafts (report code message span) (report code message span) :=
  twins_note _

/-- What is imported is known by its place afterwards, and nothing else is imported. -/
theorem importIndex_spec {references : ReferenceSet} {call : HostCall} {draft : Draft}
    (imports : ImportsFrom references draft.imports)
    (known : references.lookup? call.binding.name = some call.binding)
    (member : call.binding.host.function? call.function.name = some call.function) :
    (importIndex call.imported draft).2.imports[(importIndex call.imported draft).1]?
        = some call.imported ∧
      ImportsFrom references (importIndex call.imported draft).2.imports ∧
      ∀ imported, imported ∈ (importIndex call.imported draft).2.imports ↔
        imported ∈ draft.imports ∨ imported = call.imported := by
  have gains := gains_importIndex ⟨call.binding, call.function, call.function.parameters.length⟩
    imports known member (.inl rfl)
  have found : (importIndex call.imported draft).2.imports[(importIndex call.imported draft).1]?
      = some call.imported := by
    obtain _ | ⟨here, _⟩ := gains.own
    exact here.1
  refine ⟨found, gains.imports, fun imported ↦ ⟨fun inside ↦ ?_, ?_⟩⟩
  · rw [importIndex_apply] at inside
    cases present : draft.imports.findIdx? (isImport call.imported) with
    | some index =>
        rw [present] at inside
        exact .inl inside
    | none =>
        rw [present] at inside
        exact Array.mem_push.mp inside
  · rintro (inside | rfl)
    · obtain ⟨index, here⟩ := Array.mem_iff_getElem?.mp inside
      exact Array.mem_of_getElem? (gains.grown.imports here)
    · exact Array.mem_of_getElem? found

theorem twins_importIndex (sound : frame.Sound) {call : HostCall}
    (known : frame.references.lookup? call.binding.name = some call.binding)
    (member : call.binding.host.function? call.function.name = some call.function) :
    Twinned frame.drafts frame.renumbering.imports (importIndex call.imported)
      (importIndex call.imported) where
  within draft ended := ended.of_extends (extends_importIndex _ draft).1
    (extends_importIndex _ draft).2.ge
  within' draft ended := ended.of_extends (extends_importIndex _ draft).1
    (extends_importIndex _ draft).2.ge
  alike {draft draft'} alike ended ended' := by
    obtain ⟨here, imports, inside⟩ := importIndex_spec alike.imports known member
    obtain ⟨here', imports', inside'⟩ := importIndex_spec alike.imports' known member
    refine ⟨(sound.imports (ended.imports here) (ended'.imports here')).symm, ?_⟩
    have kept (draft : Draft) : (importIndex call.imported draft).2.findings = draft.findings ∧
        (importIndex call.imported draft).2.lambdas = draft.lambdas ∧
        (importIndex call.imported draft).2.routines = draft.routines := by
      rw [importIndex_apply]
      cases draft.imports.findIdx? (isImport call.imported) <;> exact ⟨rfl, rfl, rfl⟩
    obtain ⟨findings, lambdas, routines⟩ := kept draft
    obtain ⟨findings', lambdas', routines'⟩ := kept draft'
    refine ⟨?_, ?_, ?_, ?_, imports, imports', ?_, ?_⟩
    · rw [findings, findings']
      exact alike.findings
    · rw [lambdas, lambdas']
      exact alike.lambdas
    · rw [routines, routines']
      exact alike.size
    · rw [routines, routines']
      exact alike.routines
    · intro imported present
      obtain old | rfl := (inside imported).mp present
      · exact (alike.gained imported old).imp_right fun there ↦ (inside' imported).mpr (.inl there)
      · exact .inr ((inside' _).mpr (.inr rfl))
    · intro imported present
      obtain old | rfl := (inside' imported).mp present
      · exact (alike.gained' imported old).imp_right fun there ↦ (inside imported).mpr (.inl there)
      · exact .inr ((inside _).mpr (.inr rfl))

theorem twins_nextLambda (sound : frame.Sound) :
    Twinned frame.drafts frame.renumbering.lambdas nextLambda nextLambda where
  within _ ended := ⟨ended.imports, ended.size, Nat.le_trans (Nat.le_succ _) ended.lambdas⟩
  within' _ ended := ⟨ended.imports, ended.size, Nat.le_trans (Nat.le_succ _) ended.lambdas⟩
  alike {draft draft'} alike ended ended' := by
    obtain ⟨count, numbered, numbered'⟩ := alike.lambdas
    have ended : draft.lambdas + 1 ≤ frame.last.lambdas := ended.lambdas
    have ended' : draft'.lambdas + 1 ≤ frame.last'.lambdas := ended'.lambdas
    refine ⟨?_, { alike with lambdas := ⟨count + 1, ?_, ?_⟩ }⟩
    · change draft'.lambdas + 1 = frame.renumbering.lambdas (draft.lambdas + 1)
      rw [numbered, numbered', sound.lambdas count (by omega) (by omega)]
    · change draft.lambdas + 1 = _
      rw [numbered, Nat.add_assoc]
    · change draft'.lambdas + 1 = _
      rw [numbered', Nat.add_assoc]

/-- A routine is found behind those that have been there, or among them. -/
theorem getElem?_push {routines : Array Routine} {routine : Routine} {size count total : Nat}
    (length : routines.size = size + total) :
    (routines.push routine)[size + count]?
      = if count = total then some routine else routines[size + count]? := by
  rw [Array.getElem?_push, length]
  exact if_congr (by omega) rfl rfl

theorem twins_reserve (sound : frame.Sound) {routine routine' : Routine}
    (same : routine.Renumbered frame.renumbering routine') :
    Twinned frame.drafts frame.renumbering.routines (reserve routine) (reserve routine') where
  within draft ended := ended.of_extends (extends_reserve routine draft) (Nat.le_refl _)
  within' draft ended := ended.of_extends (extends_reserve routine' draft) (Nat.le_refl _)
  alike {draft draft'} alike ended ended' := by
    obtain ⟨count, size, size'⟩ := alike.size
    have ended : (draft.routines.push routine).size ≤ frame.last.routines.size := ended.size
    have ended' : (draft'.routines.push routine').size ≤ frame.last'.routines.size := ended'.size
    rw [Array.size_push] at ended ended'
    refine ⟨?_, { alike with size := ⟨count + 1, ?_, ?_⟩, routines := fun other ↦ ?_ }⟩
    · change draft'.routines.size = frame.renumbering.routines draft.routines.size
      rw [size, size', sound.routines count (by omega) (by omega)]
    · change (draft.routines.push routine).size = _
      rw [Array.size_push, size, Nat.add_assoc]
    · change (draft'.routines.push routine').size = _
      rw [Array.size_push, size', Nat.add_assoc]
    · change Option.Rel _ (draft.routines.push routine)[frame.first.routines.size + other]?
        (draft'.routines.push routine')[frame.first'.routines.size + other]?
      rw [getElem?_push size, getElem?_push size']
      by_cases last : other = count
      · rw [if_pos last, if_pos last]
        exact .some same
      · rw [if_neg last, if_neg last]
        exact alike.routines other

/-- Code may be filled in where it belongs to the same routine. -/
theorem alike_complete {draft draft' : Draft} (alike : frame.Alike draft draft') (count : Nat)
    (code : List Op) (locals : Nat) :
    frame.Alike (complete (frame.first.routines.size + count) code locals draft).2
      (complete (frame.first'.routines.size + count) (frame.renumbering.code code) locals
        draft').2 := by
  refine { alike with size := ?_, routines := fun other ↦ ?_ }
  · change ∃ total, (draft.routines.modify _ _).size = _ ∧ (draft'.routines.modify _ _).size = _
    rw [Array.size_modify, Array.size_modify]
    exact alike.size
  · change Option.Rel _ (draft.routines.modify _ _)[frame.first.routines.size + other]?
      (draft'.routines.modify _ _)[frame.first'.routines.size + other]?
    rw [Array.getElem?_modify, Array.getElem?_modify]
    have here := alike.routines other
    by_cases same : count = other
    · subst same
      rw [if_pos rfl, if_pos rfl]
      generalize draft.routines[frame.first.routines.size + count]? = old,
        draft'.routines[frame.first'.routines.size + count]? = new at here
      cases here with
      | none => exact .none
      | some kept => exact .some { kept with locals := rfl, code := rfl }
    · rw [if_neg (by omega), if_neg (by omega)]
      exact here

mutual

/-- A written type is found out in step. -/
theorem twins_resolveType (references : ReferenceSet) (names : List TypeName)
    (namespaceName : String) : (written : Syntax.TypeExpression) →
    Mirrored frame.drafts (resolveType references names namespaceName written)
      (resolveType references names namespaceName written)
  | .int _ | .str _ | .bool _ | .unit _ => .pure _
  | .dyn span => by
      rw [resolveType]
      exact .ite .rfl (.pure _) ((twins_report _ _ span).map fun _ ↦ rfl)
  | .array element _ | .seq element _ => by
      rw [resolveType]
      exact (twins_resolveType references names namespaceName element).map fun _ ↦ rfl
  | .function parameters result _ => by
      rw [resolveType]
      exact (twins_resolveTypes references names namespaceName parameters).bind fun _ ↦
        (twins_resolveType references names namespaceName result).map fun _ ↦ rfl
  | .named name span => by
      rw [resolveType]
      cases TypeName.find? names name namespaceName with
      | some index => exact .pure _
      | none => exact (twins_report _ _ span).map fun _ ↦ rfl

/-- Written types are found out in step. -/
theorem twins_resolveTypes (references : ReferenceSet) (names : List TypeName)
    (namespaceName : String) : (written : List Syntax.TypeExpression) →
    Mirrored frame.drafts (resolveTypes references names namespaceName written)
      (resolveTypes references names namespaceName written)
  | [] => .pure _
  | first :: rest => by
      rw [resolveTypes]
      exact (twins_resolveType references names namespaceName first).bind fun _ ↦
        (twins_resolveTypes references names namespaceName rest).map fun _ ↦ rfl

end

end Draft

/-! ## Actions on bodies -/

namespace Lowering

variable {frame : Frame} {Value Other : Type} {see : Value → Other}

theorem twins_onDraft {action : Drafting Value} {twin : Drafting Other}
    (inner : Twinned frame.drafts see action twin) :
    Twinned frame.bodies see (onDraft action) (onDraft twin) where
  within body ended := inner.within body.draft ended
  within' body ended := inner.within' body.draft ended
  alike alike ended ended' := by
    obtain ⟨same, after⟩ := inner.alike alike.1 ended ended'
    exact ⟨same, after, alike.2⟩

theorem twins_report (code : Code) (message : String) (span : Span) :
    Mirrored frame.bodies (report code message span) (report code message span) :=
  twins_onDraft (Draft.twins_report code message span)

theorem twins_mistake (code : Code) (message : String) (span : Span) :
    Mirrored frame.bodies (mistake code message span) (mistake code message span) :=
  (twins_report code message span).map fun _ ↦ rfl

theorem twins_check (expected actual : Ty) (span : Span) :
    Mirrored frame.bodies (check expected actual span) (check expected actual span) :=
  .ite .rfl (.pure ()) (twins_report _ _ span)

/-- What is the same in both units and only touches scopes, slots and findings stays in step. -/
theorem mirrored_of_local {action : Lowering Value}
    (kept : ∀ body, (action body).2.draft.imports = body.draft.imports ∧
      (action body).2.draft.routines = body.draft.routines ∧
      (action body).2.draft.lambdas = body.draft.lambdas)
    (same : ∀ {body body'}, frame.bodies.alike body body' →
      (action body').1 = (action body).1 ∧ (action body').2.scopes = (action body).2.scopes ∧
        (action body').2.nextSlot = (action body).2.nextSlot ∧
        ∃ added, (action body).2.draft.findings = added ++ body.draft.findings ∧
          (action body').2.draft.findings = added ++ body'.draft.findings) :
    Mirrored frame.bodies action action where
  within body ended := by
    obtain ⟨imports, routines, lambdas⟩ := kept body
    exact ⟨imports ▸ ended.imports, routines ▸ ended.size, lambdas ▸ ended.lambdas⟩
  within' body ended := by
    obtain ⟨imports, routines, lambdas⟩ := kept body
    exact ⟨imports ▸ ended.imports, routines ▸ ended.size, lambdas ▸ ended.lambdas⟩
  alike {body body'} alike _ _ := by
    obtain ⟨value, scopes, slot, more, findings, findings'⟩ := same alike
    obtain ⟨imports, routines, lambdas⟩ := kept body
    obtain ⟨imports', routines', lambdas'⟩ := kept body'
    obtain ⟨added, before, before'⟩ := alike.1.findings
    refine ⟨value, ?_, scopes, slot⟩
    refine ⟨⟨more ++ added, ?_, ?_⟩, ?_, ?_, ?_, ?_, ?_, ?_, ?_⟩
    · rw [findings, before, List.append_assoc]
    · rw [findings', before', List.append_assoc]
    · rw [lambdas, lambdas']
      exact alike.1.lambdas
    · rw [routines, routines']
      exact alike.1.size
    · rw [routines, routines']
      exact alike.1.routines
    · rw [imports]
      exact alike.1.imports
    · rw [imports']
      exact alike.1.imports'
    · rw [imports, imports']
      exact alike.1.gained
    · rw [imports, imports']
      exact alike.1.gained'

theorem twins_resolve {setting setting' : Setting}
    (reordered : SettingsReordered frame.references frame.renumbering setting setting')
    (written : Syntax.TypeExpression) :
    Mirrored frame.bodies (resolve setting written) (resolve setting' written) := by
  have same : resolve setting' written = resolve setting written := by
    unfold resolve
    rw [reordered.references, reordered.references', reordered.ownerName,
      resolveType_of_move reordered.types.names reordered.types.distinct]
  rw [same]
  exact twins_onDraft (Draft.twins_resolveType _ _ _ written)

theorem twins_allocate : Mirrored frame.bodies allocate allocate :=
  mirrored_of_local (fun _ ↦ ⟨rfl, rfl, rfl⟩) fun alike ↦
    ⟨alike.2.2, alike.2.1, congrArg (· + 1) alike.2.2, [], rfl, rfl⟩

theorem twins_declareLocal (name : String) (type : Ty) (lint : Option Span) :
    Mirrored frame.bodies (declareLocal name type lint) (declareLocal name type lint) := by
  refine mirrored_of_local (fun body ↦ ?_) fun {body body'} alike ↦ ?_
  · obtain ⟨draft, scopes, nextSlot⟩ := body
    cases scopes <;> exact ⟨rfl, rfl, rfl⟩
  · obtain ⟨draft, scopes, nextSlot⟩ := body
    obtain ⟨draft', scopes', nextSlot'⟩ := body'
    obtain ⟨-, rfl, rfl⟩ := alike
    cases scopes' <;> exact ⟨rfl, rfl, rfl, [], rfl, rfl⟩

theorem twins_openScope : Mirrored frame.bodies openScope openScope :=
  mirrored_of_local (fun _ ↦ ⟨rfl, rfl, rfl⟩) fun alike ↦
    ⟨rfl, congrArg ([] :: ·) alike.2.1, alike.2.2, [], rfl, rfl⟩

theorem twins_closeScope : Mirrored frame.bodies closeScope closeScope := by
  refine mirrored_of_local (fun body ↦ ?_) fun {body body'} alike ↦ ?_
  · obtain ⟨draft, scopes, nextSlot⟩ := body
    cases scopes <;> exact ⟨rfl, rfl, rfl⟩
  · obtain ⟨draft, scopes, nextSlot⟩ := body
    obtain ⟨draft', scopes', nextSlot'⟩ := body'
    obtain ⟨-, rfl, rfl⟩ := alike
    cases scopes' with
    | nil => exact ⟨rfl, rfl, rfl, [], rfl, rfl⟩
    | cons scope outer => exact ⟨rfl, rfl, rfl, _, rfl, rfl⟩

theorem twins_lookup (name : String) : Mirrored frame.bodies (lookup name) (lookup name) := by
  refine mirrored_of_local (fun body ↦ ?_) fun {body body'} alike ↦ ?_
  · rw [(lookup_apply name body).2.2.1]
    exact ⟨rfl, rfl, rfl⟩
  · rw [lookup_eq, lookup_eq, alike.2.1]
    cases findAndMark name body.scopes with
    | some found => exact ⟨rfl, rfl, alike.2.2, [], rfl, rfl⟩
    | none => exact ⟨rfl, alike.2.1, alike.2.2, [], rfl, rfl⟩

theorem twins_lookupTarget (name : String) :
    Mirrored frame.bodies (lookupTarget name) (lookupTarget name) :=
  mirrored_of_local (fun _ ↦ ⟨rfl, rfl, rfl⟩) fun alike ↦
    ⟨congrArg (List.findSome? (findIn name)) alike.2.1, alike.2.1, alike.2.2, [], rfl, rfl⟩

/-! ### Routines inside routines -/

theorem twins_alone {action : Lowering Value} {twin : Lowering Other}
    (inner : Twinned frame.bodies see action twin) :
    Twinned frame.drafts (Prod.map see id) (alone action) (alone twin) where
  within draft ended := inner.within ⟨draft, [[]], 0⟩ ended
  within' draft ended := inner.within' ⟨draft, [[]], 0⟩ ended
  alike {draft draft'} alike ended ended' := by
    have start : frame.bodies.alike ⟨draft, [[]], 0⟩ ⟨draft', [[]], 0⟩ := ⟨alike, rfl, rfl⟩
    obtain ⟨same, after, -, slot⟩ := inner.alike start ended ended'
    exact ⟨Prod.ext same slot, after⟩

/-- A routine that is reserved, compiled and completed has a twin that is, too. -/
theorem twins_addRoutine (sound : frame.Sound) [Covers see] {routine routine' : Routine}
    (same : routine.Renumbered frame.renumbering routine') {code : Value → List Op}
    {code' : Other → List Op} {action : Lowering Value} {twin : Lowering Other}
    (inner : Twinned frame.bodies see action twin)
    (seen : ∀ value, code' (see value) = frame.renumbering.code (code value)) :
    Twinned frame.drafts (Prod.map frame.renumbering.routines see) (addRoutine routine code action)
      (addRoutine routine' code' twin) := by
  have reserved := Draft.twins_reserve sound same
  have compiled := twins_alone inner
  have within {last middle : Draft} {index : RoutineIndex} {code : List Op} {locals : Nat}
      (ended : (Draft.complete index code locals middle).2.Within last) : middle.Within last := by
    refine ⟨ended.imports, ?_, ended.lambdas⟩
    have size := ended.size
    change (middle.routines.modify _ _).size ≤ _ at size
    rwa [Array.size_modify] at size
  refine ⟨fun draft ended ↦ reserved.within draft (compiled.within _ (within ended)),
    fun draft ended ↦ reserved.within' draft (compiled.within' _ (within ended)), ?_⟩
  intro draft draft' alike ended ended'
  have inside := within ended
  have inside' := within ended'
  obtain ⟨index, between⟩ := reserved.alike alike (compiled.within _ inside)
    (compiled.within' _ inside')
  obtain ⟨value, after⟩ := compiled.alike between inside inside'
  obtain ⟨count, size, size'⟩ := alike.size
  refine ⟨Prod.ext index (congrArg Prod.fst value), ?_⟩
  have filled := Draft.alike_complete after count
    (code (alone action (Draft.reserve routine draft).2).1.1)
    (alone action (Draft.reserve routine draft).2).1.2
  rw [← seen, ← size, ← size'] at filled
  have slots : (alone twin (Draft.reserve routine' draft').2).1.2
      = (alone action (Draft.reserve routine draft).2).1.2 := congrArg Prod.snd value
  have code : (alone twin (Draft.reserve routine' draft').2).1.1
      = see (alone action (Draft.reserve routine draft).2).1.1 := congrArg Prod.fst value
  change frame.Alike _ (Draft.complete draft'.routines.size
    (code' (alone twin (Draft.reserve routine' draft').2).1.1)
    (alone twin (Draft.reserve routine' draft').2).1.2 _).2
  rw [slots, code]
  exact filled

end Lowering

end GuestScript.Compile
