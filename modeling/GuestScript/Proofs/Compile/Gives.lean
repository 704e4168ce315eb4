import GuestScript.Proofs.Compile.Growth
import GuestScript.Proofs.Compile.Translation
import GuestScript.Proofs.Compile.WholeTypes
import GuestScript.Proofs.Meaning.Holders

/-!
# What compiling gives

`Installed program references before after` says that what was added between two drafts is in a
program, and that no mistake was found until then. `Gives` says what holds of the result of an
action if what it adds is installed: for actions that leave the variables in scope as they are, of
which only the draft changes. `Leads` is the same for actions that bring variables into scope or
take slots. Both also say that each routine that the action adds is that of a lambda, and both are
proved by following the binds of an action.
-/

namespace GuestScript.Compile

open Bytecode (Op Routine RoutineIndex)
open Lowering
open Machine (Program)
open Meaning (Scope Variable)
open Syntax

/-- What was added between two drafts is in a program, and no mistake was found until then. -/
structure Installed (program : Program) (references : ReferenceSet) (before after : Draft) :
    Prop where
  quiet : after.Quiet
  routines : ∀ {index : Nat}, before.routines.size ≤ index → index < after.routines.size →
    program.image.routines[index]? = after.routines[index]?
  hosts : ∀ {index : Nat} {imported : Bytecode.Import} {binding : ModuleBinding}
    {function : HostFunction}, after.imports[index]? = some imported →
    references.lookup? imported.moduleName = some binding →
    binding.host.function? imported.function = some function →
    program.hosts[index]?
      = some ⟨imported.moduleName ++ "::" ++ imported.function, function.action⟩

namespace Installed

variable {program : Program} {references : ReferenceSet} {before middle after : Draft}

theorem first (installed : Installed program references before after)
    (grown : middle.Extends after) : Installed program references before middle := by
  refine ⟨installed.quiet.of_extends grown, fun later inside ↦ ?_, fun known ↦ ?_⟩
  · rw [installed.routines later (Nat.lt_of_lt_of_le inside grown.size), grown.routines inside]
  · exact installed.hosts (grown.imports known)

theorem second (installed : Installed program references before after)
    (grown : before.Extends middle) : Installed program references middle after :=
  ⟨installed.quiet, fun later ↦ installed.routines (Nat.le_trans grown.size later),
    installed.hosts⟩

end Installed

/-- What all the bodies of a unit share: the modules that they may use and the types. -/
structure Home where
  references : ReferenceSet
  types : List TypeInfo

/-- What a body shares with the other bodies of its unit. -/
def Setting.home (setting : Setting) : Home :=
  ⟨setting.references, setting.types⟩

/-- Every routine that was added between two drafts is that of a lambda. -/
def Draft.AddsLambdas (program : Program) (home : Home) (before after : Draft) : Prop :=
  ∀ index, before.routines.size ≤ index → index < after.routines.size →
    Meaning.IsLambda program home.references home.types index

theorem Draft.AddsLambdas.none {program : Program} {home : Home} {before after : Draft}
    (few : after.routines.size ≤ before.routines.size) : before.AddsLambdas program home after :=
  fun _ later inside ↦ absurd inside (Nat.not_lt.mpr (Nat.le_trans few later))

theorem Draft.AddsLambdas.trans {program : Program} {home : Home} {before middle after : Draft}
    (first : before.AddsLambdas program home middle)
    (second : middle.AddsLambdas program home after) : before.AddsLambdas program home after := by
  intro index later inside
  by_cases early : index < middle.routines.size
  · exact first index later early
  · exact second index (Nat.le_of_not_lt early) inside

/-- These variables are in scope, and so many lambdas come before. -/
structure Body.Has (body : Body) (scope : Scope Nat) (number : Nat) : Prop where
  scope : body.scope = scope
  lambdas : body.draft.lambdas = number

variable {program : Program} {home : Home} {scope : Scope Nat} {number : Nat}
  {Value Other : Type} {count more : Nat}

theorem Body.Has.follow {body : Body} {action : Lowering Value} (has : body.Has scope number)
    (steady : Steady count action) : (action body).2.Has scope (number + count) := by
  refine ⟨?_, ?_⟩
  · rw [Body.scope, (steady.2 body).1]
    exact has.scope
  · rw [(steady.1 body).2, has.lambdas]

/-! ## Actions that leave the variables as they are -/

/-- What holds of the result of an action if what it adds is installed: lambdas and nothing else. -/
def Gives (program : Program) (home : Home) (scope : Scope Nat) (number : Nat)
    (action : Lowering Value) (holds : Value → Prop) : Prop :=
  ∀ body : Body, body.Has scope number →
    Installed program home.references body.draft (action body).2.draft →
    holds (action body).1 ∧ body.draft.AddsLambdas program home (action body).2.draft

namespace Gives

variable {action : Lowering Value} {next : Value → Lowering Other} {first : Value → Prop}
  {holds : Other → Prop} {code : Code} {message : String} {span : Span}

theorem pure {value : Other} (result : holds value) :
    Gives program home scope number (Pure.pure value) holds :=
  fun _ _ _ ↦ ⟨result, .none (Nat.le_refl _)⟩

theorem mono {weaker : Value → Prop} (gives : Gives program home scope number action first)
    (weaken : ∀ value, first value → weaker value) :
    Gives program home scope number action weaker :=
  fun body has installed ↦ (gives body has installed).imp_left (weaken _)

/-- What follows an action may rely on its result. -/
theorem bind (gives : Gives program home scope number action first)
    (steady : Steady count action) (grown : ∀ value, Grows more (next value))
    (rest : ∀ value, first value →
      Gives program home scope (number + count) (next value) holds) :
    Gives program home scope number (action >>= next) holds := by
  intro body has installed
  rw [bind_apply] at installed ⊢
  obtain ⟨result, lambdas⟩ := gives body has (installed.first (grown _ _).1)
  obtain ⟨result', lambdas'⟩ := rest _ result _ (has.follow steady)
    (installed.second (steady.1 body).1)
  exact ⟨result', lambdas.trans lambdas'⟩

/-- The result of an action is put into a form. -/
theorem map {make : Value → Other}
    (gives : Gives program home scope number action fun value ↦ holds (make value)) :
    Gives program home scope number (action >>= fun value ↦ Pure.pure (make value)) holds :=
  fun body has installed ↦ gives body has installed

/-- After a mistake, there is nothing to show. -/
theorem report {holds : Unit → Prop} :
    Gives program home scope number (Lowering.report code message span) holds :=
  fun body _ installed ↦ absurd installed.quiet (Draft.not_quiet_report code message span body.draft)

theorem mistake {holds : Ty → Prop} :
    Gives program home scope number (Lowering.mistake code message span) holds :=
  map report

/-- After a mistake, there is nothing to show of what follows. -/
theorem report_bind {next : Unit → Lowering Other} (grown : ∀ value, Grows more (next value)) :
    Gives program home scope number (Lowering.report code message span >>= next) holds :=
  bind (report : Gives _ _ _ _ _ fun _ ↦ False) (steady_report code message span) grown nofun

theorem mistake_bind {next : Ty → Lowering Other} (grown : ∀ value, Grows more (next value)) :
    Gives program home scope number (Lowering.mistake code message span >>= next) holds :=
  bind (mistake : Gives _ _ _ _ _ fun _ ↦ False) (steady_mistake code message span) grown nofun

/-- A check that finds no mistake has succeeded. -/
theorem check {expected actual : Ty} :
    Gives program home scope number (Lowering.check expected actual span)
      fun _ ↦ expected.admits actual = true := by
  intro body has installed
  rw [Lowering.check] at installed ⊢
  split at installed
  · next admitted =>
      rw [if_pos admitted]
      exact ⟨admitted, .none (Nat.le_refl _)⟩
  · exact absurd installed.quiet (Draft.not_quiet_report _ _ span body.draft)

/-- Looking up a variable adds nothing. -/
theorem lookup_bind {name : String} {next : Option Local → Lowering Other}
    (rest : ∀ found, found.map Local.variable = scope.named? name →
      Gives program home scope number (next found) holds) :
    Gives program home scope number (Lowering.lookup name >>= next) holds := by
  intro body has installed
  rw [bind_apply] at installed ⊢
  obtain ⟨found, -, sameDraft, -⟩ := lookup_apply name body
  rw [← sameDraft] at installed ⊢
  exact rest _ (has.scope ▸ found) _ (has.follow (steady_lookup name)) installed

theorem lookupTarget_bind {name : String} {next : Option Local → Lowering Other}
    (rest : ∀ found, found.map Local.variable = scope.named? name →
      Gives program home scope number (next found) holds) :
    Gives program home scope number (Lowering.lookupTarget name >>= next) holds :=
  fun body has installed ↦ rest _ (has.scope ▸ (lookupTarget_apply name body).1) body has installed

theorem nextLambda :
    Gives program home scope number (onDraft Draft.nextLambda)
      fun given ↦ given = number + 1 := by
  intro body has _
  rw [← has.lambdas]
  exact ⟨rfl, .none (Nat.le_refl _)⟩

/-- An import of a function that may be used is bound to what the function does. -/
theorem importIndex {imported : Bytecode.Import} {binding : ModuleBinding}
    {function : HostFunction} (known : home.references.lookup? imported.moduleName = some binding)
    (offered : binding.host.function? imported.function = some function) :
    Gives program home scope number (onDraft (Draft.importIndex imported)) fun index ↦
      program.hosts[index]?
        = some ⟨imported.moduleName ++ "::" ++ imported.function, function.action⟩ := by
  intro body _ installed
  change Installed program home.references body.draft (Draft.importIndex imported body.draft).2
    at installed
  change program.hosts[(Draft.importIndex imported body.draft).1]? = _
    ∧ body.draft.AddsLambdas program home (Draft.importIndex imported body.draft).2
  rw [Draft.importIndex_apply] at installed ⊢
  cases found : body.draft.imports.findIdx? (Draft.isImport imported) with
  | none =>
      simp only [found] at installed ⊢
      exact ⟨installed.hosts Array.getElem?_push_size known offered, .none (Nat.le_refl _)⟩
  | some index =>
      simp only [found] at installed ⊢
      obtain ⟨inside, same, -⟩ := Array.findIdx?_eq_some_iff_getElem.mp found
      simp only [Draft.isImport, Bool.and_eq_true, decide_eq_true_eq] at same
      rw [← same.1] at known ⊢
      rw [← same.2] at offered ⊢
      exact ⟨installed.hosts (Array.getElem?_eq_getElem inside) known offered,
        .none (Nat.le_refl _)⟩

end Gives

/-! ## Actions that bring variables into scope -/

/-- What holds of the result of an action, of the variables in scope afterwards and of the next free
slot, if what the action adds is installed: lambdas and nothing else. -/
def Leads (program : Program) (home : Home) (view : List (Scope Nat))
    (slot number : Nat) (action : Lowering Value)
    (holds : Value → List (Scope Nat) → Nat → Prop) : Prop :=
  ∀ body : Body, body.view = view → body.nextSlot = slot → body.draft.lambdas = number →
    Installed program home.references body.draft (action body).2.draft →
    holds (action body).1 (action body).2.view (action body).2.nextSlot ∧
      body.draft.AddsLambdas program home (action body).2.draft

namespace Leads

variable {view outer : List (Scope Nat)} {slot : Nat} {action : Lowering Value}
  {next : Value → Lowering Other} {first : Value → List (Scope Nat) → Nat → Prop}
  {holds : Other → List (Scope Nat) → Nat → Prop} {type : Ty}

theorem pure {value : Other} (result : holds value view slot) :
    Leads program home view slot number (Pure.pure value) holds := by
  intro body sameView sameSlot _ _
  exact ⟨sameSlot ▸ sameView ▸ result, .none (Nat.le_refl _)⟩

theorem mono {weaker : Value → List (Scope Nat) → Nat → Prop}
    (leads : Leads program home view slot number action first)
    (weaken : ∀ value view slot, first value view slot → weaker value view slot) :
    Leads program home view slot number action weaker :=
  fun body sameView sameSlot numbered installed ↦
    (leads body sameView sameSlot numbered installed).imp_left (weaken _ _ _)

/-- What follows an action may rely on its result. -/
theorem bind (leads : Leads program home view slot number action first)
    (growing : Grows count action) (grown : ∀ value, Grows more (next value))
    (rest : ∀ value view slot, first value view slot →
      Leads program home view slot (number + count) (next value) holds) :
    Leads program home view slot number (action >>= next) holds := by
  intro body sameView sameSlot numbered installed
  rw [bind_apply] at installed ⊢
  obtain ⟨result, lambdas⟩ := leads body sameView sameSlot numbered
    (installed.first (grown _ _).1)
  obtain ⟨result', lambdas'⟩ := rest _ _ _ result _ rfl rfl (by rw [(growing body).2, numbered])
    (installed.second (growing body).1)
  exact ⟨result', lambdas.trans lambdas'⟩

/-- The result of an action is put into a form. -/
theorem map {make : Value → Other} (leads : Leads program home view slot number action
      fun value ↦ holds (make value)) :
    Leads program home view slot number
      (action >>= fun value ↦ Pure.pure (make value)) holds :=
  fun body sameView sameSlot numbered installed ↦ leads body sameView sameSlot numbered installed

/-- An action that leaves the variables as they are leads to the same ones. -/
theorem of_gives {first : Value → Prop}
    (gives : Gives program home view.flatten number action first)
    (steady : Steady count action) : Leads program home view slot number action
      fun value view' slot' ↦ first value ∧ view' = view ∧ slot' = slot := by
  intro body sameView sameSlot numbered installed
  have has : body.Has view.flatten number := ⟨by rw [Body.scope, sameView], numbered⟩
  obtain ⟨result, lambdas⟩ := gives body has installed
  refine ⟨⟨result, ?_, ?_⟩, lambdas⟩
  · rw [(steady.2 body).1, sameView]
  · rw [(steady.2 body).2, sameSlot]

/-- What follows an action that leaves the variables as they are may rely on its result. -/
theorem bind_gives {first : Value → Prop}
    (gives : Gives program home view.flatten number action first)
    (steady : Steady count action) (grown : ∀ value, Grows more (next value))
    (rest : ∀ value, first value →
      Leads program home view slot (number + count) (next value) holds) :
    Leads program home view slot number (action >>= next) holds := by
  refine bind (of_gives gives steady) steady.1 grown ?_
  rintro value view' slot' ⟨result, rfl, rfl⟩
  exact rest value result

theorem pure_bind {value : Value} (rest : Leads program home view slot number (next value)
    holds) : Leads program home view slot number (Pure.pure value >>= next) holds :=
  rest

/-- After a mistake, there is nothing to show of what follows. -/
theorem report_bind {next : Unit → Lowering Other} {code : Code} {message : String} {span : Span}
    (grown : ∀ value, Grows more (next value)) :
    Leads program home view slot number (Lowering.report code message span >>= next) holds :=
  bind_gives (Gives.report : Gives _ _ _ _ _ fun _ ↦ False) (steady_report code message span) grown
    nofun

theorem allocate_bind {next : Nat → Lowering Other}
    (rest : Leads program home view (slot + 1) number (next slot) holds) :
    Leads program home view slot number (Lowering.allocate >>= next) holds := by
  intro body sameView sameSlot numbered installed
  subst sameSlot
  exact rest { body with nextSlot := body.nextSlot + 1 } sameView rfl numbered installed

theorem declareLocal_bind {next : Nat → Lowering Other} {name : String} {lint : Option Span}
    (rest : Leads program home ((⟨name, type, slot⟩ :: scope) :: outer) (slot + 1) number
      (next slot) holds) :
    Leads program home (scope :: outer) slot number
      (Lowering.declareLocal name type lint >>= next) holds := by
  intro body sameView sameSlot numbered installed
  obtain ⟨draft, scopes, slot'⟩ := body
  cases scopes with
  | nil => exact absurd sameView (List.cons_ne_nil _ _).symm
  | cons inner others =>
      obtain ⟨sameInner, sameOthers⟩ := List.cons.inj sameView
      subst sameSlot
      refine rest ⟨draft, (⟨name, slot', type, false, lint⟩ :: inner) :: others, slot' + 1⟩
        ?_ rfl numbered installed
      rw [← sameOthers, ← sameInner]
      rfl

theorem openScope_bind {next : Unit → Lowering Other}
    (rest : Leads program home ([] :: view) slot number (next ()) holds) :
    Leads program home view slot number (Lowering.openScope >>= next) holds := by
  intro body sameView sameSlot numbered installed
  subst sameView
  exact rest { body with scopes := [] :: body.scopes } rfl sameSlot numbered installed

theorem closeScope_bind {next : Unit → Lowering Other}
    (rest : Leads program home outer slot number (next ()) holds) :
    Leads program home (scope :: outer) slot number (Lowering.closeScope >>= next) holds := by
  intro body sameView sameSlot numbered installed
  have grown := (grows_closeScope body).1
  obtain ⟨draft, scopes, slot'⟩ := body
  cases scopes with
  | nil => exact absurd sameView (List.cons_ne_nil _ _).symm
  | cons inner others =>
      obtain ⟨-, sameOthers⟩ := List.cons.inj sameView
      exact rest (Lowering.closeScope ⟨draft, inner :: others, slot'⟩).2 sameOthers sameSlot
        numbered (installed.second grown)

end Leads

/-! ## Routines -/

/-- A routine that is compiled on its own ends up in the program, and the routines that are added
with it are those of lambdas. -/
theorem addRoutine_installed {action : Lowering Value} {routine : Routine}
    {code : Value → List Op} {holds : Value → Nat → Prop} {draft : Draft}
    (inner : Leads program home [[]] 0 number action fun value _ slot ↦ holds value slot)
    (grown : Grows count action) (numbered : draft.lambdas = number)
    (installed : Installed program home.references draft (addRoutine routine code action draft).2) :
    (∃ locals, program.image.routines[draft.routines.size]?
        = some { routine with
          code := (code (addRoutine routine code action draft).1.2).toArray, locals } ∧
      holds (addRoutine routine code action draft).1.2 locals) ∧
    (Draft.reserve routine draft).2.AddsLambdas program home
      (addRoutine routine code action draft).2 := by
  let reserved : Body := ⟨(Draft.reserve routine draft).2, [[]], 0⟩
  let index := draft.routines.size
  have added : reserved.draft.routines[index]? = some routine := Array.getElem?_push_size
  have size : reserved.draft.routines.size = index + 1 := Array.size_push _
  have growth := (grown reserved).1
  -- closing the routine changes its own entry and no other
  have final (other : Nat) : (addRoutine routine code action draft).2.routines[other]?
      = if index = other then ((action reserved).2.draft.routines[other]?).map fun routine ↦
          { routine with
            code := (code (action reserved).1).toArray, locals := (action reserved).2.nextSlot }
        else (action reserved).2.draft.routines[other]? :=
    Array.getElem?_modify
  have finalSize : (addRoutine routine code action draft).2.routines.size
      = (action reserved).2.draft.routines.size :=
    Array.size_modify
  -- behind the reserved entry, the body has left what the program has
  have inside : Installed program home.references reserved.draft (action reserved).2.draft := by
    refine ⟨installed.quiet, ?_, installed.hosts⟩
    intro other later inside
    rw [installed.routines (by omega) (finalSize ▸ inside), final, if_neg (by omega)]
  obtain ⟨result, lambdas⟩ := inner reserved rfl rfl numbered inside
  refine ⟨⟨(action reserved).2.nextSlot, ?_, result⟩, fun other later inside ↦ ?_⟩
  · have here : index < (action reserved).2.draft.routines.size :=
      Nat.lt_of_lt_of_le (size ▸ Nat.lt_succ_self index) growth.size
    rw [installed.routines (Nat.le_refl _) (finalSize ▸ here), final, if_pos rfl,
      growth.routines (size ▸ Nat.lt_succ_self index), added]
    rfl
  · exact lambdas other later (finalSize ▸ inside)

/-- A routine that is compiled inside another one ends up in the program. It has to be that of a
lambda. -/
theorem Gives.addRoutine {action : Lowering Value} {routine : Routine} {code : Value → List Op}
    {holds : Value → Nat → Prop}
    (inner : Leads program home [[]] 0 number action fun value _ slot ↦ holds value slot)
    (grown : Grows count action)
    (isLambda : ∀ {index value locals}, program.image.routines[index]?
        = some { routine with code := (code value).toArray, locals } → holds value locals →
      Meaning.IsLambda program home.references home.types index) :
    Gives program home scope number (onDraft (addRoutine routine code action)) fun result ↦
      ∃ locals, program.image.routines[result.1]?
          = some { routine with code := (code result.2).toArray, locals } ∧
        holds result.2 locals := by
  intro body has installed
  obtain ⟨⟨locals, added, result⟩, lambdas⟩ := addRoutine_installed inner grown has.lambdas
    installed
  refine ⟨⟨locals, added, result⟩, fun index later inside ↦ ?_⟩
  obtain rfl | later := Nat.eq_or_lt_of_le later
  · exact isLambda added result
  · exact lambdas index (Array.size_push _ ▸ later) inside

end GuestScript.Compile
