import GuestScript.Meaning.Watching
import GuestScript.Proofs.Compile.Accepted

/-!
# Compiling under a watch

`Undisturbed` says of an action that it does the same under a watch as without one, and what its
result is like if no error has been found until then. It is proved by following the binds of an
action. What an action needs is only asked of states without an error: behind an error the
compilation goes on with types of which nothing is known.

`Watch.Spares` is what is asked of the watch. If `calm`, it does nothing where an error has been
found before. Otherwise only runs that find no error are looked at, in which there are no such
states.
-/

namespace GuestScript.Compile

open Bytecode (Import Op Routine RoutineIndex)
open Lowering
open Meaning (Scope)
open Syntax

/-! ## Actions under a watch -/

/-- From a sound state with what it needs, or one in which an error has been found, an action does
the same under a watch as without one. If no error has been found until then, the state is sound
again and the result is as said. If not `calm`, only runs without an error matter. -/
structure Undisturbed {State Value : Type} (quiet sound : State → Prop) (calm needs : Prop)
    (watched plain : StateM State Value) (gives : Value → Prop) : Prop where
  quiet_before : ∀ state, quiet (plain state).2 → quiet state
  same : ∀ state, (quiet state → needs ∧ sound state) → calm ∨ quiet (plain state).2 →
    watched state = plain state ∧
      (quiet (plain state).2 → gives (plain state).1 ∧ sound (plain state).2)

namespace Undisturbed

variable {State Value Other : Type} {quiet sound : State → Prop} {calm needs : Prop}
  {watched plain : StateM State Value} {gives : Value → Prop} {gives' : Other → Prop}

/-- An action that the watch is told nothing of. -/
theorem of_plain (quiet_before : ∀ state, quiet (plain state).2 → quiet state)
    (keeps : ∀ state, needs → sound state → quiet (plain state).2 →
      gives (plain state).1 ∧ sound (plain state).2) :
    Undisturbed quiet sound calm needs plain plain gives := by
  refine ⟨quiet_before, fun state given _ ↦ ⟨rfl, fun after ↦ ?_⟩⟩
  obtain ⟨needed, sound'⟩ := given (quiet_before state after)
  exact keeps state needed sound' after

protected theorem pure {value : Value} (result : needs → gives value) :
    Undisturbed quiet sound calm needs (Pure.pure value) (Pure.pure value) gives :=
  of_plain (fun _ same ↦ same) fun _ needed sound' _ ↦ ⟨result needed, sound'⟩

/-- What follows an action may rely on its result. -/
protected theorem bind {next next' : Value → StateM State Other}
    (first : Undisturbed quiet sound calm needs watched plain gives)
    (second : ∀ value, Undisturbed quiet sound calm (needs ∧ gives value) (next value) (next' value)
      gives') : Undisturbed quiet sound calm needs (watched >>= next) (plain >>= next') gives' := by
  refine ⟨fun state after ↦ first.quiet_before _ ((second _).quiet_before _ after), ?_⟩
  intro state given still
  -- a run that ends without an error has none in the middle either
  let middle := plain state
  obtain ⟨same, after⟩ := first.same state given
    (still.imp_right ((second middle.1).quiet_before middle.2))
  obtain ⟨same', after'⟩ := (second middle.1).same middle.2
    (fun here ↦ ⟨⟨(given (first.quiet_before state here)).1, (after here).1⟩, (after here).2⟩) still
  refine ⟨?_, after'⟩
  change next (watched state).1 (watched state).2 = _
  rw [same]
  exact same'

protected theorem map {make : Value → Other}
    (first : Undisturbed quiet sound calm needs watched plain gives)
    (result : ∀ value, needs → gives value → gives' (make value)) :
    Undisturbed quiet sound calm needs (watched >>= fun value ↦ Pure.pure (make value))
      (plain >>= fun value ↦ Pure.pure (make value)) gives' :=
  first.bind fun value ↦ .pure fun given ↦ result value given.1 given.2

/-- Less may be needed in a place, and less may be used of a result. -/
theorem mono {more : Prop} {weaker : Value → Prop}
    (first : Undisturbed quiet sound calm needs watched plain gives) (needed : more → needs)
    (weaken : ∀ value, more → gives value → weaker value) :
    Undisturbed quiet sound calm more watched plain weaker := by
  refine ⟨first.quiet_before, fun state given still ↦ ?_⟩
  obtain ⟨same, after⟩ := first.same state (fun here ↦ (given here).imp_left needed) still
  exact ⟨same, fun here ↦
    (after here).imp_left (weaken _ (given (first.quiet_before state here)).1)⟩

theorem needing {more : Prop} (first : Undisturbed quiet sound calm needs watched plain gives)
    (needed : more → needs) : Undisturbed quiet sound calm more watched plain gives :=
  first.mono needed fun _ _ given ↦ given

/-- Where an error has been found, anything goes. -/
theorem absurd (first : Undisturbed quiet sound calm needs watched plain fun _ ↦ False) :
    Undisturbed quiet sound calm needs watched plain gives :=
  first.mono id fun _ _ ↦ False.elim

/-- The watch is told something about a result. -/
theorem tell {told : Value → StateM State Unit}
    (first : Undisturbed quiet sound calm needs watched plain gives)
    (silent : ∀ value, Undisturbed quiet sound calm (needs ∧ gives value) (told value)
      (Pure.pure ()) fun _ ↦ True) :
    Undisturbed quiet sound calm needs
      (watched >>= fun value ↦ told value >>= fun _ ↦ Pure.pure value) plain gives :=
  have whole : Undisturbed quiet sound calm needs
      (watched >>= fun value ↦ told value >>= fun _ ↦ Pure.pure value)
      (plain >>= fun value ↦ Pure.pure () >>= fun _ ↦ Pure.pure value) gives :=
    first.bind fun value ↦ (silent value).map fun _ given _ ↦ given.2
  whole

/-- The watch is told something before an action. -/
theorem after_telling {told : StateM State Unit}
    (silent : Undisturbed quiet sound calm needs told (Pure.pure ()) fun _ ↦ True)
    (second : Undisturbed quiet sound calm needs watched plain gives) :
    Undisturbed quiet sound calm needs (told >>= fun _ ↦ watched) plain gives :=
  have whole : Undisturbed quiet sound calm needs (told >>= fun _ ↦ watched)
      (Pure.pure () >>= fun _ ↦ plain) gives :=
    silent.bind fun _ ↦ second.needing And.left
  whole

end Undisturbed

/-- A watch does nothing at a type or a comparison if there is no poison in it, or some because an
error has been found before. If not `calm`, only drafts without an error matter. -/
structure Watch.Spares (calm : Prop) (watch : Watch) : Prop where
  computed : ∀ {type : Ty} {draft : Draft}, (draft.Quiet → type.isWhole true = true) →
    calm ∨ draft.Quiet → watch.computed type draft = ((), draft)
  compared : ∀ {expected actual : Ty} {binding : Option Ty} {draft : Draft},
    (draft.Quiet → expected.ComparesSoberly actual binding) → calm ∨ draft.Quiet →
    watch.compared expected actual binding draft = ((), draft)

/-! ### Actions on drafts -/

namespace Draft

variable {Value : Type} {calm needs : Prop} {watch : Watch}

/-- An action on a draft does the same under a watch. -/
abbrev Undisturbed (calm needs : Prop) (watched plain : Drafting Value) (gives : Value → Prop) :
    Prop :=
  Compile.Undisturbed Quiet (fun _ ↦ True) calm needs watched plain gives

theorem quiet_of_note {finding : Diagnostic Span} {draft : Draft}
    (quiet : (note finding draft).2.Quiet) : draft.Quiet :=
  quiet.of_extends (extends_note finding draft)

/-- After an error has been reported, nothing has to be shown. -/
theorem undisturbed_report {code : Code} {message : String} {span : Span} :
    Undisturbed calm needs (report code message span) (report code message span) fun _ ↦ False :=
  .of_plain (fun _ ↦ quiet_of_note) fun draft _ _ quiet ↦
    absurd quiet (not_quiet_report code message span draft)

theorem undisturbed_reserve (routine : Routine) :
    Undisturbed calm needs (reserve routine) (reserve routine) fun _ ↦ True :=
  .of_plain (fun _ quiet ↦ quiet) fun _ _ _ _ ↦ ⟨trivial, trivial⟩

theorem undisturbed_complete (index : RoutineIndex) (code : List Op) (locals : Nat) :
    Undisturbed calm needs (complete index code locals) (complete index code locals)
      fun _ ↦ True :=
  .of_plain (fun _ quiet ↦ quiet) fun _ _ _ _ ↦ ⟨trivial, trivial⟩

theorem undisturbed_computed (spares : watch.Spares calm) {type : Ty}
    (closed : needs → type.IsClosed) :
    Undisturbed calm needs (watch.computed type) (Pure.pure ()) fun _ ↦ True :=
  ⟨fun _ quiet ↦ quiet, fun _ given still ↦
    ⟨spares.computed (fun quiet ↦ (closed (given quiet).1).isWhole) still,
      fun _ ↦ ⟨trivial, trivial⟩⟩⟩

theorem undisturbed_compared (spares : watch.Spares calm) {expected actual : Ty}
    {binding : Option Ty} (sober : needs → expected.ComparesSoberly actual binding) :
    Undisturbed calm needs (watch.compared expected actual binding) (Pure.pure ()) fun _ ↦ True :=
  ⟨fun _ quiet ↦ quiet, fun _ given still ↦
    ⟨spares.compared (fun quiet ↦ sober (given quiet).1) still, fun _ ↦ ⟨trivial, trivial⟩⟩⟩

theorem undisturbed_tell (spares : watch.Spares calm) : {types : List Ty} →
    (needs → ∀ type ∈ types, type.IsClosed) →
    Undisturbed calm needs (watch.tell types) (Pure.pure ()) fun _ ↦ True
  | [], _ => .pure fun _ ↦ trivial
  | first :: rest, closed => by
      rw [Watch.tell]
      exact .after_telling
        (undisturbed_computed spares fun needed ↦ closed needed first List.mem_cons_self)
        (undisturbed_tell spares fun needed type inside ↦
          closed needed type (List.mem_cons_of_mem first inside))

/-- The watch is told the type that a written type means, which is closed unless it is a mistake. -/
theorem undisturbed_meaning (spares : watch.Spares calm)
    (references : ReferenceSet) (names : List TypeName) (namespaceName : String)
    (written : TypeExpression) : Undisturbed calm needs
      (watch.meaning references names namespaceName written)
      (resolveType references names namespaceName written) Ty.IsClosed := by
  have notes := Lowering.notes_resolveType references names namespaceName written
  refine .tell (.of_plain (fun draft quiet ↦ quiet.of_extends (notes draft).extends') ?_)
    fun type ↦ undisturbed_computed spares And.right
  intro draft _ _ quiet
  refine ⟨?_, trivial⟩
  rw [resolveType_fst]
  exact isClosed_meantType references names namespaceName written draft quiet

end Draft

/-! ### Actions on bodies -/

namespace Lowering

variable {Value Other : Type} {calm needs : Prop} {watch : Watch} {code : Code} {message : String}
  {span : Span}

/-- An action on a body does the same under a watch, where every variable in scope has a closed
type. -/
abbrev Undisturbed (calm needs : Prop) (watched plain : Lowering Value) (gives : Value → Prop) :
    Prop :=
  Compile.Undisturbed (fun body : Body ↦ body.draft.Quiet) (fun body ↦ body.scope.IsClosed) calm
    needs watched plain gives

/-- An action on a body of which a watch is told nothing. -/
abbrev Unwatched (calm needs : Prop) (action : Lowering Value) (gives : Value → Prop) : Prop :=
  Undisturbed calm needs action action gives

theorem undisturbed_onDraft {watched plain : Drafting Value} {gives : Value → Prop}
    (inner : Draft.Undisturbed calm needs watched plain gives) :
    Undisturbed calm needs (onDraft watched) (onDraft plain) gives := by
  refine ⟨fun body ↦ inner.quiet_before body.draft, fun body given still ↦ ?_⟩
  obtain ⟨same, after⟩ := inner.same body.draft (fun quiet ↦ ⟨(given quiet).1, trivial⟩) still
  refine ⟨?_, fun quiet ↦ ⟨(after quiet).1, (given (inner.quiet_before _ quiet)).2⟩⟩
  change ((watched body.draft).1, { body with draft := (watched body.draft).2 }) = _
  rw [same]
  rfl

/-- The watch is told something about a draft. -/
theorem undisturbed_telling {told : Drafting Unit}
    (silent : Draft.Undisturbed calm needs told (Pure.pure ()) fun _ ↦ True) :
    Undisturbed calm needs (onDraft told) (Pure.pure ()) fun _ ↦ True :=
  undisturbed_onDraft silent

/-- An action that leaves the variables as they are. -/
theorem unwatched_of_steady {count : Nat} {action : Lowering Value} {gives : Value → Prop}
    (steady : Steady count action)
    (result : ∀ body, needs → body.scope.IsClosed → (action body).2.draft.Quiet →
      gives (action body).1) : Unwatched calm needs action gives := by
  refine .of_plain (fun body quiet ↦ quiet.of_extends (steady.1 body).1) ?_
  intro body needed closed quiet
  refine ⟨result body needed closed quiet, ?_⟩
  rw [Body.scope, (steady.2 body).1]
  exact closed

theorem unwatched_report : Unwatched calm needs (report code message span) fun _ ↦ False :=
  undisturbed_onDraft Draft.undisturbed_report

theorem unwatched_mistake : Unwatched calm needs (mistake code message span) fun _ ↦ False :=
  unwatched_report.map fun _ _ absurd ↦ absurd

theorem unwatched_check {expected actual : Ty} :
    Unwatched calm needs (check expected actual span) fun _ ↦ True :=
  unwatched_of_steady (steady_check expected actual span) fun _ _ _ _ ↦ trivial

theorem unwatched_lookup (name : String) :
    Unwatched calm needs (lookup name) fun found ↦ ∀ present ∈ found, present.type.IsClosed := by
  refine unwatched_of_steady (steady_lookup name) fun body _ closed _ present same ↦ ?_
  have found := (lookup_apply name body).1
  rw [same, Option.map_some] at found
  exact closed _ (Scope.mem_of_named? found.symm).1

theorem unwatched_lookupTarget (name : String) : Unwatched calm needs (lookupTarget name)
    fun found ↦ ∀ present ∈ found, present.type.IsClosed := by
  refine unwatched_of_steady (steady_lookupTarget name) fun body _ closed _ present same ↦ ?_
  have found := (lookupTarget_apply name body).1
  rw [same, Option.map_some] at found
  exact closed _ (Scope.mem_of_named? found.symm).1

theorem unwatched_importIndex (wanted : Import) :
    Unwatched calm needs (onDraft (Draft.importIndex wanted)) fun _ ↦ True :=
  unwatched_of_steady (steady_importIndex wanted) fun _ _ _ _ ↦ trivial

theorem unwatched_nextLambda :
    Unwatched calm needs (onDraft Draft.nextLambda) fun _ ↦ True :=
  unwatched_of_steady steady_nextLambda fun _ _ _ _ ↦ trivial

theorem unwatched_get : Unwatched calm needs get fun _ ↦ True :=
  .of_plain (fun _ quiet ↦ quiet) fun _ _ closed _ ↦ ⟨trivial, closed⟩

theorem unwatched_allocate : Unwatched calm needs allocate fun _ ↦ True :=
  .of_plain (fun _ quiet ↦ quiet) fun _ _ closed _ ↦ ⟨trivial, closed⟩

theorem unwatched_openScope : Unwatched calm needs openScope fun _ ↦ True :=
  .of_plain (fun _ quiet ↦ quiet) fun _ _ closed _ ↦ ⟨trivial, closed⟩

theorem unwatched_closeScope : Unwatched calm needs closeScope fun _ ↦ True := by
  refine .of_plain (fun body quiet ↦ quiet.of_extends (grows_closeScope body).1) ?_
  intro body _ closed _
  refine ⟨trivial, ?_⟩
  obtain ⟨draft, scopes, nextSlot⟩ := body
  cases scopes with
  | nil => exact closed
  | cons scope outer => exact fun held inside ↦ closed held (List.mem_append_right _ inside)

theorem unwatched_declareLocal (name : String) {type : Ty} (lint : Option Span)
    (closed : needs → type.IsClosed) :
    Unwatched calm needs (declareLocal name type lint) fun _ ↦ True := by
  refine .of_plain (fun body quiet ↦ quiet.of_extends (grows_declareLocal name type lint body).1) ?_
  intro body needed closed' _
  refine ⟨trivial, ?_⟩
  obtain ⟨draft, scopes, nextSlot⟩ := body
  cases scopes with
  | nil => exact closed'
  | cons scope outer =>
      intro held inside
      obtain rfl | inside := List.mem_cons.mp inside
      · exact closed needed
      · exact closed' held inside

/-! ### What the watch is told -/

/-- The watch is told the types of variables, which are closed. -/
theorem undisturbed_tellLocals (spares : watch.Spares calm) :
    Undisturbed calm needs watch.tellLocals (Pure.pure ()) fun _ ↦ True := by
  refine ⟨fun _ quiet ↦ quiet, fun body given still ↦ ?_⟩
  have closed (closed : body.scope.IsClosed) :
      ∀ type ∈ body.scopes.flatten.map Local.type, type.IsClosed := by
    intro type inside
    obtain ⟨present, member, rfl⟩ := List.mem_map.mp inside
    refine closed present.variable ?_
    rw [Body.scope, Body.view, ← List.map_flatten]
    exact List.mem_map_of_mem member
  obtain ⟨same, -⟩ := (undisturbed_telling (Draft.undisturbed_tell spares closed)).same body
    (fun quiet ↦ ⟨(given quiet).2, (given quiet).2⟩) still
  exact ⟨same, fun quiet ↦ ⟨trivial, (given quiet).2⟩⟩

/-- The watch is told the type of an expression, which is closed. -/
theorem undisturbed_seen (spares : watch.Spares calm) {wanted : Option Ty}
    {watched plain : Lowering Typed} (closed : needs → ∀ type ∈ wanted, type.IsClosed)
    (first : Undisturbed calm needs watched plain fun typed ↦ typed.type.IsClosed) :
    Undisturbed calm needs (watch.seen wanted watched) plain fun typed ↦ typed.type.IsClosed := by
  have computed (typed : Typed) : Undisturbed calm (needs ∧ typed.type.IsClosed)
      (onDraft (watch.computed typed.type)) (Pure.pure ()) fun _ ↦ True :=
    undisturbed_telling (Draft.undisturbed_computed spares And.right)
  cases wanted with
  | none => exact first.tell computed
  | some wanted =>
      have both (typed : Typed) : Undisturbed calm (needs ∧ typed.type.IsClosed)
          (onDraft (watch.computed typed.type) >>= fun _ ↦
            onDraft (watch.compared wanted typed.type none)) (Pure.pure ()) fun _ ↦ True :=
        .after_telling (computed typed) <| undisturbed_telling <|
          Draft.undisturbed_compared spares fun given ↦
            .of_closed (closed given.1 wanted rfl).isWhole given.2 fun _ same ↦ by cases same
      exact first.tell both

theorem undisturbed_resolve (spares : watch.Spares calm) (setting : Setting)
    (written : TypeExpression) :
    Undisturbed calm needs (watch.resolve setting written) (resolve setting written) Ty.IsClosed :=
  undisturbed_onDraft (Draft.undisturbed_meaning spares _ _ _ written)

/-! ### Routines inside routines -/

variable {watched plain : Lowering Value} {gives : Value → Prop}

/-- A routine starts with no variables in scope. -/
theorem undisturbed_alone (inner : Undisturbed calm needs watched plain gives) :
    Draft.Undisturbed calm needs (alone watched) (alone plain) fun result ↦ gives result.1 := by
  refine ⟨fun draft ↦ inner.quiet_before ⟨draft, [[]], 0⟩, fun draft given still ↦ ?_⟩
  obtain ⟨same, after⟩ := inner.same ⟨draft, [[]], 0⟩ (fun quiet ↦ ⟨(given quiet).1, nofun⟩) still
  refine ⟨?_, fun quiet ↦ ⟨(after quiet).1, trivial⟩⟩
  change (((watched ⟨draft, [[]], 0⟩).1, (watched ⟨draft, [[]], 0⟩).2.nextSlot),
    (watched ⟨draft, [[]], 0⟩).2.draft) = _
  rw [same]
  rfl

theorem undisturbed_addRoutine (routine : Routine) (code : Value → List Op)
    (inner : Undisturbed calm needs watched plain gives) :
    Draft.Undisturbed calm needs (addRoutine routine code watched) (addRoutine routine code plain)
      fun result ↦ gives result.2 := by
  refine (Draft.undisturbed_reserve routine).bind fun index ↦ ?_
  refine .bind ((undisturbed_alone inner).needing And.left) fun result ↦ ?_
  exact (Draft.undisturbed_complete _ _ _).map fun _ given _ ↦ given.2

end Lowering

/-! ## Expressions -/

/-- No type in the signature of a function has a hole. -/
structure MethodInfo.IsClosed (method : MethodInfo) : Prop where
  parameters : ∀ type ∈ method.parameters, type.IsClosed
  result : method.result.IsClosed

/-- No type of the members of a declared type has a hole. -/
structure TypeInfo.IsClosed (info : TypeInfo) : Prop where
  field : ∀ field ∈ info.fields, field.type.IsClosed
  method : ∀ method ∈ info.methods, method.IsClosed

/-- No type that a body may refer to has a hole, but those of host functions may be open. -/
structure Setting.IsClosed (setting : Setting) : Prop where
  references : setting.references.IsProper
  types : ∀ info ∈ setting.types, info.IsClosed
  result : setting.result.IsClosed

theorem Setting.IsClosed.withReceiver {setting : Setting} (closed : setting.IsClosed)
    (receiver : Option Nat) : Setting.IsClosed { setting with receiver } :=
  ⟨closed.references, closed.types, closed.result⟩

theorem Setting.IsClosed.field {setting : Setting} (closed : setting.IsClosed)
    {fullName name : String} {position : Nat} {type : Ty}
    (found : fieldOf? setting.types fullName name = some (position, type)) : type.IsClosed := by
  simp only [fieldOf?, Option.bind_eq_bind, Option.bind_eq_some_iff, Option.pure_def,
    Option.some.injEq, Prod.mk.injEq] at found
  obtain ⟨_, -, info, declared, _, -, field, inside, -, rfl⟩ := found
  have closed' := closed.types info (List.mem_of_getElem? declared)
  exact closed'.field field (List.mem_of_getElem? inside)

theorem Setting.IsClosed.method {setting : Setting} (closed : setting.IsClosed)
    {owner : Bytecode.TypeIndex} {name : String} {method : MethodInfo}
    (found : methodOf? setting.types owner name = some method) : method.IsClosed := by
  simp only [methodOf?, Option.bind_eq_bind, Option.bind_eq_some_iff] at found
  obtain ⟨info, declared, found⟩ := found
  have closed' := closed.types info (List.mem_of_getElem? declared)
  exact closed'.method method (List.mem_of_find?_eq_some found)

/-- An expression that is wanted for a closed type, if for any, is compiled the same under a watch,
and its type is closed. -/
def Pending.Undisturbed (calm needs : Prop) (watched plain : Pending) : Prop :=
  ∀ ⦃more : Prop⦄ ⦃wanted : Option Ty⦄ (start : Nat), (more → needs) →
    (more → ∀ type ∈ wanted, type.IsClosed) →
    Lowering.Undisturbed calm more (watched wanted start) (plain wanted start)
      fun typed ↦ typed.type.IsClosed

/-- Arguments for parameters without poison are compiled the same under a watch, and what the open
type is bound to stays closed. -/
def PendingArguments.Undisturbed (calm needs : Prop) (watched plain : PendingArguments) : Prop :=
  ∀ ⦃more : Prop⦄ ⦃parameters : List Ty⦄ ⦃bound : Option Ty⦄ (callee : String) (number : Nat)
    (before : List Op) (start : Nat), (more → needs) →
    (more → ∀ type ∈ parameters, type.isWhole true = true) →
    (more → ∀ type ∈ bound, type.IsClosed) →
    Lowering.Undisturbed calm more (watched parameters callee number bound before start)
      (plain parameters callee number bound before start)
      fun result ↦ ∀ type ∈ result.2, type.IsClosed

/-- What is pending may be asked for where more is known. -/
theorem Pending.Undisturbed.needing {calm needs more : Prop} {watched plain : Pending}
    (each : watched.Undisturbed calm needs plain) (needed : more → needs) :
    watched.Undisturbed calm more plain :=
  fun _ _ start deeper ↦ each start (needed ∘ deeper)

theorem PendingArguments.Undisturbed.needing {calm needs more : Prop}
    {watched plain : PendingArguments} (each : watched.Undisturbed calm needs plain)
    (needed : more → needs) : watched.Undisturbed calm more plain :=
  fun _ _ _ callee number before start deeper ↦ each callee number before start (needed ∘ deeper)

section Expressions

open Lowering

variable {calm needs : Prop} {watch : Watch} {setting : Setting} {span : Span} {start : Nat}

/-- An expression is compiled the same under a watch, and its type is closed. -/
abbrev Lowering.Typing (calm needs : Prop) (watched plain : Lowering Typed) : Prop :=
  Lowering.Undisturbed calm needs watched plain fun typed ↦ typed.type.IsClosed

theorem unwatched_noValue {code : Code} {message : String} {gives : Typed → Prop} :
    Unwatched calm needs (noValue code message span) gives :=
  unwatched_mistake.map fun _ _ ↦ False.elim

/-- After a mistake, nothing is known of the type that it gives. -/
theorem unwatched_mistaken {code : Code} {message : String} {make : Ty → Typed}
    {gives : Typed → Prop} : Unwatched calm needs
      (mistake code message span >>= fun type ↦ Pure.pure (make type)) gives :=
  unwatched_mistake.map fun _ _ ↦ False.elim

theorem typing_receiverValue :
    Typing calm needs (receiverValue setting span) (receiverValue setting span) := by
  unfold receiverValue
  split
  · exact .pure fun _ ↦ rfl
  · exact unwatched_noValue

theorem typing_pathValue (segments : List Identifier) :
    Typing calm needs (pathValue segments span) (pathValue segments span) := by
  unfold pathValue
  split
  · refine (unwatched_lookup _).bind fun found ↦ ?_
    cases found with
    | some found => exact .pure fun given ↦ given.2 found rfl
    | none => exact unwatched_noValue
  · exact unwatched_noValue

theorem typing_fieldValue (closed : needs → setting.IsClosed) {target : Typed}
    (closed' : needs → target.type.IsClosed) (name : Identifier) :
    Typing calm needs (fieldValue setting target name) (fieldValue setting target name) := by
  unfold fieldValue
  split
  · split
    · next found => exact .pure fun needed ↦ (closed needed).field found
    · exact unwatched_mistaken
  · next isPoison => exact .pure fun needed ↦ isPoison ▸ closed' needed
  · exact unwatched_mistaken

theorem unwatched_checkedType {wanted : Option Ty} {found : Ty}
    (closed : needs → ∀ type ∈ wanted, type.IsClosed) (closed' : needs → found.IsClosed) :
    Unwatched calm needs (checkedType wanted found span) Ty.IsClosed := by
  cases wanted with
  | some wanted => exact unwatched_check.map fun _ needed _ ↦ closed needed wanted rfl
  | none => exact .pure closed'

theorem unwatched_itemType {target : Ty} (closed : needs → target.IsClosed) :
    Unwatched calm needs (itemType target span) Ty.IsClosed := by
  unfold itemType
  split
  · exact .pure closed
  · exact .pure fun _ ↦ rfl
  · exact .pure closed
  · exact unwatched_mistake.absurd

theorem typing_newObject (name : Identifier) :
    Typing calm needs (newObject setting name) (newObject setting name) := by
  unfold newObject
  simp only
  split
  · exact .pure fun _ ↦ rfl
  · exact unwatched_noValue

theorem typing_unaryValue (operator : UnaryOperator) (operand : Typed) :
    Typing calm needs (unaryValue operator operand span) (unaryValue operator operand span) := by
  unfold unaryValue
  simp only
  split
  · exact .pure fun _ ↦ isClosed_unaryType operator
  · exact unwatched_mistaken

theorem typing_shortCircuit (operator : BinaryOperator) (code : List Op) (left right : Ty) :
    Typing calm needs (shortCircuit operator code left right span)
      (shortCircuit operator code left right span) := by
  unfold shortCircuit
  split
  · exact .pure fun _ ↦ rfl
  · exact unwatched_mistaken

theorem typing_strictOperator (operator : BinaryOperator) (code : List Op) {left right : Ty}
    (closed : needs → left.IsClosed) (closed' : needs → right.IsClosed) :
    Typing calm needs (strictOperator operator code left right span)
      (strictOperator operator code left right span) := by
  unfold strictOperator
  split
  · next found =>
      exact .pure fun needed ↦ isClosed_binaryType? (closed needed) (closed' needed) found
  · exact unwatched_mistaken

/-- Nothing is wanted of an operand, or that it is a truth value. -/
theorem isClosed_bool : ∀ type ∈ some Ty.bool, type.IsClosed :=
  fun _ same ↦ Option.some.inj same ▸ rfl

variable {left right left' right' : Pending} {arguments arguments' : PendingArguments}

theorem typing_binaryValue (spares : watch.Spares calm) (operator : BinaryOperator)
    (first : left'.Undisturbed calm needs left) (second : right'.Undisturbed calm needs right) :
    Typing calm needs (watch.binaryValue operator left' right' span start)
      (binaryValue operator left right span start) := by
  -- the sides of an equation are compared both ways
  have equation (operator : BinaryOperator) : Typing calm needs (do
      let first ← left' none start
      let second ← right' none (start + first.code.length)
      onDraft (watch.compared first.type second.type none)
      onDraft (watch.compared second.type first.type none)
      let code := first.code ++ second.code ++ [.binary operator]
      strictOperator operator code first.type second.type span)
      (strictBinary operator left right span start) := by
    refine .bind (first _ id fun _ ↦ unwanted) fun typed ↦ ?_
    refine .bind (second _ And.left fun _ ↦ unwanted) fun typed' ↦ ?_
    have compared {expected actual : Ty} (closed : (needs ∧ typed.type.IsClosed) ∧
        typed'.type.IsClosed → expected.IsClosed ∧ actual.IsClosed) :
        Lowering.Undisturbed calm ((needs ∧ typed.type.IsClosed) ∧ typed'.type.IsClosed)
          (onDraft (watch.compared expected actual none)) (Pure.pure ()) fun _ ↦ True :=
      undisturbed_telling (Draft.undisturbed_compared spares fun given ↦
        .of_closed (closed given).1.isWhole (closed given).2 fun _ same ↦ by cases same)
    exact .after_telling (compared fun given ↦ ⟨given.1.2, given.2⟩) <| .after_telling
      (compared fun given ↦ ⟨given.2, given.1.2⟩)
      (typing_strictOperator operator _ (fun given ↦ given.1.2) And.right)
  have strict (operator : BinaryOperator) : Typing calm needs
      (strictBinary operator left' right' span start)
      (strictBinary operator left right span start) :=
    .bind (first _ id fun _ ↦ unwanted) fun typed ↦
      .bind (second _ And.left fun _ ↦ unwanted) fun typed' ↦
        typing_strictOperator operator _ (fun given ↦ given.1.2) And.right
  cases operator with
  | equal | unequal => exact equation _
  | and | or =>
      exact .bind (first _ id fun _ ↦ isClosed_bool) fun typed ↦
        .bind (second _ And.left fun _ ↦ isClosed_bool) fun typed' ↦ typing_shortCircuit _ _ _ _
  | _ => exact strict _

/-! ### Calls -/

theorem unwatched_checkArgument {accepted : Bool} {number : Nat} {callee : String}
    {wanted found : Ty} : Unwatched calm needs
      (checkArgument accepted number callee wanted found span) fun _ ↦ True := by
  cases accepted with
  | true => exact .pure fun _ ↦ trivial
  | false => exact unwatched_report.absurd

theorem undisturbed_checkedArguments {count : Nat} {parameters : List Ty} {callee : String}
    {before : List Op} (each : arguments'.Undisturbed calm needs arguments)
    (whole : needs → ∀ type ∈ parameters, type.isWhole true = true) :
    Lowering.Undisturbed calm needs
      (checkedArguments arguments' count parameters callee span before start)
      (checkedArguments arguments count parameters callee span before start)
      fun result ↦ ∀ type ∈ result.2, type.IsClosed := by
  simp only [checkedArguments]
  split
  · exact unwatched_report.bind fun _ ↦
      each _ _ _ _ And.left (fun given ↦ whole given.1) fun _ ↦ unwanted
  · exact each _ _ _ _ id whole fun _ ↦ unwanted

theorem undisturbed_uncheckedArguments {before : List Op}
    (each : arguments'.Undisturbed calm needs arguments) :
    Lowering.Undisturbed calm needs (uncheckedArguments arguments' before start)
      (uncheckedArguments arguments before start) fun _ ↦ True :=
  have nothing : ∀ type ∈ ([] : List Ty), type.isWhole true = true := nofun
  (each _ _ _ _ id (fun _ ↦ nothing) fun _ ↦ unwanted).map fun _ _ _ ↦ trivial

theorem typing_badCall {before : List Op} {code : Code} {message : String}
    (each : arguments'.Undisturbed calm needs arguments) :
    Typing calm needs (badCall arguments' before start code message span)
      (badCall arguments before start code message span) :=
  (undisturbed_uncheckedArguments each).bind fun _ ↦ unwatched_mistaken

theorem typing_callValue {callee : Typed} {count : Nat} {what : String}
    (each : arguments'.Undisturbed calm needs arguments)
    (closed : needs → callee.type.IsClosed) :
    Typing calm needs (callValue callee arguments' count what span start)
      (callValue callee arguments count what span start) := by
  unfold callValue
  split
  · next parameters result same =>
      have closed (needed : needs) := Ty.isWhole_function.mp (same ▸ closed needed)
      exact (undisturbed_checkedArguments each fun needed type inside ↦
        Ty.IsClosed.isWhole ((closed needed).1 type inside)).map fun _ needed _ ↦ (closed needed).2
  · exact (undisturbed_uncheckedArguments each).map fun _ _ _ ↦ rfl
  · next isPoison =>
      exact (undisturbed_uncheckedArguments each).map fun _ needed _ ↦ isPoison ▸ closed needed
  · exact typing_badCall each

theorem unwatched_implicitReceiver (method : MethodInfo) :
    Unwatched calm needs (implicitReceiver setting method span) fun _ ↦ True := by
  unfold implicitReceiver
  split
  · exact .pure fun _ ↦ trivial
  · split
    · exact .pure fun _ ↦ trivial
    · exact unwatched_report.map fun _ _ _ ↦ trivial

theorem typing_callMethod {method : MethodInfo} {receiver : List Op} {count : Nat}
    (each : arguments'.Undisturbed calm needs arguments) (closed : needs → method.IsClosed) :
    Typing calm needs (callMethod method receiver arguments' count span start)
      (callMethod method receiver arguments count span start) :=
  (undisturbed_checkedArguments each fun needed type inside ↦
    ((closed needed).parameters type inside).isWhole).map fun _ needed _ ↦ (closed needed).result

theorem unwatched_checkVisible (type : Bytecode.TypeIndex) (method : MethodInfo) :
    Unwatched calm needs (checkVisible setting type method span) fun _ ↦ True := by
  unfold checkVisible
  split
  · exact unwatched_report.absurd
  · exact .pure fun _ ↦ trivial

theorem typing_callName (closed : needs → setting.IsClosed) (name : Identifier) (count : Nat)
    (each : arguments'.Undisturbed calm needs arguments) :
    Typing calm needs (callName setting name arguments' count span start)
      (callName setting name arguments count span start) := by
  unfold callName
  refine (unwatched_lookup name.name).bind fun found ↦ ?_
  cases found with
  | some found => exact typing_callValue (each.needing And.left) fun given ↦ given.2 found rfl
  | none =>
      simp only
      split
      · next found =>
          exact (unwatched_implicitReceiver _).bind fun _ ↦
            typing_callMethod (each.needing fun given ↦ given.1.1) fun given ↦
              (closed given.1.1).method found
      · exact typing_badCall (each.needing And.left)

theorem typing_callStatic (closed : needs → setting.IsClosed) (type : Bytecode.TypeIndex)
    (path : String) (function : Identifier) (count : Nat)
    (each : arguments'.Undisturbed calm needs arguments) :
    Typing calm needs (callStatic setting type path function arguments' count span start)
      (callStatic setting type path function arguments count span start) := by
  unfold callStatic
  split
  · next found =>
      split
      · exact (unwatched_checkVisible type _).bind fun _ ↦
          typing_callMethod (each.needing And.left) fun given ↦ (closed given.1).method found
      · exact typing_badCall each
  · exact typing_badCall each

theorem typing_callHostFunction (closed : needs → setting.IsClosed) {qualifier : String}
    {binding : ModuleBinding} (known : setting.references.lookup? qualifier = some binding)
    (path : String) (function : Identifier) (count : Nat)
    (each : arguments'.Undisturbed calm needs arguments) :
    Typing calm needs (callHostFunction binding path function arguments' count span start)
      (callHostFunction binding path function arguments count span start) := by
  unfold callHostFunction
  split
  · next offered =>
      have whole (needed : needs) := (closed needed).references known offered
      exact (undisturbed_checkedArguments each fun needed ↦ (whole needed).1).bind fun result ↦
        (unwatched_importIndex _).map fun _ given _ ↦
          Ty.isClosed_substitute given.2 (whole given.1).2
  · exact typing_badCall each

/-- A call of something written as a path is compiled the same under a watch. -/
theorem typing_callNamed (closed : needs → setting.IsClosed) (segments : List Identifier)
    {calleeSpan : Span} (count : Nat) (each : arguments'.Undisturbed calm needs arguments) :
    Typing calm needs (callNamed setting segments calleeSpan arguments' count span start)
      (callNamed setting segments calleeSpan arguments count span start) := by
  unfold callNamed
  split
  · exact typing_callName closed _ count each
  · unfold callPath
    simp only
    split
    · exact typing_callStatic closed _ _ _ count each
    · split
      · next known => exact typing_callHostFunction closed known _ _ count each
      · exact typing_badCall each
  · exact typing_badCall each

/-- A call of a method on a target is compiled the same under a watch. -/
theorem typing_callOnTarget (closed : needs → setting.IsClosed) {target : Typed}
    (closed' : needs → target.type.IsClosed) (method : Identifier) (count : Nat)
    (each : arguments'.Undisturbed calm needs arguments) :
    Typing calm needs (callOnTarget setting target method arguments' count span start)
      (callOnTarget setting target method arguments count span start) := by
  unfold callOnTarget
  split
  · simp only
    split
    · next type info found =>
        simp only [Option.bind_eq_bind, Option.bind_eq_some_iff] at found
        obtain ⟨_, -, _, known, same⟩ := found
        cases same
        split
        · exact typing_badCall each
        · exact (unwatched_checkVisible _ _).bind fun _ ↦
            typing_callMethod (each.needing And.left) fun given ↦ (closed given.1).method known
    · exact typing_badCall each
  · next isPoison =>
      exact (undisturbed_uncheckedArguments each).map fun _ needed _ ↦ isPoison ▸ closed' needed
  · exact typing_badCall each

/-! ### Lambdas -/

theorem unwatched_captureOf (parameters : List Identifier) (name : String) :
    Unwatched calm needs (captureOf setting parameters name) fun found ↦
      ∀ capture ∈ found.toList, capture.type.IsClosed := by
  unfold captureOf
  split
  · refine .pure fun _ capture inside ↦ ?_
    obtain ⟨slot, -, rfl⟩ := Option.map_eq_some_iff.mp (Option.mem_toList.mp inside)
    rfl
  split
  · exact .pure fun _ ↦ List.forall_mem_nil _
  · refine (unwatched_lookup name).bind fun found ↦ .pure fun given capture inside ↦ ?_
    obtain ⟨present, same, rfl⟩ := Option.map_eq_some_iff.mp (Option.mem_toList.mp inside)
    exact given.2 present same

theorem unwatched_capturesOf (parameters : List Identifier) (mentioned : List String) :
    Unwatched calm needs (capturesOf setting parameters mentioned) fun captures ↦
      ∀ capture ∈ captures, capture.type.IsClosed := by
  induction mentioned generalizing needs with
  | nil => exact .pure fun _ ↦ List.forall_mem_nil _
  | cons name rest ih =>
      rw [capturesOf_cons]
      exact (unwatched_captureOf parameters name).bind fun found ↦ ih.bind fun others ↦
        .pure fun given ↦ List.forall_mem_append.mpr ⟨given.1.2, given.2⟩

theorem unwatched_declareCaptures {captures : List Capture}
    (closed : needs → ∀ capture ∈ captures, capture.type.IsClosed) :
    Unwatched calm needs (declareCaptures captures) fun _ ↦ True := by
  induction captures generalizing needs with
  | nil => exact .pure fun _ ↦ trivial
  | cons capture rest ih =>
      rw [declareCaptures]
      refine (unwatched_declareLocal _ none fun needed ↦
        closed needed capture List.mem_cons_self).bind fun _ ↦ ih fun given other inside ↦ ?_
      exact closed given.1 other (List.mem_cons_of_mem capture inside)

theorem unwatched_declareParameter (name : Identifier) {type : Ty}
    (closed : needs → type.IsClosed) :
    Unwatched calm needs (declareParameter name type) fun _ ↦ True := by
  have local' {more : Prop} (needed : more → needs) : Unwatched calm more
      (declareLocal name.name type none >>= fun _ ↦ Pure.pure ()) fun _ ↦ True :=
    (unwatched_declareLocal name.name none (closed ∘ needed)).map fun _ _ _ ↦ trivial
  have branch (taken : Bool) : Unwatched calm (needs ∧ True)
      (if taken = true then do
          report .duplicateDefinition ("parameter `" ++ name.name ++ "` is declared more than once")
            name.span
          let _ ← declareLocal name.name type none
        else do
          let _ ← declareLocal name.name type none) fun _ ↦ True := by
    split
    · exact unwatched_report.bind fun _ ↦ local' fun given ↦ given.1.1
    · exact local' And.left
  exact unwatched_get.bind fun body ↦ branch _

theorem unwatched_declareParameters {parameters : List (Identifier × Ty)}
    (closed : needs → ∀ parameter ∈ parameters, parameter.2.IsClosed) :
    Unwatched calm needs (declareParameters parameters) fun _ ↦ True := by
  induction parameters generalizing needs with
  | nil => exact .pure fun _ ↦ trivial
  | cons first rest ih =>
      rw [declareParameters]
      refine (unwatched_declareParameter first.1 fun needed ↦
        closed needed first List.mem_cons_self).bind fun _ ↦ ih fun given other inside ↦ ?_
      exact closed given.1 other (List.mem_cons_of_mem first inside)

/-- The types of parameters are those that they are declared with. -/
theorem isClosed_zip {names : List Identifier} {types : List Ty}
    (closed : ∀ type ∈ types, type.IsClosed) :
    ∀ parameter ∈ names.zip types, parameter.2.IsClosed :=
  fun _ inside ↦ closed _ (List.of_mem_zip inside).2

/-- A lambda is compiled the same under a watch if its body is, where its result has a closed
type. -/
theorem typing_lambdaValue (closed : needs → setting.IsClosed) (parameters : List Identifier)
    (mentioned : List String) {expected : Option Ty}
    (closed' : needs → ∀ type ∈ expected, type.IsClosed) {inside inside' : Setting → Lowering Typed}
    (body : ∀ {more : Prop} {inner : Setting}, (more → inner.IsClosed) →
      Typing calm more (inside' inner) (inside inner)) :
    Typing calm needs (lambdaValue setting parameters mentioned inside' expected)
      (lambdaValue setting parameters mentioned inside expected) := by
  refine (unwatched_capturesOf parameters mentioned).bind fun captures ↦ ?_
  have signature (needed : needs) := isClosed_lambdaSignature parameters.length (closed' needed)
  refine unwatched_nextLambda.bind fun number ↦ ?_
  let inner := setting.inside number captures (lambdaSignature parameters.length expected).2
  have closedInner (needed : needs) : inner.IsClosed :=
    ⟨(closed needed).references, (closed needed).types, (signature needed).2⟩
  have routine {more : Prop} (needed : more → needs)
      (copied : more → ∀ capture ∈ captures, capture.type.IsClosed) : Typing calm more
        (lambdaInside captures (parameters.zip (lambdaSignature parameters.length expected).1)
          (inside' inner))
        (lambdaInside captures (parameters.zip (lambdaSignature parameters.length expected).1)
          (inside inner)) :=
    (unwatched_declareCaptures copied).bind fun _ ↦
      (unwatched_declareParameters fun given ↦
        isClosed_zip (signature (needed given.1)).1).bind fun _ ↦
          body fun given ↦ closedInner (needed given.1.1)
  exact (undisturbed_onDraft <| undisturbed_addRoutine _ _ <|
    routine (fun given ↦ given.1.1) fun given ↦ given.1.2).map fun result given closedBody ↦
      Ty.isWhole_function.mpr ⟨(signature given.1.1).1, closedBody⟩

end Expressions

/-! ## Statements -/

/-- Statements are compiled the same under a watch wherever their code will stand. -/
def Unheeded (calm needs : Prop) (watched plain : Nat → Lowering (List Op)) : Prop :=
  ∀ ⦃more : Prop⦄ (start : Nat), (more → needs) →
    Lowering.Undisturbed calm more (watched start) (plain start) fun _ ↦ True

section Statements

open Lowering

variable {calm needs : Prop} {watch : Watch} {setting : Setting} {span : Span} {start : Nat}
  {value value' : Pending}

theorem unwatched_declareValue (name : Identifier) {declared : Option Ty} {typed : Typed}
    (closed : needs → ∀ type ∈ declared, type.IsClosed) (closed' : needs → typed.type.IsClosed) :
    Unwatched calm needs (declareValue name declared typed span) fun _ ↦ True :=
  (unwatched_checkedType closed closed').bind fun _ ↦
    (unwatched_declareLocal name.name _ And.right).map fun _ _ _ ↦ trivial

/-- A value is compared with the type that it is wanted for. -/
theorem undisturbed_checked {wanted : Ty} {make : Typed → List Op}
    (each : value'.Undisturbed calm needs value) (closed : needs → wanted.IsClosed) :
    Lowering.Undisturbed calm needs (do
      let typed ← value' (some wanted) start
      check wanted typed.type span
      Pure.pure (make typed)) (do
      let typed ← value (some wanted) start
      check wanted typed.type span
      Pure.pure (make typed)) fun _ ↦ True :=
  (each _ id fun needed _ same ↦ Option.some.inj same ▸ closed needed).bind fun _ ↦
    unwatched_check.map fun _ _ _ ↦ trivial

/-- A value that is stored nowhere is compiled for the mistakes in it. -/
theorem undisturbed_unplaced {code : Code} {message : String} {span : Span}
    (each : value'.Undisturbed calm needs value) :
    Lowering.Undisturbed calm needs (do
      report code message span
      Pure.pure (← value' none start).code) (do
      report code message span
      Pure.pure (← value none start).code) fun _ ↦ True :=
  unwatched_report.bind fun _ ↦ (each _ And.left fun _ ↦ unwanted).map fun _ _ _ ↦ trivial

theorem undisturbed_assignVariable (name : Identifier)
    (each : value'.Undisturbed calm needs value) :
    Lowering.Undisturbed calm needs (assignVariable name value' span start)
      (assignVariable name value span start) fun _ ↦ True := by
  refine (unwatched_lookupTarget name.name).bind fun found ↦ ?_
  cases found with
  | some found => exact undisturbed_checked (each.needing And.left) fun given ↦ given.2 found rfl
  | none => exact undisturbed_unplaced (each.needing And.left)

theorem undisturbed_assignField (closed : needs → setting.IsClosed) (name : Identifier)
    {valueSpan : Span} (each : value'.Undisturbed calm needs value) :
    Lowering.Undisturbed calm needs (assignField setting name value' valueSpan span start)
      (assignField setting name value valueSpan span start) fun _ ↦ True := by
  unfold assignField
  split
  · exact undisturbed_unplaced each
  · split
    · exact undisturbed_unplaced each
    · next found => exact undisturbed_checked each fun needed ↦ (closed needed).field found

theorem undisturbed_condition (each : value'.Undisturbed calm needs value) :
    Unheeded calm needs (condition value' span) (condition value span) :=
  fun _ _ needed ↦ undisturbed_checked (each.needing needed) fun _ ↦ rfl

theorem undisturbed_returnValue (closed : needs → setting.IsClosed)
    (each : value'.Undisturbed calm needs value) :
    Lowering.Undisturbed calm needs (returnValue setting value' span start)
      (returnValue setting value span start) fun _ ↦ True :=
  undisturbed_checked each fun needed ↦ (closed needed).result

theorem unwatched_returnNothing :
    Unwatched calm needs (returnNothing setting span) fun _ ↦ True := by
  simp only [returnNothing]
  split
  · exact unwatched_report.map fun _ _ _ ↦ trivial
  · exact .pure fun _ ↦ trivial

theorem undisturbed_discard (each : value'.Undisturbed calm needs value) :
    Lowering.Undisturbed calm needs (discard value' span start) (discard value span start)
      fun _ ↦ True := by
  refine (each _ id fun _ ↦ unwanted).bind fun typed ↦ ?_
  have warned : Unwatched calm (needs ∧ typed.type.IsClosed) (warnDiscarded typed.type span)
      fun _ ↦ True := unwatched_of_steady (steady_warnDiscarded _) fun _ _ _ _ ↦ trivial
  exact warned.map fun _ _ _ ↦ trivial

theorem unwatched_elementType {iterated : Ty} (closed : needs → iterated.IsClosed) :
    Unwatched calm needs (elementType iterated span) Ty.IsClosed := by
  unfold elementType
  split
  · next element same =>
      refine .pure fun needed ↦ ?_
      have closed := closed needed
      cases iterated <;> cases same <;> exact closed
  · exact unwatched_mistake.absurd

variable {test test' body body' other other' : Nat → Lowering (List Op)}

theorem undisturbed_forEachLoop (binding : Identifier) {iterableSpan : Span}
    (each : value'.Undisturbed calm needs value) (inner : Unheeded calm needs body' body) :
    Lowering.Undisturbed calm needs (forEachLoop binding value' iterableSpan body' start)
      (forEachLoop binding value iterableSpan body start) fun _ ↦ True := by
  refine (each _ id fun _ ↦ unwanted).bind fun typed ↦ ?_
  refine (unwatched_elementType And.right).bind fun element ↦ ?_
  refine unwatched_allocate.bind fun _ ↦ unwatched_openScope.bind fun _ ↦ ?_
  refine (unwatched_declareLocal _ _ fun given ↦ given.1.1.2).bind fun _ ↦ ?_
  refine (inner _ fun given ↦ given.1.1.1.1.1).bind fun _ ↦ ?_
  exact unwatched_closeScope.map fun _ _ _ ↦ trivial

theorem undisturbed_whileTrue (first : Unheeded calm needs test' test)
    (second : Unheeded calm needs body' body) :
    Lowering.Undisturbed calm needs (whileTrue test' body' start) (whileTrue test body start)
      fun _ ↦ True :=
  (first _ id).bind fun _ ↦ (second _ And.left).map fun _ _ _ ↦ trivial

theorem undisturbed_ifTrue (first : Unheeded calm needs test' test)
    (second : Unheeded calm needs body' body) :
    Lowering.Undisturbed calm needs (ifTrue test' body' start) (ifTrue test body start)
      fun _ ↦ True :=
  (first _ id).bind fun _ ↦ (second _ And.left).map fun _ _ _ ↦ trivial

theorem undisturbed_ifElse (first : Unheeded calm needs test' test)
    (second : Unheeded calm needs body' body) (third : Unheeded calm needs other' other) :
    Lowering.Undisturbed calm needs (ifElse test' body' other' start)
      (ifElse test body other start) fun _ ↦ True :=
  (first _ id).bind fun _ ↦ (second _ And.left).bind fun _ ↦
    (third _ fun given ↦ given.1.1).map fun _ _ _ ↦ trivial

end Statements

end GuestScript.Compile
