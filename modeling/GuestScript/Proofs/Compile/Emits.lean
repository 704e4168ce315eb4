import GuestScript.Meaning.HostCalls
import GuestScript.Proofs.Compile.Accepted

/-!
# Code that calls host functions

`Emits` says which host calls the code makes that an action gives for a part of a body, and that each
refers to the import of its function. Imports stay where they are, and a function is imported once,
whatever the number of its calls, because the modules that may be used have one version each.
`Draft.Gains` says the same of two drafts, and of the lambdas that have been added between them.
-/

namespace GuestScript

open Bytecode (Import ImportIndex Op Routine RoutineIndex)

/-- The names of the module and the function of an import. -/
def Bytecode.Import.target (imported : Import) : String × String :=
  (imported.moduleName, imported.function)

/-- A function that may be used is imported in the version that its module has. -/
def ReferenceSet.Exports (references : ReferenceSet) (imported : Import) : Prop :=
  ∃ binding function, references.lookup? imported.moduleName = some binding ∧
    binding.host.function? imported.function = some function ∧
    imported.major = binding.version.major ∧ imported.minor = binding.version.minor

namespace Compile

open Meaning (HostCall HostCalls)

/-- The imports that code calls, each with the number of arguments. -/
def hostOps (code : List Op) : List (ImportIndex × Nat) :=
  code.filterMap fun
    | .callHost imported count => some (imported, count)
    | _ => none

@[simp]
theorem hostOps_nil : hostOps [] = [] :=
  rfl

@[simp]
theorem hostOps_append (first second : List Op) :
    hostOps (first ++ second) = hostOps first ++ hostOps second :=
  List.filterMap_append

/-! ## Imports -/

/-- Functions that may be used are imported, each once. -/
structure ImportsFrom (references : ReferenceSet) (imports : Array Import) : Prop where
  once : (imports.toList.map Import.target).Nodup
  exported : ∀ imported ∈ imports, references.Exports imported

theorem importsFrom_empty (references : ReferenceSet) : ImportsFrom references #[] :=
  ⟨List.nodup_nil, fun _ inside ↦ absurd inside (Array.not_mem_empty _)⟩

/-- Calls in code are those in a text: each refers to the import of its function. -/
def Makes (imports : Array Import) : List (ImportIndex × Nat) → List HostCall → Prop :=
  List.Forall₂ fun op call ↦ imports[op.1]? = some call.imported ∧ op.2 = call.count

theorem Makes.imports {imports more : Array Import} {ops : List (ImportIndex × Nat)}
    {calls : List HostCall} (made : Makes imports ops calls)
    (kept : ∀ {index : Nat} {imported : Import}, imports[index]? = some imported →
      more[index]? = some imported) : Makes more ops calls :=
  List.Forall₂.imp (fun _ _ ⟨found, count⟩ ↦ ⟨kept found, count⟩) made

namespace Draft

variable {references : ReferenceSet} {before middle after : Draft}

/-- The code of a routine makes these calls and no others. -/
def HasCalls (draft : Draft) (index : RoutineIndex) (calls : List HostCall) : Prop :=
  ∃ routine, draft.routines[index]? = some routine ∧
    Makes draft.imports (hostOps routine.code.toList) calls

/-- Routines that are not filled in keep their calls. -/
theorem HasCalls.fills {index : RoutineIndex} {calls : List HostCall}
    {filled : List RoutineIndex} (has : before.HasCalls index calls)
    (fills : before.Fills filled after) (apart : index ∉ filled) : after.HasCalls index calls := by
  obtain ⟨routine, found, made⟩ := has
  have inside := (Array.getElem?_eq_some_iff.mp found).1
  exact ⟨routine, (fills.routines inside apart).trans found, made.imports fills.imports⟩

/-- What one draft has more than another one: the code of a part that makes these calls can be found
there, with the routines of the lambdas in it, and imports are in order. If no mistake has been found,
each call suits its function. -/
structure Gains (references : ReferenceSet) (before after : Draft) (ops : List (ImportIndex × Nat))
    (calls : HostCalls) : Prop where
  grown : before.Extends after
  imports : ImportsFrom references after.imports
  own : Makes after.imports ops calls.own
  size : after.routines.size = before.routines.size + calls.lambdas.length
  lambdas : ∀ {position : Nat} {inside : List HostCall}, calls.lambdas[position]? = some inside →
    after.HasCalls (before.routines.size + position) inside
  suited : after.Quiet → ∀ call ∈ calls.all, call.Suits references

variable {ops more : List (ImportIndex × Nat)} {calls others : HostCalls}

theorem Gains.trans (first : Gains references before middle ops calls)
    (second : Gains references middle after more others) :
    Gains references before after (ops ++ more) (calls ++ others) := by
  refine
    { grown := first.grown.trans second.grown
      imports := second.imports
      own := List.rel_append (first.own.imports second.grown.imports) second.own
      size := ?_
      lambdas := fun {position inside} found ↦ ?_
      suited := fun quiet call inside ↦ ?_ }
  · rw [second.size, first.size, Nat.add_assoc, ← List.length_append]
    rfl
  · change (calls.lambdas ++ others.lambdas)[position]? = some inside at found
    rw [List.getElem?_append] at found
    split at found
    · exact (first.lambdas found).fills second.grown.fills List.not_mem_nil
    · next beyond =>
        have there := second.lambdas found
        rw [first.size, Nat.add_assoc, Nat.add_sub_cancel' (Nat.le_of_not_lt beyond)] at there
        exact there
  · change call ∈ (calls.own ++ others.own) ++ (calls.lambdas ++ others.lambdas).flatten at inside
    have part : call ∈ calls.all ∨ call ∈ others.all := by
      simp only [List.flatten_append, List.mem_append, HostCalls.all] at inside ⊢
      tauto
    obtain here | there := part
    · exact first.suited (quiet.of_extends second.grown) call here
    · exact second.suited quiet call there

/-- An import is found again under its names, because there is one version of each module, and is
added otherwise. -/
theorem gains_importIndex (call : HostCall) {draft : Draft}
    (imports : ImportsFrom references draft.imports)
    (known : references.lookup? call.binding.name = some call.binding)
    (member : call.binding.host.function? call.function.name = some call.function)
    (count : call.count = call.function.parameters.length ∨ ¬ draft.Quiet) :
    Gains references draft (importIndex call.imported draft).2
      [((importIndex call.imported draft).1, call.count)] (.ofCall? (some call)) := by
  have suited (after : Draft) (grown : draft.Extends after) (quiet : after.Quiet) :
      ∀ other ∈ (HostCalls.ofCall? (some call)).all, other.Suits references := by
    intro other inside
    obtain rfl : other = call := by simpa [HostCalls.all, HostCalls.ofCall?] using inside
    exact ⟨known, member, count.resolve_right fun loud ↦ loud (quiet.of_extends grown)⟩
  have grown := (extends_importIndex call.imported draft).1
  rw [importIndex_apply] at grown ⊢
  cases found : draft.imports.findIdx? (isImport call.imported) with
  | some index =>
      rw [found] at grown
      obtain ⟨inside, same, -⟩ := Array.findIdx?_eq_some_iff_getElem.mp found
      have here : draft.imports[index]? = some draft.imports[index] :=
        Array.getElem?_eq_getElem inside
      obtain ⟨binding, function, known', member', major, minor⟩ :=
        imports.exported _ (Array.getElem_mem inside)
      -- the import that is there was made for the same module, so its version is the same
      have imported : draft.imports[index] = call.imported := by
        generalize draft.imports[index] = present at same known' member' major minor
        obtain ⟨moduleName, _, _, name⟩ := present
        obtain ⟨sameModule, sameName⟩ := Bool.and_eq_true_iff.mp same
        obtain rfl : moduleName = call.binding.name := of_decide_eq_true sameModule
        obtain rfl : name = call.function.name := of_decide_eq_true sameName
        obtain rfl := Option.some.inj (known.symm.trans known')
        rw [HostCall.imported, ← major, ← minor]
      exact ⟨grown, imports, .cons ⟨imported ▸ here, rfl⟩ .nil, rfl, nofun, suited _ grown⟩
  | none =>
      rw [found] at grown
      have fresh := Array.findIdx?_eq_none_iff.mp found
      refine ⟨grown, ⟨?_, ?_⟩, .cons ⟨Array.getElem?_push_size, rfl⟩ .nil, rfl, nofun,
        suited _ grown⟩
      · change ((draft.imports.push call.imported).toList.map Import.target).Nodup
        rw [Array.toList_push, List.map_append, List.map_singleton, List.nodup_append]
        refine ⟨imports.once, List.nodup_singleton _, ?_⟩
        intro target taken other same
        obtain ⟨present, inside, rfl⟩ := List.mem_map.mp taken
        obtain rfl := List.mem_singleton.mp same
        intro equal
        obtain ⟨moduleName, function⟩ := Prod.mk.inj equal
        have apart := fresh present (Array.mem_toList_iff.mp inside)
        simp [isImport, moduleName, function] at apart
      · intro imported inside
        obtain inside | rfl := Array.mem_push.mp inside
        · exact imports.exported imported inside
        · exact ⟨call.binding, call.function, known, member, rfl, rfl⟩

theorem gains_refl {draft : Draft} (imports : ImportsFrom references draft.imports) :
    Gains references draft draft [] .none :=
  ⟨.refl draft, imports, .nil, rfl, nofun, nofun⟩

end Draft

/-! ## Parts of bodies -/

namespace Lowering

variable {Value Other : Type} {references : ReferenceSet} {calls others : HostCalls}
  {ops : List (ImportIndex × Nat)}

/-- An action adds neither imports nor routines. -/
def Spares (action : Lowering Value) : Prop :=
  ∀ body, body.draft.Extends (action body).2.draft ∧
    (action body).2.draft.imports = body.draft.imports ∧
    (action body).2.draft.routines = body.draft.routines

namespace Spares

theorem pure (value : Value) : Spares (Pure.pure value) :=
  fun body ↦ ⟨.refl body.draft, rfl, rfl⟩

theorem bind {action : Lowering Value} {next : Value → Lowering Other} (first : Spares action)
    (second : ∀ value, Spares (next value)) : Spares (action >>= next) := by
  intro body
  obtain ⟨grown, imports, routines⟩ := first body
  obtain ⟨grown', imports', routines'⟩ := second (action body).1 (action body).2
  exact ⟨grown.trans grown', imports'.trans imports, routines'.trans routines⟩

theorem ite {condition : Prop} [Decidable condition] {action other : Lowering Value}
    (first : Spares action) (second : Spares other) :
    Spares (if condition then action else other) := by
  split
  · exact first
  · exact second

theorem of_notes {action : Lowering Value}
    (notes : ∀ body : Body, body.draft.Notes (action body).2.draft) : Spares action :=
  fun body ↦ ⟨(notes body).extends', (notes body).imports, (notes body).routines⟩

/-- An action leaves the draft as it is. -/
theorem of_draft {action : Lowering Value}
    (same : ∀ body : Body, (action body).2.draft = body.draft) : Spares action :=
  of_notes fun body ↦ same body ▸ .refl _

end Spares

theorem spares_report (code : Code) (message : String) (span : Span) :
    Spares (report code message span) :=
  .of_notes fun body ↦ .note _ body.draft

theorem spares_mistake (code : Code) (message : String) (span : Span) :
    Spares (mistake code message span) :=
  (spares_report code message span).bind fun _ ↦ .pure _

theorem spares_check (expected actual : Ty) (span : Span) : Spares (check expected actual span) :=
  .ite (.pure ()) (spares_report _ _ span)

theorem spares_allocate : Spares allocate :=
  .of_draft fun _ ↦ rfl

theorem spares_declareLocal (name : String) (type : Ty) (lint : Option Span) :
    Spares (declareLocal name type lint) := by
  refine spares_allocate.bind fun slot ↦ .bind (.of_draft ?_) fun _ ↦ .pure _
  rintro ⟨draft, scopes, nextSlot⟩
  cases scopes <;> rfl

theorem spares_openScope : Spares openScope :=
  .of_draft fun _ ↦ rfl

theorem spares_closeScope : Spares closeScope := by
  refine .of_notes ?_
  rintro ⟨draft, scopes, nextSlot⟩
  cases scopes with
  | nil => exact .refl draft
  | cons scope outer => exact ⟨_, rfl⟩

theorem spares_resolve (setting : Setting) (written : Syntax.TypeExpression) :
    Spares (resolve setting written) :=
  .of_notes fun body ↦ notes_resolveType _ _ _ written body.draft

theorem spares_lookup (name : String) : Spares (lookup name) :=
  .of_draft fun body ↦ (lookup_apply name body).2.2.1

theorem spares_lookupTarget (name : String) : Spares (lookupTarget name) :=
  .of_draft fun _ ↦ rfl

/-- An action compiles a part of a body that makes these host calls: behind those of the code that it
is given, its code makes them and no others. -/
def Emits (references : ReferenceSet) (code : Value → List Op) (given : List (ImportIndex × Nat))
    (calls : HostCalls) (action : Lowering Value) : Prop :=
  ∀ body, ImportsFrom references body.draft.imports → ∃ ops,
    hostOps (code (action body).1) = given ++ ops ∧
      Draft.Gains references body.draft (action body).2.draft ops calls

namespace Emits

variable {code : Value → List Op} {code' : Other → List Op} {action : Lowering Value}
  {next : Value → Lowering Other} {value : Value} {given : List (ImportIndex × Nat)}

theorem pure (same : hostOps (code value) = given) :
    Emits references code given .none (Pure.pure value) :=
  fun body imports ↦ ⟨[], by rw [List.append_nil]; exact same, Draft.gains_refl imports⟩

/-- What is compiled next is given the code of what is compiled first. -/
theorem bind (first : Emits references code given calls action)
    (second : ∀ value, Emits references code' (hostOps (code value)) others (next value)) :
    Emits references code' given (calls ++ others) (action >>= next) := by
  intro body imports
  obtain ⟨ops, made, gains⟩ := first body imports
  obtain ⟨more, made', gains'⟩ := second (action body).1 (action body).2 gains.imports
  exact ⟨ops ++ more, by rw [← List.append_assoc, ← made]; exact made', gains.trans gains'⟩

theorem ite {condition : Prop} [Decidable condition] {action other : Lowering Value}
    (first : Emits references code given calls action)
    (second : Emits references code given calls other) :
    Emits references code given calls (if condition then action else other) := by
  split
  · exact first
  · exact second

/-- Something that calls nothing is done before an action that does all the work. -/
theorem after (first : Spares action)
    (second : ∀ value, Emits references code' given calls (next value)) :
    Emits references code' given calls (action >>= next) := by
  intro body imports
  obtain ⟨grown, same, routines⟩ := first body
  obtain ⟨ops, made, gains⟩ := second (action body).1 (action body).2 (same ▸ imports)
  refine ⟨ops, made, { gains with
    grown := grown.trans gains.grown
    size := routines ▸ gains.size
    lambdas := routines ▸ gains.lambdas }⟩

/-- Something that calls nothing is done after an action that does all the work. -/
theorem before (first : Emits references code given calls action)
    (second : ∀ value, Emits references code' (hostOps (code value)) .none (next value)) :
    Emits references code' given calls (action >>= next) := by
  have both := first.bind second
  rwa [HostCalls.append_none] at both

/-- Code that calls nothing comes before an action that does all the work. -/
theorem lead (first : Emits references code given .none action)
    (second : ∀ value, Emits references code' (hostOps (code value)) calls (next value)) :
    Emits references code' given calls (action >>= next) :=
  first.bind second

/-- A result is computed from that of an action that does all the work. -/
theorem map {make : Value → Other} (first : Emits references code given calls action)
    (same : ∀ value, hostOps (code' (make value)) = hostOps (code value)) :
    Emits references code' given calls (action >>= fun value ↦ Pure.pure (make value)) :=
  first.before fun value ↦ .pure (same value)

/-- What is compiled on its own may stand behind other code. -/
theorem behind (first : Emits references code [] calls action) (earlier : List Op) :
    Emits references (fun value ↦ earlier ++ code value) (hostOps earlier) calls action := by
  intro body imports
  obtain ⟨ops, made, gains⟩ := first body imports
  exact ⟨ops, by rw [hostOps_append, made, List.nil_append], gains⟩

end Emits

/-- A routine of its own is added with the calls of its code, and the lambdas in it behind it. -/
theorem gains_addRoutine {action : Lowering Value} {code : Value → List Op}
    (inner : Emits references code [] calls action) (routine : Routine) (ending : List Op)
    (silent : hostOps ending = []) {draft : Draft} (imports : ImportsFrom references draft.imports) :
    Draft.Gains references draft
      (addRoutine routine (fun value ↦ code value ++ ending) action draft).2 [] calls.enclosed := by
  let reserved := Draft.reserve routine draft
  let compiled := action ⟨reserved.2, [[]], 0⟩
  obtain ⟨ops, made, gains⟩ := inner ⟨reserved.2, [[]], 0⟩ imports
  have first : draft.Extends reserved.2 := Draft.extends_reserve routine draft
  have size : reserved.2.routines.size = draft.routines.size + 1 := Array.size_push _
  have kept : draft.routines.size < compiled.2.draft.routines.size := by
    rw [gains.size, size]
    exact Nat.lt_of_lt_of_le (Nat.lt_succ_self _) (Nat.le_add_right _ _)
  let after := (Draft.complete draft.routines.size (code compiled.1 ++ ending)
    compiled.2.nextSlot compiled.2.draft).2
  have others {index : Nat} (different : draft.routines.size ≠ index) :
      after.routines[index]? = compiled.2.draft.routines[index]? :=
    Array.getElem?_modify.trans (if_neg different)
  refine
    { grown := (first.trans gains.grown).complete (Nat.le_refl _) _ _
      imports := gains.imports
      own := .nil
      size := ?_
      lambdas := fun {position inside} found ↦ ?_
      suited := fun quiet call inside ↦ gains.suited quiet call inside }
  · change (compiled.2.draft.routines.modify _ _).size = _
    rw [Array.size_modify, gains.size, size, Nat.add_right_comm]
    rfl
  · cases position with
    | zero =>
        obtain rfl := Option.some.inj found
        obtain ⟨own, here⟩ : ∃ own, compiled.2.draft.routines[draft.routines.size]? = some own :=
          ⟨_, Array.getElem?_eq_getElem kept⟩
        have same : hostOps (code compiled.1 ++ ending) = ops := by
          rw [hostOps_append, silent, List.append_nil]
          exact made
        -- the reserved routine has the code of the part in the end
        refine ⟨_, Draft.complete_routine here, ?_⟩
        change Makes after.imports (hostOps (code compiled.1 ++ ending)) calls.own
        rw [same]
        exact gains.own
    | succ position =>
        obtain ⟨routine', there, made'⟩ := gains.lambdas found
        rw [size, Nat.add_right_comm] at there
        exact ⟨routine', (others (by omega)).trans there, made'⟩

end Lowering

end Compile

end GuestScript
