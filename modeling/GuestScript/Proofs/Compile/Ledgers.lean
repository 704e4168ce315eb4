import GuestScript.Meaning.Lets
import GuestScript.Proofs.Compile.Marks
import GuestScript.Proofs.Compile.Units
import Mathlib.Algebra.Order.Group.Multiset
import Mathlib.Tactic.Abel

/-!
# What has been said about unused variables

While a body is compiled, two numbers change together: the warnings about unused variables that have been
given, and those that are due when the scopes end. `Body.Ledger` says of a part of a body that both of
them together change by the warnings about the variables that the part binds, judged by its own code and
by what is compiled behind it, whatever that reads. Code that is compiled behind a part cannot read a
variable whose scope has ended, as slots are never used again. So the balance is kept when parts are put
together, and when a scope ends its warnings go from those that are due to those that have been given.
-/

namespace GuestScript.Compile

open Bytecode (Op Routine RoutineIndex)
open Lowering
open Meaning (LetVariable Lets unusedIn unusedWarnings)

/-! ## Warnings by code -/

/-- What is said about a variable depends on the loads in the code of its routine. -/
theorem unusedIn_congr {arity : Nat} {code other : List Op} {own : List LetVariable}
    (same : ∀ each ∈ own, .load (each.slot arity) ∈ code ↔ .load (each.slot arity) ∈ other) :
    unusedIn arity code own = unusedIn arity other own := by
  have filtered : ∀ each ∈ own, each.isUnused arity code = each.isUnused arity other := by
    intro each inside
    have loads : decide (.load (each.slot arity) ∈ code) = decide (.load (each.slot arity) ∈ other) :=
      decide_eq_decide.mpr (same each inside)
    rw [LetVariable.isUnused, loads, LetVariable.isUnused]
  rw [unusedIn, List.filter_congr filtered, unusedIn]

theorem unusedIn_append (arity : Nat) (code : List Op) (first second : List LetVariable) :
    unusedIn arity code (first ++ second)
      = unusedIn arity code first ++ unusedIn arity code second := by
  rw [unusedIn, List.filter_append, List.map_append]
  rfl

theorem unusedWarnings_append (routines : Array Routine)
    (first second : List (List LetVariable × RoutineIndex)) :
    unusedWarnings routines (first ++ second)
      = unusedWarnings routines first ++ unusedWarnings routines second :=
  List.flatMap_append

theorem unusedWarnings_cons {routines : Array Routine} {index : RoutineIndex} {routine : Routine}
    (found : routines[index]? = some routine) (own : List LetVariable)
    (rest : List (List LetVariable × RoutineIndex)) :
    unusedWarnings routines ((own, index) :: rest)
      = unusedIn routine.arity routine.code.toList own ++ unusedWarnings routines rest := by
  rw [unusedWarnings, List.flatMap_cons, found]
  rfl

theorem unusedWarnings_congr {routines others : Array Routine}
    {lets : List (List LetVariable × RoutineIndex)}
    (same : ∀ entry ∈ lets, others[entry.2]? = routines[entry.2]?) :
    unusedWarnings others lets = unusedWarnings routines lets :=
  List.flatMap_congr fun entry inside ↦ by rw [same entry inside]

/-! ## Drafts -/

namespace Draft

variable {before middle after : Draft}

/-- The warnings about unused variables so far. -/
def unused (draft : Draft) : Multiset (Diagnostic Span) :=
  (draft.findings.filter fun finding ↦ finding.code = .unusedLocal : List (Diagnostic Span))

/-- A routine is there, and the values of these variables of it are stored in slots of their own. -/
def Places (draft : Draft) (entry : List LetVariable × RoutineIndex) : Prop :=
  (entry.1.map LetVariable.index).Nodup ∧ ∃ routine, draft.routines[entry.2]? = some routine ∧
    ∀ each ∈ entry.1, .store (each.slot routine.arity) ∈ routine.code.toList

theorem Places.kept {entry : List LetVariable × RoutineIndex} (places : before.Places entry)
    (same : after.routines[entry.2]? = before.routines[entry.2]?) : after.Places entry := by
  obtain ⟨distinct, routine, found, stores⟩ := places
  exact ⟨distinct, routine, same.trans found, stores⟩

/-- Between two drafts nothing was said about unused variables, and no routine was added. -/
structure Passes (before after : Draft) : Prop where
  grown : before.Extends after
  routines : after.routines = before.routines
  unused : after.unused = before.unused

namespace Passes

theorem refl (draft : Draft) : draft.Passes draft :=
  ⟨.refl draft, rfl, rfl⟩

theorem trans (first : before.Passes middle) (second : middle.Passes after) :
    before.Passes after :=
  ⟨first.grown.trans second.grown, second.routines.trans first.routines,
    second.unused.trans first.unused⟩

theorem note {finding : Diagnostic Span} (other : finding.code ≠ .unusedLocal) (draft : Draft) :
    draft.Passes (Draft.note finding draft).2 := by
  refine ⟨extends_note finding draft, rfl, ?_⟩
  change (List.filter _ (finding :: draft.findings) : Multiset (Diagnostic Span)) = _
  rw [List.filter_cons_of_neg (by simpa using other)]
  rfl

theorem report {code : Code} (other : code ≠ .unusedLocal) (message : String) (span : Span)
    (draft : Draft) : draft.Passes (Draft.report code message span draft).2 :=
  note other draft

end Passes

mutual

/-- Finding out what a written type means says nothing about variables. -/
theorem passes_resolveType (references : ReferenceSet) (names : List TypeName)
    (namespaceName : String) : (written : Syntax.TypeExpression) → (draft : Draft) →
    draft.Passes (resolveType references names namespaceName written draft).2
  | .int _, draft | .str _, draft | .bool _, draft | .unit _, draft => .refl draft
  | .dyn span, draft => by
      rw [resolveType]
      split
      · exact .refl draft
      · exact .report (by decide) _ span draft
  | .array element _, draft | .seq element _, draft => by
      rw [resolveType]
      exact passes_resolveType references names namespaceName element draft
  | .function parameters result _, draft => by
      rw [resolveType]
      exact (passes_resolveTypes references names namespaceName parameters draft).trans
        (passes_resolveType references names namespaceName result _)
  | .named name span, draft => by
      rw [resolveType]
      cases TypeName.find? names name namespaceName with
      | some index => exact .refl draft
      | none => exact .report (by decide) _ span draft

/-- Finding out what written types mean says nothing about variables. -/
theorem passes_resolveTypes (references : ReferenceSet) (names : List TypeName)
    (namespaceName : String) : (written : List Syntax.TypeExpression) → (draft : Draft) →
    draft.Passes (resolveTypes references names namespaceName written draft).2
  | [], draft => .refl draft
  | first :: rest, draft => by
      rw [resolveTypes]
      exact (passes_resolveType references names namespaceName first draft).trans
        (passes_resolveTypes references names namespaceName rest _)

end

end Draft

/-! ## Bodies -/

/-- Code behind a body may read this slot: that of an argument of its routine, of a variable in scope,
or of a variable that is still to come. -/
def Body.Offers (base : Nat) (body : Body) (slot : Nat) : Prop :=
  slot < base ∨ slot ∈ slotsOf body.locals ∨ body.nextSlot ≤ slot

/-- Code reads nothing but slots that it may read behind a body. -/
def Body.Allows (base : Nat) (body : Body) (code : List Op) : Prop :=
  ∀ slot, .load slot ∈ code → body.Offers base slot

/-- The variables in scope have slots of their own that have been taken, and the slots below `base` are
those of arguments, which need not be read. -/
structure Body.IsTidy (base : Nat) (body : Body) : Prop where
  inScope : body.locals ≠ []
  arity : base ≤ body.nextSlot
  distinct : (slotsOf body.locals).Nodup
  taken : ∀ slot ∈ slotsOf body.locals, slot < body.nextSlot
  arguments : ∀ present ∈ body.locals.flatten, present.slot < base → present.used = true

/-- What a part of a body has done: its code has these loads and stores, it has taken so many slots,
and it binds these variables. -/
structure Body.Ledger (base : Nat) (before after : Body) (ops : List Op) (binders : Nat) (lets : Lets) :
    Prop where
  grown : before.draft.Extends after.draft
  size : after.draft.routines.size = before.draft.routines.size + lets.lambdas.length
  next : after.nextSlot = before.nextSlot + binders
  locals : ∃ added, after.locals = widen added (marked ops before.locals) ∧
    (added.map Local.slot).Nodup ∧
    ∀ present ∈ added, before.nextSlot ≤ present.slot ∧ present.slot < after.nextSlot
  loads : ∀ slot, .load slot ∈ ops → before.Offers base slot ∧ slot < after.nextSlot
  own : ∀ each ∈ lets.own, before.nextSlot ≤ each.slot base ∧ each.slot base < after.nextSlot
  numbers : (lets.own.map LetVariable.index).Nodup
  stores : ∀ each ∈ lets.own, .store (each.slot base) ∈ ops
  placed : ∀ entry ∈ lets.lambdas.zipIdx before.draft.routines.size, after.draft.Places entry
  balance : ∀ code, after.Allows base code →
    after.draft.unused + due (marked code after.locals)
      = before.draft.unused + due (marked (ops ++ code) before.locals)
        + (unusedIn base (ops ++ code) lets.own : List (Diagnostic Span))
        + (unusedWarnings after.draft.routines
            (lets.lambdas.zipIdx before.draft.routines.size) : List (Diagnostic Span))

namespace Body

variable {base : Nat} {before middle after : Body} {ops more : List Op} {binders others : Nat}
  {lets rest : Lets}

/-- What is compiled reads variables that are in scope, and that is all. -/
theorem Ledger.of_reads (tidy : before.IsTidy base) (passes : before.draft.Passes after.draft)
    (locals : after.locals = marked ops before.locals) (next : after.nextSlot = before.nextSlot)
    (loads : ∀ slot, .load slot ∈ ops → slot < base ∨ slot ∈ slotsOf before.locals) :
    Ledger base before after ops 0 .none where
  grown := passes.grown
  size := congrArg Array.size passes.routines
  next := next
  locals := ⟨[], by rw [widen_nil, locals], List.nodup_nil, nofun⟩
  loads slot inside := by
    have known := loads slot inside
    refine ⟨known.imp_right .inl, next ▸ ?_⟩
    exact known.elim (fun low ↦ Nat.lt_of_lt_of_le low tidy.arity) (tidy.taken slot)
  own := nofun
  numbers := List.nodup_nil
  stores := nofun
  placed := nofun
  balance code _ := by
    rw [locals, marked_marked, passes.unused]
    exact ((add_zero _).trans (add_zero _)).symm

/-- What is compiled reads nothing but arguments. -/
theorem Ledger.of_passes (tidy : before.IsTidy base) (passes : before.draft.Passes after.draft)
    (locals : after.locals = before.locals) (next : after.nextSlot = before.nextSlot)
    (low : ∀ slot, .load slot ∈ ops → slot < base) : Ledger base before after ops 0 .none := by
  have same : marked ops before.locals = before.locals :=
    marked_of_used fun present inside loaded ↦ tidy.arguments present inside (low _ loaded)
  exact .of_reads tidy passes (locals.trans same.symm) next fun slot loaded ↦ .inl (low slot loaded)

variable (ledger : Ledger base before after ops binders lets)

include ledger

theorem Ledger.later : before.nextSlot ≤ after.nextSlot :=
  ledger.next ▸ Nat.le_add_right _ _

/-- The slots of the variables in scope were those of such variables before, or have been taken since
then. -/
theorem Ledger.mem_slotsOf (tidy : before.IsTidy base) {slot : Nat}
    (inside : slot ∈ slotsOf after.locals) :
    slot ∈ slotsOf before.locals ∨ before.nextSlot ≤ slot ∧ slot < after.nextSlot := by
  obtain ⟨added, locals, -, fresh⟩ := ledger.locals
  rw [locals, slotsOf_widen (marked_ne_nil tidy.inScope), slotsOf_marked, List.mem_append] at inside
  obtain new | old := inside
  · obtain ⟨present, listed, rfl⟩ := List.mem_map.mp new
    exact .inr (fresh present listed)
  · exact .inl old

/-- What code may read behind a part, and what the part reads, code may read before the part. -/
theorem Ledger.offers (tidy : before.IsTidy base) {slot : Nat} (offered : after.Offers base slot) :
    before.Offers base slot := by
  obtain low | inside | later := offered
  · exact .inl low
  · exact .inr ((ledger.mem_slotsOf tidy inside).imp_right And.left)
  · exact .inr (.inr (Nat.le_trans ledger.later later))

theorem Ledger.allows (tidy : before.IsTidy base) {code : List Op} (allowed : after.Allows base code) :
    before.Allows base (ops ++ code) := by
  intro slot inside
  obtain here | there := List.mem_append.mp inside
  · exact (ledger.loads slot here).1
  · exact ledger.offers tidy (allowed slot there)

theorem Ledger.isTidy (tidy : before.IsTidy base) : after.IsTidy base := by
  obtain ⟨added, locals, distinct, fresh⟩ := ledger.locals
  have some' : marked ops before.locals ≠ [] := marked_ne_nil tidy.inScope
  refine
    { inScope := locals ▸ widen_ne_nil some'
      arity := Nat.le_trans tidy.arity ledger.later
      distinct := ?_
      taken := fun slot inside ↦ ?_
      arguments := fun present inside low ↦ ?_ }
  · rw [locals, slotsOf_widen some', slotsOf_marked]
    refine List.nodup_append.mpr ⟨distinct, tidy.distinct, ?_⟩
    rintro slot new other old rfl
    obtain ⟨present, listed, rfl⟩ := List.mem_map.mp new
    exact absurd (tidy.taken _ old) (Nat.not_lt.mpr (fresh present listed).1)
  · obtain old | new := ledger.mem_slotsOf tidy inside
    · exact Nat.lt_of_lt_of_le (tidy.taken slot old) ledger.later
    · exact new.2
  · rw [locals, widen_flatten some', List.mem_append] at inside
    obtain new | old := inside
    · have bound := Nat.le_trans tidy.arity (fresh present new).1
      exact absurd low (Nat.not_lt.mpr bound)
    · rw [marked_flatten] at old
      obtain ⟨earlier, listed, rfl⟩ := List.mem_map.mp old
      have used := tidy.arguments earlier listed low
      simp [Local.reading, used]

omit ledger

/-- Parts are put together, one behind the other. -/
theorem Ledger.trans (tidy : before.IsTidy base)
    (first : Ledger base before middle ops binders lets)
    (second : Ledger base middle after more others rest) :
    Ledger base before after (ops ++ more) (binders + others) (lets ++ rest) := by
  have tidy' := first.isTidy tidy
  have entries : (lets ++ rest).lambdas.zipIdx before.draft.routines.size
      = lets.lambdas.zipIdx before.draft.routines.size
        ++ rest.lambdas.zipIdx middle.draft.routines.size := by
    rw [first.size, ← List.zipIdx_append]
    rfl
  -- routines that are there stay as they are
  have kept : ∀ entry ∈ lets.lambdas.zipIdx before.draft.routines.size,
      after.draft.routines[entry.2]? = middle.draft.routines[entry.2]? := by
    intro entry inside
    refine second.grown.routines ?_
    rw [first.size]
    exact List.snd_lt_add_of_mem_zipIdx inside
  refine
    { grown := first.grown.trans second.grown
      size := ?_
      next := by rw [second.next, first.next, Nat.add_assoc]
      locals := ?_
      loads := fun slot inside ↦ ?_
      own := List.forall_mem_append.mpr ⟨fun each inside ↦ ?_, fun each inside ↦ ?_⟩
      numbers := ?_
      stores := List.forall_mem_append.mpr ⟨fun each inside ↦ ?_, fun each inside ↦ ?_⟩
      placed := ?_
      balance := fun code allowed ↦ ?_ }
  · rw [second.size, first.size, Nat.add_assoc, ← List.length_append]
    rfl
  · obtain ⟨added, locals, distinct, fresh⟩ := first.locals
    obtain ⟨added', locals', distinct', fresh'⟩ := second.locals
    have slots : (added.map (Local.reading more)).map Local.slot = added.map Local.slot :=
      List.map_map
    refine ⟨added' ++ added.map (Local.reading more), ?_, ?_, ?_⟩
    · rw [locals', locals, marked_widen, widen_widen, marked_marked]
    · rw [List.map_append, slots]
      refine List.nodup_append.mpr ⟨distinct', distinct, ?_⟩
      rintro slot new other old rfl
      obtain ⟨present, listed, rfl⟩ := List.mem_map.mp new
      obtain ⟨earlier, listed', same⟩ := List.mem_map.mp old
      have later := (fresh' present listed).1
      exact absurd (same ▸ (fresh earlier listed').2) (Nat.not_lt.mpr later)
    · refine List.forall_mem_append.mpr ⟨fun present inside ↦ ?_, ?_⟩
      · have bounds := fresh' present inside
        exact ⟨Nat.le_trans first.later bounds.1, bounds.2⟩
      · refine List.forall_mem_map.mpr fun present inside ↦ ?_
        have bounds := fresh present inside
        exact ⟨bounds.1, Nat.lt_of_lt_of_le bounds.2 second.later⟩
  · obtain here | there := List.mem_append.mp inside
    · have known := first.loads slot here
      exact ⟨known.1, Nat.lt_of_lt_of_le known.2 second.later⟩
    · have known := second.loads slot there
      exact ⟨first.offers tidy known.1, known.2⟩
  · have bounds := first.own each inside
    exact ⟨bounds.1, Nat.lt_of_lt_of_le bounds.2 second.later⟩
  · have bounds := second.own each inside
    exact ⟨Nat.le_trans first.later bounds.1, bounds.2⟩
  · change ((lets.own ++ rest.own).map _).Nodup
    rw [List.map_append]
    refine List.nodup_append.mpr ⟨first.numbers, second.numbers, ?_⟩
    rintro number old other new rfl
    obtain ⟨each, inside, rfl⟩ := List.mem_map.mp old
    obtain ⟨each', inside', same⟩ := List.mem_map.mp new
    have slots : each'.slot base = each.slot base := congrArg (base + ·) same
    have later := (second.own each' inside').1
    exact absurd (first.own each inside).2 (Nat.not_lt.mpr (slots ▸ later))
  · exact List.mem_append_left _ (first.stores each inside)
  · exact List.mem_append_right _ (second.stores each inside)
  · rw [entries]
    refine List.forall_mem_append.mpr ⟨fun entry inside ↦ ?_, second.placed⟩
    exact (first.placed entry inside).kept (kept entry inside)
  · have earlier := first.balance (more ++ code) (second.allows tidy' allowed)
    have later := second.balance code allowed
    -- the first part does not read what the second one binds
    have own : unusedIn base (ops ++ more ++ code) rest.own = unusedIn base (more ++ code) rest.own := by
      refine unusedIn_congr fun each inside ↦ ?_
      rw [List.append_assoc, List.mem_append, or_iff_right]
      intro loaded
      exact absurd (first.loads _ loaded).2 (Nat.not_lt.mpr (second.own each inside).1)
    have both : unusedIn base (ops ++ more ++ code) (lets ++ rest).own
        = unusedIn base (ops ++ (more ++ code)) lets.own ++ unusedIn base (more ++ code) rest.own := by
      rw [← own, List.append_assoc]
      exact unusedIn_append _ _ _ _
    rw [later, earlier, entries, unusedWarnings_append, unusedWarnings_congr kept, both,
      ← Multiset.coe_add, ← Multiset.coe_add, List.append_assoc]
    abel

/-- A slot is taken that no variable in scope has. -/
theorem Ledger.of_allocated (draft : after.draft = before.draft)
    (locals : after.locals = before.locals) (next : after.nextSlot = before.nextSlot + 1) :
    Ledger base before after [] 1 .none where
  grown := draft ▸ .refl _
  size := congrArg (·.routines.size) draft
  next := next
  locals := ⟨[], by rw [widen_nil, marked_nil, locals], List.nodup_nil, nofun⟩
  loads := nofun
  own := nofun
  numbers := List.nodup_nil
  stores := nofun
  placed := nofun
  balance code _ := by
    rw [locals, draft]
    exact ((add_zero _).trans (add_zero _)).symm

/-- A variable comes into scope. What is due about it is what is said about the variables that are
bound. -/
theorem Ledger.of_declared {present : Local} {own : List LetVariable} (tidy : before.IsTidy base)
    (draft : after.draft = before.draft) (locals : after.locals = widen [present] before.locals)
    (next : after.nextSlot = before.nextSlot + 1) (slot : present.slot = before.nextSlot)
    (silent : ∀ slot, .load slot ∉ ops)
    (bound : ∀ each ∈ own, each.slot base = before.nextSlot ∧ .store (each.slot base) ∈ ops)
    (numbers : (own.map LetVariable.index).Nodup)
    (worth : ∀ code, dueFor [present.reading code] = (unusedIn base code own : List _)) :
    Ledger base before after ops 1 ⟨own, []⟩ := by
  have same (code : List Op) : marked (ops ++ code) before.locals = marked code before.locals := by
    rw [← marked_marked, marked_of_used fun _ _ loaded ↦ absurd loaded (silent _)]
  have here := same []
  rw [List.append_nil, marked_nil] at here
  refine
    { grown := draft ▸ .refl _
      size := congrArg (·.routines.size) draft
      next := next
      locals := ⟨[present], by rw [here, locals], List.nodup_singleton _, ?_⟩
      loads := fun slot inside ↦ absurd inside (silent slot)
      own := fun each inside ↦ ?_
      numbers := numbers
      stores := fun each inside ↦ (bound each inside).2
      placed := nofun
      balance := fun code _ ↦ ?_ }
  · refine List.forall_mem_singleton.mpr ⟨Nat.le_of_eq slot.symm, ?_⟩
    rw [slot, next]
    exact Nat.lt_succ_self _
  · rw [(bound each inside).1, next]
    exact ⟨Nat.le_refl _, Nat.lt_succ_self _⟩
  · have own : unusedIn base (ops ++ code) own = unusedIn base code own :=
      unusedIn_congr fun each _ ↦ List.mem_append.trans (or_iff_right (silent _))
    rw [locals, marked_widen, due_widen (marked_ne_nil tidy.inScope), draft, same, own]
    change _ + (dueFor [present.reading code] + _) = _ + (0 : Multiset _)
    rw [worth]
    abel

/-! ### Scopes -/

theorem IsTidy.opened (tidy : before.IsTidy base) : (openScope before).2.IsTidy base where
  inScope := List.cons_ne_nil _ _
  arity := tidy.arity
  distinct := tidy.distinct
  taken := tidy.taken
  arguments := tidy.arguments

/-- What ending a scope does: its warnings have been given. -/
theorem closeScope_of_locals {scope : List Local} {outer : List (List Local)}
    (locals : before.locals = scope :: outer) :
    (closeScope before).2.locals = outer ∧
      (closeScope before).2.draft.unused = dueFor scope + before.draft.unused := by
  obtain ⟨draft, scopes, nextSlot⟩ := before
  obtain ⟨inner, rest, rfl, rfl, rfl⟩ := List.map_eq_cons_iff.mp locals
  refine ⟨rfl, ?_⟩
  have warnings : (inner.filterMap unusedWarning?).filter (fun finding ↦ finding.code = .unusedLocal)
      = inner.filterMap unusedWarning? := by
    refine List.filter_eq_self.mpr fun finding inside ↦ ?_
    obtain ⟨present, -, given⟩ := List.mem_filterMap.mp inside
    exact decide_eq_true (code_of_unusedWarning? given)
  rw [dueFor_watched]
  have both : (inner.filterMap unusedWarning? ++ draft.findings).filter
        (fun finding ↦ finding.code = .unusedLocal)
      = inner.filterMap unusedWarning? ++
        draft.findings.filter fun finding ↦ finding.code = .unusedLocal := by
    rw [List.filter_append, warnings]
  exact (congrArg _ both).trans (Multiset.coe_add _ _).symm

theorem closeScope_keeps (body : Body) :
    (closeScope body).2.draft.routines = body.draft.routines ∧
      (closeScope body).2.nextSlot = body.nextSlot := by
  obtain ⟨draft, scopes, nextSlot⟩ := body
  cases scopes <;> exact ⟨rfl, rfl⟩

/-- When a scope ends, the warnings about its variables have been given instead of being due. -/
theorem Ledger.close (tidy : before.IsTidy base)
    (ledger : Ledger base (openScope before).2 middle ops binders lets) :
    Ledger base before (closeScope middle).2 ops binders lets ∧
      (closeScope middle).2.locals = marked ops before.locals := by
  obtain ⟨added, locals, -, fresh⟩ := ledger.locals
  have locals : middle.locals = (added ++ []) :: marked ops before.locals := locals
  rw [List.append_nil] at locals
  obtain ⟨outer, unused⟩ := closeScope_of_locals locals
  obtain ⟨routines, next⟩ := closeScope_keeps middle
  have grown : middle.draft.Extends (closeScope middle).2.draft := (grows_closeScope middle).1
  refine ⟨?_, outer⟩
  refine
    { grown := ledger.grown.trans grown
      size := (congrArg Array.size routines).trans ledger.size
      next := next.trans ledger.next
      locals := ⟨[], by rw [widen_nil, outer], List.nodup_nil, nofun⟩
      loads := fun slot inside ↦ next ▸ ledger.loads slot inside
      own := fun each inside ↦ next ▸ ledger.own each inside
      numbers := ledger.numbers
      stores := ledger.stores
      placed := fun entry inside ↦ (ledger.placed entry inside).kept (by rw [routines])
      balance := fun code allowed ↦ ?_ }
  have apart : ∀ present ∈ added, present.reading code = id present := by
    intro present inside
    have bounds := fresh present inside
    refine Local.reading_of_apart fun loaded ↦ ?_
    obtain low | old | later := allowed _ loaded
    · exact absurd (Nat.le_trans tidy.arity bounds.1) (Nat.not_le.mpr low)
    · rw [outer, slotsOf_marked] at old
      exact absurd (tidy.taken _ old) (Nat.not_lt.mpr bounds.1)
    · exact absurd bounds.2 (Nat.not_lt.mpr (next ▸ later))
  have allowed' : middle.Allows base code := by
    intro slot loaded
    obtain low | old | later := allowed slot loaded
    · exact .inl low
    · refine .inr (.inl ?_)
      rw [locals, slotsOf, List.flatten_cons, List.map_append, ← outer]
      exact List.mem_append_right _ old
    · exact .inr (.inr (next ▸ later))
  have balance := ledger.balance code allowed'
  have dues : due (marked code middle.locals)
      = dueFor added + due (marked code (closeScope middle).2.locals) := by
    rw [locals, outer]
    change due (added.map (Local.reading code) :: marked code (marked ops before.locals)) = _
    rw [due_cons, List.map_congr_left apart, List.map_id]
  rw [dues] at balance
  rw [unused, routines]
  refine Eq.trans ?_ balance
  abel

end Body

end GuestScript.Compile
