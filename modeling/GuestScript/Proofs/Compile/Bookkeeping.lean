import GuestScript.Proofs.Compile.Ledgers

/-!
# Keeping the books while a body is compiled

`Books` says of an action on a body that it compiles a part that binds the variables of some lets, and
that a ledger can be kept of it. The rules put actions together, and the walk goes through expressions
and statements with one lemma for each kind. Nothing is asked of a text: the books are kept whether or
not there are mistakes in it.
-/

namespace GuestScript.Compile

open Bytecode (Op Routine RoutineIndex)
open Meaning (LetVariable Lets unusedIn)
open Syntax

namespace Lowering

variable {Value Other : Type} {base next : Nat}

/-! ## Actions that say nothing about variables -/

/-- An action leaves variables and routines alone, and says nothing about unused variables. -/
def Silent (action : Lowering Value) : Prop :=
  ∀ body, body.draft.Passes (action body).2.draft ∧ (action body).2.locals = body.locals ∧
    (action body).2.nextSlot = body.nextSlot

namespace Silent

theorem pure (value : Value) : Silent (Pure.pure value) :=
  fun body ↦ ⟨.refl body.draft, rfl, rfl⟩

theorem bind {action : Lowering Value} {rest : Value → Lowering Other} (first : Silent action)
    (second : ∀ value, Silent (rest value)) : Silent (action >>= rest) := by
  intro body
  obtain ⟨passes, locals, slot⟩ := first body
  obtain ⟨passes', locals', slot'⟩ := second (action body).1 (action body).2
  exact ⟨passes.trans passes', locals'.trans locals, slot'.trans slot⟩

theorem ite {condition : Prop} [Decidable condition] {action other : Lowering Value}
    (first : Silent action) (second : Silent other) :
    Silent (if condition then action else other) := by
  split
  · exact first
  · exact second

theorem of_passes {action : Drafting Value}
    (passes : ∀ draft : Draft, draft.Passes (action draft).2) : Silent (onDraft action) :=
  fun body ↦ ⟨passes body.draft, rfl, rfl⟩

end Silent

theorem silent_report {code : Code} (other : code ≠ .unusedLocal) (message : String) (span : Span) :
    Silent (report code message span) :=
  .of_passes (.report other message span)

theorem silent_mistake {code : Code} (other : code ≠ .unusedLocal) (message : String) (span : Span) :
    Silent (mistake code message span) :=
  (silent_report other message span).bind fun _ ↦ .pure _

theorem silent_check (expected actual : Ty) (span : Span) : Silent (check expected actual span) :=
  .ite (.pure ()) (silent_report (by decide) _ span)

theorem silent_lookupTarget (name : String) : Silent (lookupTarget name) :=
  fun body ↦ ⟨.refl body.draft, rfl, rfl⟩

theorem silent_resolve (setting : Setting) (written : TypeExpression) :
    Silent (resolve setting written) :=
  .of_passes fun draft ↦ Draft.passes_resolveType _ _ _ written draft

theorem silent_importIndex (wanted : Bytecode.Import) : Silent (onDraft (Draft.importIndex wanted)) := by
  refine .of_passes fun draft ↦ ?_
  have grown := (Draft.extends_importIndex wanted draft).1
  rw [Draft.importIndex_apply] at grown ⊢
  cases known : draft.imports.findIdx? (Draft.isImport wanted) <;> rw [known] at grown <;>
    exact ⟨grown, rfl, rfl⟩

theorem silent_nextLambda : Silent (onDraft Draft.nextLambda) :=
  .of_passes fun _ ↦ ⟨⟨⟨[], rfl⟩, id, Nat.le_refl _, fun _ ↦ rfl⟩, rfl, rfl⟩

/-! ## Actions that compile a part of a body -/

/-- An action compiles a part of a body, behind the code that it is given, and a ledger is kept of
it. -/
def Books (base next : Nat) (code : Value → List Op) (given : List Op) (binders : Nat) (lets : Lets)
    (action : Lowering Value) : Prop :=
  ∀ body, body.IsTidy base → body.nextSlot = base + next → ∃ ops,
    slotOps (code (action body).1) = given ++ ops ∧
      body.Ledger base (action body).2 ops binders lets

namespace Books

variable {code : Value → List Op} {code' : Other → List Op} {action : Lowering Value}
  {rest : Value → Lowering Other} {value : Value} {given ops : List Op} {binders more total : Nat}
  {lets others : Lets}

/-- Code that reads nothing but arguments. -/
theorem of_low (same : slotOps (code value) = given ++ ops)
    (low : ∀ slot, .load slot ∈ ops → slot < base) :
    Books base next code given 0 .none (Pure.pure value) :=
  fun body tidy _ ↦ ⟨ops, same, .of_passes tidy (.refl body.draft) rfl rfl low⟩

theorem pure (same : slotOps (code value) = given) :
    Books base next code given 0 .none (Pure.pure value) :=
  .of_low (same.trans (List.append_nil given).symm) nofun

/-- What is compiled next is given the code of what is compiled first. -/
theorem bind (first : Books base next code given binders lets action)
    (second : ∀ value, Books base (next + binders) code' (slotOps (code value)) more others (rest value))
    (sum : binders + more = total) :
    Books base next code' given total (lets ++ others) (action >>= rest) := by
  intro body tidy slot
  obtain ⟨ops, made, ledger⟩ := first body tidy slot
  have slot' : (action body).2.nextSlot = base + (next + binders) := by
    rw [ledger.next, slot, Nat.add_assoc]
  obtain ⟨ops', made', ledger'⟩ := second (action body).1 _ (ledger.isTidy tidy) slot'
  refine ⟨ops ++ ops', ?_, sum ▸ ledger.trans tidy ledger'⟩
  rw [← List.append_assoc, ← made]
  exact made'

theorem ite {condition : Prop} [Decidable condition] {action other : Lowering Value}
    (first : Books base next code given binders lets action)
    (second : Books base next code given binders lets other) :
    Books base next code given binders lets (if condition then action else other) := by
  split
  · exact first
  · exact second

/-- Something that says nothing is done before an action that does all the work. -/
theorem after (first : Silent action)
    (second : ∀ value, Books base next code' given binders lets (rest value)) :
    Books base next code' given binders lets (action >>= rest) := by
  intro body tidy slot
  obtain ⟨passes, locals, same⟩ := first body
  have nothing : Body.Ledger base body (action body).2 [] 0 .none :=
    .of_passes tidy passes locals same nofun
  obtain ⟨ops, made, ledger⟩ := second (action body).1 _ (nothing.isTidy tidy) (same.trans slot)
  refine ⟨ops, made, ?_⟩
  have both := nothing.trans tidy ledger
  rwa [Nat.zero_add] at both

/-- Something that binds nothing is done after an action that does all the work. -/
theorem before (first : Books base next code given binders lets action)
    (second : ∀ value, Books base (next + binders) code' (slotOps (code value)) 0 .none (rest value)) :
    Books base next code' given binders lets (action >>= rest) := by
  have both := first.bind second (Nat.add_zero binders)
  rwa [Lets.append_none] at both

/-- Code that binds nothing comes before an action that does all the work. -/
theorem lead (first : Books base next code given 0 .none action)
    (second : ∀ value, Books base next code' (slotOps (code value)) binders lets (rest value)) :
    Books base next code' given binders lets (action >>= rest) :=
  first.bind second (Nat.zero_add binders)

/-- A result is computed from that of an action that does all the work. -/
theorem map {make : Value → Other} (first : Books base next code given binders lets action)
    (same : ∀ value, slotOps (code' (make value)) = slotOps (code value)) :
    Books base next code' given binders lets (action >>= fun value ↦ Pure.pure (make value)) :=
  first.before fun value ↦ .pure (same value)

/-- Code that reads nothing but arguments stands before what is compiled. -/
theorem ahead (first : Books base next code [] binders lets action) {earlier : List Op}
    (low : ∀ slot, .load slot ∈ slotOps earlier → slot < base) :
    Books base next (fun value ↦ earlier ++ code value) [] binders lets action := by
  intro body tidy slot
  have nothing : Body.Ledger base body body (slotOps earlier) 0 .none :=
    .of_passes tidy (.refl _) rfl rfl low
  obtain ⟨ops, made, ledger⟩ := first body tidy slot
  refine ⟨slotOps earlier ++ ops, by rw [slotOps_append, made]; rfl, ?_⟩
  have both := nothing.trans tidy ledger
  rwa [Nat.zero_add] at both

/-- What is compiled on its own may stand behind other code. -/
theorem behind (first : Books base next code [] binders lets action) (earlier : List Op) :
    Books base next (fun value ↦ earlier ++ code value) (slotOps earlier) binders lets action := by
  intro body tidy slot
  obtain ⟨ops, made, ledger⟩ := first body tidy slot
  exact ⟨ops, by rw [slotOps_append, made, List.nil_append], ledger⟩

end Books

/-! ### Variables and scopes -/

/-- The code that reads the variable that has been found. -/
def loadOf (found : Option Local) : List Op :=
  (found.map fun present ↦ Op.load present.slot).toList

theorem books_lookup (name : String) : Books base next loadOf [] 0 .none (lookup name) := by
  intro body tidy _
  rw [lookup_eq]
  cases looked : findAndMark name body.scopes with
  | none => exact ⟨[], rfl, .of_passes tidy (.refl _) rfl rfl nofun⟩
  | some result =>
      obtain ⟨found, after⟩ := result
      have distinct : (slotsOf body.scopes).Nodup := slotsOf_locals body ▸ tidy.distinct
      obtain ⟨inside, rfl⟩ := findAndMark_eq distinct looked
      refine ⟨[.load found.slot], rfl, .of_reads tidy (.refl _) (locals_marked _) rfl ?_⟩
      intro slot loaded
      rw [slotsOf_locals, Op.load.inj (List.mem_singleton.mp loaded)]
      exact .inr (List.mem_map_of_mem inside)

variable {code : Nat → List Op} {given : List Op}

theorem books_allocate (same : ∀ slot, slotOps (code slot) = given) :
    Books base next code given 1 .none allocate :=
  fun _ _ _ ↦ ⟨[], (same _).trans (List.append_nil given).symm, .of_allocated rfl rfl rfl⟩

/-- What bringing a variable into scope does. -/
theorem declareLocal_apply (name : String) (type : Ty) (lint : Option Span) (body : Body) :
    declareLocal name type lint body
      = (body.nextSlot,
        { body with
          scopes := widen [⟨name, body.nextSlot, type, false, lint⟩] body.scopes
          nextSlot := body.nextSlot + 1 }) := by
  obtain ⟨draft, scopes, nextSlot⟩ := body
  cases scopes <;> rfl

/-- A variable comes into scope that is not of a `let`. -/
theorem books_declareHidden (name : String) (type : Ty) {stores : Nat → List Op}
    (same : ∀ slot, slotOps (code slot) = given ++ stores slot)
    (silent : ∀ slot other, .load other ∉ stores slot) :
    Books base next code given 1 .none (declareLocal name type none) := by
  intro body tidy _
  rw [declareLocal_apply]
  refine ⟨stores body.nextSlot, same _, ?_⟩
  refine .of_declared tidy rfl (locals_widen _) rfl rfl (silent _) nofun List.nodup_nil
    fun code ↦ ?_
  exact dueFor_eq_zero (List.forall_mem_singleton.mpr rfl)

/-- What is due about the variable of a `let` is what is said about it. -/
theorem dueFor_let (name : Identifier) (type : Ty) (code : List Op) (base next : Nat) :
    dueFor [(Local.mk name.name (base + next) type false (some name.span)).watched.reading code]
      = (unusedIn base code [⟨name, next⟩] : List _) := by
  let read := decide (Op.load (base + next) ∈ code) || decide (name.name.toList.head? = some '_')
  let warning : Diagnostic Span :=
    .warning .unusedLocal ("unused local `" ++ name.name ++ "`") name.span
  have given : unusedWarning?
      ((Local.mk name.name (base + next) type false (some name.span)).watched.reading code)
      = if read then none else some warning := rfl
  have judged : (LetVariable.mk name next).isUnused base code = !read := rfl
  rw [dueFor, List.filterMap_cons, given, unusedIn, List.filter_singleton, judged]
  cases read <;> rfl

/-- The variable of a `let` comes into scope, and its value is stored. -/
theorem books_declareLet (name : Identifier) (type : Ty)
    (same : ∀ slot, slotOps (code slot) = given ++ [.store slot]) :
    Books base next code given 1 ⟨[⟨name, next⟩], []⟩
      (declareLocal name.name type (some name.span)) := by
  intro body tidy slot
  rw [declareLocal_apply]
  refine ⟨[.store body.nextSlot], same _, ?_⟩
  have here : (LetVariable.mk name next).slot base = body.nextSlot := slot.symm
  refine .of_declared tidy rfl (locals_widen _) rfl rfl ?_ ?_ (List.nodup_singleton _) fun code ↦ ?_
  · exact fun _ loaded ↦ absurd (List.mem_singleton.mp loaded) nofun
  · exact List.forall_mem_singleton.mpr ⟨here, here ▸ List.mem_singleton_self _⟩
  · rw [slot]
    exact dueFor_let name type code base next

/-- A part is compiled with a scope of its own: no variable of it is in scope behind it. -/
def Settles (base next : Nat) (code : Value → List Op) (given : List Op) (binders : Nat) (lets : Lets)
    (action : Lowering Value) : Prop :=
  ∀ body, body.IsTidy base → body.nextSlot = base + next → ∃ ops,
    slotOps (code (action body).1) = given ++ ops ∧
      body.Ledger base (action body).2 ops binders lets ∧
      (action body).2.locals = marked ops body.locals

variable {code : Value → List Op} {action : Lowering Value} {binders : Nat} {lets : Lets}

theorem Settles.books (settles : Settles base next code given binders lets action) :
    Books base next code given binders lets action := fun body tidy slot ↦
  have ⟨ops, made, ledger, _⟩ := settles body tidy slot
  ⟨ops, made, ledger⟩

/-- What binds no variable leaves none in scope. -/
theorem Books.settles (books : Books base next code given 0 lets action) :
    Settles base next code given 0 lets action := by
  intro body tidy slot
  obtain ⟨ops, made, ledger⟩ := books body tidy slot
  refine ⟨ops, made, ledger, ?_⟩
  obtain ⟨added, locals, -, fresh⟩ := ledger.locals
  cases added with
  | nil => rw [locals, widen_nil]
  | cons present rest =>
      obtain ⟨later, earlier⟩ := fresh present List.mem_cons_self
      rw [ledger.next] at earlier
      exact absurd earlier (Nat.not_lt.mpr later)

/-- A result is computed from that of a part with a scope of its own. -/
theorem Settles.map {code' : Other → List Op} {make : Value → Other}
    (first : Settles base next code given binders lets action)
    (same : ∀ value, slotOps (code' (make value)) = slotOps (code value)) :
    Settles base next code' given binders lets (action >>= fun value ↦ Pure.pure (make value)) := by
  intro body tidy slot
  obtain ⟨ops, made, ledger, locals⟩ := first body tidy slot
  exact ⟨ops, (same _).trans made, ledger, locals⟩

theorem settles_scope (inside : Books base next code given binders lets action) :
    Settles base next code given binders lets (do
      openScope
      let value ← action
      closeScope
      Pure.pure value) := by
  intro body tidy slot
  obtain ⟨ops, made, ledger⟩ := inside (openScope body).2 tidy.opened slot
  obtain ⟨closed, locals⟩ := ledger.close tidy
  exact ⟨ops, made, closed, locals⟩

end Lowering

end GuestScript.Compile
