import GuestScript.Bytecode.Verify
import GuestScript.Proofs.Compile.Translation

/-!
# The slots that statements take

A statement adds at most one variable to the scope, in the next free slot or behind it, and never
frees a slot: what is compiled later takes later slots. `Scope.Extends` says this of two scopes with
their next free slots, and it holds before and after every statement.
-/

namespace GuestScript.Meaning

open Bytecode (Op)
open Compile
open Machine (Program)
open Syntax

/-- Variables that have been added to a scope have slots from the next free one on, up to the one
that is free afterwards. -/
structure Scope.Extends (scope : Scope Nat) (next : Nat) (inner : Scope Nat) (middle : Nat) :
    Prop where
  added : ∃ added, inner = added ++ scope ∧
    ∀ held ∈ added, next ≤ held.holder ∧ held.holder < middle
  later : next ≤ middle

variable {scope inner outer : Scope Nat} {next middle after : Nat}

theorem Scope.Extends.refl (scope : Scope Nat) (next : Nat) : scope.Extends next scope next :=
  ⟨⟨[], rfl, nofun⟩, Nat.le_refl next⟩

theorem Scope.Extends.trans (first : scope.Extends next inner middle)
    (second : inner.Extends middle outer after) : scope.Extends next outer after := by
  obtain ⟨⟨added, rfl, new⟩, later⟩ := first
  obtain ⟨⟨more, rfl, new'⟩, later'⟩ := second
  refine ⟨⟨more ++ added, (List.append_assoc ..).symm, List.forall_mem_append.mpr ⟨?_, ?_⟩⟩,
    Nat.le_trans later later'⟩
  · exact fun held inside ↦ (new' held inside).imp_left (Nat.le_trans later)
  · exact fun held inside ↦ (new held inside).imp_right (Nat.lt_of_lt_of_le · later')

/-- A variable takes the next free slot. -/
theorem Scope.Extends.declare (held : Variable Nat) (free : next ≤ held.holder)
    (later : held.holder < middle) : scope.Extends next (held :: scope) middle :=
  ⟨⟨[held], rfl, List.forall_mem_singleton.mpr ⟨free, later⟩⟩,
    Nat.le_of_lt (Nat.lt_of_le_of_lt free later)⟩

/-- Slots may be taken without a variable. -/
theorem Scope.Extends.taken (later : next ≤ middle) : scope.Extends next scope middle :=
  ⟨⟨[], rfl, nofun⟩, later⟩

variable {program : Program} {setting : Setting}

mutual

/-- A block takes later slots. -/
theorem le_of_blockCode : (block : Block) → {scope : Scope Nat} →
    {next number start after : Nat} → {code : List Op} →
    BlockCode program setting scope next number block start code after → next ≤ after
  | .mk body _, _, _, _, _, _, _, .mk inside => (extends_of_statementsCode body inside).later
termination_by structural block => block

/-- Statements add variables in later slots. -/
theorem extends_of_statementsCode : (statements : List Statement) → {scope inner : Scope Nat} →
    {next number start middle : Nat} → {code : List Op} →
    StatementsCode program setting scope next number statements start code inner middle →
    scope.Extends next inner middle
  | [], _, _, _, _, _, _, _, .nil => .refl _ _
  | first :: rest, _, _, _, _, _, _, _, .cons first' rest' =>
      (extends_of_statementCode first first').trans (extends_of_statementsCode rest rest')
termination_by structural statements => statements

/-- A statement adds a variable in a later slot, if it adds one. -/
theorem extends_of_statementCode : (statement : Statement) → {scope inner : Scope Nat} →
    {next number start middle : Nat} → {code : List Op} →
    StatementCode program setting scope next number statement start code inner middle →
    scope.Extends next inner middle
  | .declare name written value _, _, _, _, _, _, _, _, translated => by
      cases translated
      exact .declare _ (Nat.le_refl _) (Nat.lt_succ_self _)
  | .assign _ _ _, _, _, _, _, _, _, _, translated => by
      cases translated <;> exact .refl _ _
  | .forEach _ _ body _, _, _, _, _, _, _, _, translated => by
      cases translated with
      | forEach _ _ inside => exact .taken (Nat.le_of_add_right_le (le_of_blockCode body inside))
  | .whileLoop _ body _, _, _, _, _, _, _, _, translated => by
      cases translated with
      | whileLoop _ _ inside => exact .taken (le_of_blockCode body inside)
  | .conditional _ body other _, _, _, _, _, _, _, _, translated => by
      cases translated with
      | ifTrue _ _ inside => exact .taken (le_of_blockCode body inside)
      | ifElse _ _ _ inside instead =>
          exact .taken (Nat.le_trans (le_of_blockCode body inside)
            (le_of_alternativeCode other instead))
  | .returns none _, _, _, _, _, _, _, _, translated => by
      cases translated
      exact .refl _ _
  | .returns (some _) _, _, _, _, _, _, _, _, translated => by
      cases translated
      exact .refl _ _
  | .evaluate _, _, _, _, _, _, _, _, translated => by
      cases translated
      exact .refl _ _
termination_by structural statement => statement

/-- An alternative takes later slots. -/
theorem le_of_alternativeCode : (other : Alternative) → {scope : Scope Nat} →
    {next number start after : Nat} → {code : List Op} →
    AlternativeCode program setting scope next number other start code after → next ≤ after
  | .absent, _, _, _, _, _, _, translated => by cases translated
  | .block body, _, _, _, _, _, _, translated => by
      cases translated with
      | block inside => exact le_of_blockCode body inside
  | .chain conditional, _, _, _, _, _, _, translated => by
      cases translated with
      | chain inside => exact (extends_of_statementCode conditional inside).later
termination_by structural other => other

end

/-! ## Slots in use -/

/-- Code uses the last slot that has been taken, if any has. -/
def Addresses (code : List Op) (next after : Nat) : Prop :=
  after ≤ next ∨ ∃ op ∈ code, after ≤ op.slotsNeeded

namespace Addresses

variable {code others : List Op}

theorem refl : Addresses code next next :=
  .inl (Nat.le_refl next)

theorem mono (addresses : Addresses code next after) (subset : code ⊆ others) :
    Addresses others next after :=
  addresses.imp_right fun ⟨op, inside, needed⟩ ↦ ⟨op, subset inside, needed⟩

theorem trans (first : Addresses code next middle) (second : Addresses code middle after) :
    Addresses code next after := by
  obtain early | used := second
  · exact first.imp (Nat.le_trans early) fun ⟨op, inside, needed⟩ ↦
      ⟨op, inside, Nat.le_trans early needed⟩
  · exact .inr used

end Addresses

mutual
theorem addresses_of_blockCode : (block : Block) → {scope : Scope Nat} →
    {next number start after : Nat} → {code : List Op} →
    BlockCode program setting scope next number block start code after → Addresses code next after
  | .mk body _, _, _, _, _, _, _, .mk inside => addresses_of_statementsCode body inside
termination_by structural block => block

theorem addresses_of_statementsCode : (statements : List Statement) → {scope inner : Scope Nat} →
    {next number start middle : Nat} → {code : List Op} →
    StatementsCode program setting scope next number statements start code inner middle →
    Addresses code next middle
  | [], _, _, _, _, _, _, _, .nil => .refl
  | first :: rest, _, _, _, _, _, _, _, .cons first' rest' =>
      ((addresses_of_statementCode first first').mono (List.subset_append_left _ _)).trans
        ((addresses_of_statementsCode rest rest').mono (List.subset_append_right _ _))
termination_by structural statements => statements

theorem addresses_of_statementCode : (statement : Statement) → {scope inner : Scope Nat} →
    {next number start middle : Nat} → {code : List Op} →
    StatementCode program setting scope next number statement start code inner middle →
    Addresses code next middle
  | .declare _ _ _ _, _, _, _, _, _, _, _, translated => by
      cases translated
      exact .inr ⟨_, List.mem_append_right _ List.mem_cons_self, Nat.le_refl _⟩
  | .assign _ _ _, _, _, _, _, _, _, _, translated => by
      cases translated <;> exact .refl
  | .forEach _ _ body _, _, _, next, _, _, _, _, translated => by
      cases translated with
      | forEach _ _ inside =>
          -- the variable of the loop is behind its cursor
          have element : Addresses [Op.store (next + 1)] next (next + 2) :=
            .inr ⟨_, List.mem_cons_self, Nat.le_refl _⟩
          refine (element.mono ?_).trans ((addresses_of_blockCode body inside).mono ?_) <;>
            · intro op used
              simp_all
  | .whileLoop _ body _, _, _, _, _, _, _, _, translated => by
      cases translated with
      | whileLoop _ _ inside =>
          refine (addresses_of_blockCode body inside).mono fun op used ↦ ?_
          simp only [List.mem_append, used, or_true, true_or]
  | .conditional _ body other _, _, _, _, _, _, _, _, translated => by
      cases translated with
      | ifTrue _ _ inside =>
          exact (addresses_of_blockCode body inside).mono (List.subset_append_right _ _)
      | ifElse _ _ _ inside instead =>
          refine ((addresses_of_blockCode body inside).mono fun op used ↦ ?_).trans
            ((addresses_of_alternativeCode other instead).mono (List.subset_append_right _ _))
          simp only [List.mem_append, used, or_true, true_or]
  | .returns none _, _, _, _, _, _, _, _, translated => by
      cases translated
      exact .refl
  | .returns (some _) _, _, _, _, _, _, _, _, translated => by
      cases translated
      exact .refl
  | .evaluate _, _, _, _, _, _, _, _, translated => by
      cases translated
      exact .refl
termination_by structural statement => statement

theorem addresses_of_alternativeCode : (other : Alternative) → {scope : Scope Nat} →
    {next number start after : Nat} → {code : List Op} →
    AlternativeCode program setting scope next number other start code after →
    Addresses code next after
  | .absent, _, _, _, _, _, _, translated => by cases translated
  | .block body, _, _, _, _, _, _, translated => by
      cases translated with
      | block inside => exact addresses_of_blockCode body inside
  | .chain conditional, _, _, _, _, _, _, translated => by
      cases translated with
      | chain inside => exact addresses_of_statementCode conditional inside
termination_by structural other => other

end

/-- The body of a lambda takes later slots, and uses the last one. -/
theorem slots_of_bodyCode {body : LambdaBody} {scope : Scope Nat} {number : Nat} {code : List Op}
    (translated : BodyCode program setting scope next number body code after) :
    next ≤ after ∧ Addresses code next after := by
  cases translated with
  | expression => exact ⟨Nat.le_refl next, .refl⟩
  | block inside => exact ⟨le_of_blockCode _ inside, addresses_of_blockCode _ inside⟩

end GuestScript.Meaning
