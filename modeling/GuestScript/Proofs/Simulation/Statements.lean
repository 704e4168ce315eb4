import GuestScript.Proofs.Simulation.Expressions
import GuestScript.Proofs.Simulation.Flows

/-!
# Statements do what they mean

The code of statements does what the evaluator says of them, by induction on the syntax:
`runs_statement`. A block, an alternative and a list of statements are the other cases of the same
induction.
-/

namespace GuestScript.Meaning

open Bytecode (Op)
open Compile
open Machine
open Syntax

variable {program : Translated} {setting : Setting} {context : Context} {activation : Activation}
  {scope inner : Scope Nat} {next middle number start : Nat} {slots : Slots program}
  {code : List Op}

/-- An instruction that writes a slot finds it. -/
theorem Follows.stored (follows : Follows program setting context activation)
    (holds : Holds setting context activation scope next slots) {slot : Nat}
    (has : activation.routine.HasAt start code) (inside : .store slot ∈ code) :
    slot < slots.size := by
  rw [holds.size]
  exact follows.refers has inside

mutual

/-- The code of a block runs its statements and forgets their variables. -/
theorem runs_block (follows : Follows program setting context activation) :
    (body : Block) → {scope : Scope Nat} → {next number start after : Nat} →
    {slots : Slots program} → {code : List Op} →
    Holds setting context activation scope next slots →
    BlockCode program setting scope next number body start code after →
    Runs setting context activation context.fuel scope next slots start code scope after
      (block context (scope.values slots) number body)
  | .mk body _, _, _, _, _, _, _, _, holds, translated => by
      cases translated with
      | mk inside =>
          rw [block]
          exact .block holds (extends_of_statementsCode body inside)
            (runs_statements follows body holds inside)

/-- The code of statements runs them one after the other. -/
theorem runs_statements (follows : Follows program setting context activation) :
    (body : List Statement) → {scope inner : Scope Nat} → {next number start middle : Nat} →
    {slots : Slots program} → {code : List Op} →
    Holds setting context activation scope next slots →
    StatementsCode program setting scope next number body start code inner middle →
    Runs setting context activation context.fuel scope next slots start code inner middle
      (statements context (scope.values slots) number body)
  | [], _, _, _, _, _, _, _, _, holds, translated => by
      cases translated with
      | nil =>
          rw [statements]
          exact .nil holds
  | first :: rest, _, _, _, _, _, _, _, _, holds, translated => by
      cases translated with
      | cons first' rest' =>
          rw [statements]
          exact .cons (extends_of_statementCode first first')
            (runs_statement follows first holds first')
            fun _ holds' ↦ runs_statements follows rest holds' rest'

/-- The code of a statement runs it. -/
theorem runs_statement (follows : Follows program setting context activation) :
    (one : Statement) → {scope inner : Scope Nat} → {next number start middle : Nat} →
    {slots : Slots program} → {code : List Op} →
    Holds setting context activation scope next slots →
    StatementCode program setting scope next number one start code inner middle →
    Runs setting context activation context.fuel scope next slots start code inner middle
      (statement context (scope.values slots) number one)
  | .declare name written value _, _, _, _, _, _, _, _, _, holds, translated => by
      intro has
      cases translated with
      | declare first _ =>
          have free := follows.stored holds has.right (List.mem_singleton_self _)
          rw [statement, follows.site, Scope.typing_values]
          exact Runs.declare holds free (computes_expression follows holds value first has.left) has
  | .assign (.binding name) value _, _, _, _, _, _, _, _, _, holds, translated => by
      intro has
      cases translated with
      | assign found first _ =>
          have inside := follows.stored holds has.right (List.mem_singleton_self _)
          rw [statement]
          simp only [Scope.named?_values, found, Option.map_some]
          exact Runs.assign holds found inside
            (computes_expression follows holds value first has.left) has
  | .assign (.field name) value _, _, _, _, _, _, _, _, _, holds, translated => by
      intro has
      cases translated with
      | assignField receiver found first _ =>
          obtain ⟨has', has'', -⟩ := has.parts
          have inside := follows.slot holds has' (List.mem_singleton_self _)
          rw [statement, holds.find?_values, follows.site, receiver]
          simp only [Setting.site, Option.map_some, found]
          exact Runs.assignField holds inside
            (computes_expression follows holds value first has'') has
  | .forEach binding iterable body _, _, _, next, _, _, _, slots, _, holds, translated => by
      intro has
      cases translated with
      | forEach first found inside =>
          obtain ⟨has', has'', -⟩ := has.left.parts
          have free : next + 1 < slots.size := follows.stored holds has'' (by simp)
          rw [statement, follows.site, Scope.typing_values]
          simp only [found, Option.getD_some]
          exact Runs.forEach follows.answers holds free (le_of_blockCode body inside)
            (computes_expression follows holds iterable first has')
            (fun others holds' ↦ runs_block follows body holds' inside) has
  | .whileLoop test body _, _, _, _, _, _, _, _, _, holds, translated => by
      intro has
      cases translated with
      | whileLoop first _ inside =>
          obtain ⟨has', -, -⟩ := has.left.parts
          rw [statement]
          exact Runs.whileLoop holds (le_of_blockCode body inside)
            (fun others holds' ↦ computes_expression follows holds' test first has')
            (fun others holds' ↦ runs_block follows body holds' inside) has
  | .conditional test body other _, _, _, _, _, _, _, _, _, holds, translated => by
      intro has
      rw [statement]
      cases translated with
      | ifTrue first _ inside =>
          obtain ⟨has', -, -⟩ := has.parts
          rw [alternative]
          exact Runs.ifTrue holds (le_of_blockCode body inside)
            (computes_expression follows holds test first has')
            (runs_block follows body holds inside) has
      | ifElse _ first _ inside instead =>
          obtain ⟨has', -, -⟩ := has.left.left.parts
          exact Runs.ifElse holds (le_of_blockCode body inside) (le_of_alternativeCode other instead)
            (computes_expression follows holds test first has')
            (runs_block follows body holds inside)
            (fun holds' ↦ runs_alternative follows other holds' instead) has
  | .returns none _, _, _, _, _, _, _, _, _, _, translated => by
      cases translated with
      | returnNothing _ =>
          rw [statement]
          exact .returnNothing
  | .returns (some value) _, _, _, _, _, _, _, _, _, holds, translated => by
      intro has
      cases translated with
      | returnValue first _ =>
          rw [statement, follows.site]
          exact Runs.returnValue (computes_expression follows holds value first has.left) has
  | .evaluate value, _, _, _, _, _, _, _, _, holds, translated => by
      intro has
      cases translated with
      | evaluate first =>
          rw [statement]
          exact Runs.evaluate holds (computes_expression follows holds value first has.left) has

/-- The code of an alternative runs it. -/
theorem runs_alternative (follows : Follows program setting context activation) :
    (other : Alternative) → {scope : Scope Nat} → {next number start after : Nat} →
    {slots : Slots program} → {code : List Op} →
    Holds setting context activation scope next slots →
    AlternativeCode program setting scope next number other start code after →
    Runs setting context activation context.fuel scope next slots start code scope after
      (alternative context (scope.values slots) number other)
  | .absent, _, _, _, _, _, _, _, _, translated => by cases translated
  | .block body, _, _, _, _, _, _, _, holds, translated => by
      cases translated with
      | block inside =>
          rw [alternative]
          exact runs_block follows body holds inside
  | .chain conditional, _, _, _, _, _, _, _, holds, translated => by
      cases translated with
      | chain inside =>
          rw [alternative]
          exact runs_statement follows conditional holds inside

end

end GuestScript.Meaning
