import GuestScript.Compile.Mentions
import Mathlib.Data.String.Basic

/-!
# Collecting names

Collecting the names that a part of a body mentions adds them to those that are there: what comes
out does not depend on where the collection starts, nothing is lost on the way, and the names stay
in order and once each. `Collects` says this of one part, and a part that consists of others has it
from them.
-/

namespace GuestScript.Compile.Mentions

open Syntax

/-- Names are in order and once each. -/
def Ordered (names : List String) : Prop :=
  names.Pairwise (· < ·)

theorem Ordered.nodup {names : List String} (ordered : Ordered names) : names.Nodup :=
  ordered.imp ne_of_lt

theorem mem_insert {name other : String} {names : List String} :
    other ∈ insert name names ↔ other = name ∨ other ∈ names := by
  induction names with
  | nil => rw [insert, List.mem_singleton, List.mem_nil_iff, or_false]
  | cons first rest ih =>
      rw [insert]
      split
      · next same =>
          subst same
          rw [List.mem_cons, ← or_assoc, or_self]
      · split
        · exact List.mem_cons
        · rw [List.mem_cons, ih, List.mem_cons, or_left_comm]

theorem ordered_insert {name : String} {names : List String} (ordered : Ordered names) :
    Ordered (insert name names) := by
  induction names with
  | nil => exact List.pairwise_singleton _ _
  | cons first rest ih =>
      obtain ⟨before, ordered'⟩ := List.pairwise_cons.mp ordered
      rw [insert]
      split
      · exact ordered
      · next different =>
          split
          · next less =>
              refine List.pairwise_cons.mpr ⟨fun other inside ↦ ?_, ordered⟩
              rcases List.mem_cons.mp inside with rfl | inside
              · exact less
              · exact lt_trans less (before other inside)
          · next notLess =>
              have less : first < name := lt_of_le_of_ne (not_lt.mp notLess) (Ne.symm different)
              refine List.pairwise_cons.mpr ⟨fun other inside ↦ ?_, ih ordered'⟩
              rcases mem_insert.mp inside with rfl | inside
              · exact less
              · exact before other inside

/-- Names are added to those that are there. -/
structure Collects (collect : List String → List String) : Prop where
  adds : ∀ {names : List String} {name : String},
    name ∈ collect names ↔ name ∈ names ∨ name ∈ collect []
  ordered : ∀ {names : List String}, Ordered names → Ordered (collect names)

namespace Collects

variable {first second : List String → List String}

theorem nothing : Collects fun names ↦ names :=
  ⟨by simp only [List.not_mem_nil, or_false, implies_true], id⟩

theorem trans (before : Collects first) (after : Collects second) :
    Collects fun names ↦ second (first names) where
  adds {names name} := by
    have whole : name ∈ second (first []) ↔ _ := after.adds
    rw [after.adds, before.adds, whole, or_assoc]
  ordered given := after.ordered (before.ordered given)

theorem one (name : String) : Collects (insert name) where
  adds {names other} := by rw [mem_insert, mem_insert, List.mem_nil_iff, or_false, or_comm]
  ordered := ordered_insert

/-- What holds of all names that are collected holds of those that were there and of the others. -/
theorem forall_mem (collects : Collects second) {names : List String} {holds : String → Prop}
    (all : ∀ name ∈ second names, holds name) :
    (∀ name ∈ names, holds name) ∧ ∀ name ∈ second [], holds name :=
  ⟨fun name inside ↦ all name (collects.adds.mpr (.inl inside)),
    fun name inside ↦ all name (collects.adds.mpr (.inr inside))⟩

end Collects

theorem collects_inPlace : (place : Place) → Collects (inPlace · place)
  | .binding name => .one name.name
  | .field _ => .one receiverName

theorem collects_inPath : (segments : List Identifier) → Collects (inPath · segments)
  | [] => .nothing
  | [name] => .one name.name
  | _ :: _ :: _ => .nothing

theorem collects_inCallee (callee : Expression) : Collects (inCallee · callee) := by
  unfold inCallee
  split
  · exact .one receiverName
  · exact .nothing

mutual

theorem collects_inExpression : (value : Expression) → Collects (inExpression · value)
  | .int .. | .str .. | .bool .. | .construct .. => .nothing
  | .receiver _ => .one receiverName
  | .path segments _ => collects_inPath segments
  | .array items _ => collects_inExpressions items
  | .call callee arguments _ =>
      ((collects_inCallee callee).trans (collects_inExpression callee)).trans
        (collects_inExpressions arguments)
  | .method target _ arguments _ =>
      (collects_inExpression target).trans (collects_inExpressions arguments)
  | .field target _ _ => collects_inExpression target
  | .element target index _ => (collects_inExpression target).trans (collects_inExpression index)
  | .lambda _ body _ => collects_inLambda body
  | .unary _ operand _ => collects_inExpression operand
  | .binary _ left right _ => (collects_inExpression left).trans (collects_inExpression right)
termination_by structural value => value

theorem collects_inExpressions : (values : List Expression) → Collects (inExpressions · values)
  | [] => .nothing
  | first :: rest => (collects_inExpression first).trans (collects_inExpressions rest)
termination_by structural values => values

theorem collects_inLambda : (body : LambdaBody) → Collects (inLambda · body)
  | .expression value => collects_inExpression value
  | .block body => collects_inBlock body
termination_by structural body => body

theorem collects_inBlock : (block : Block) → Collects (inBlock · block)
  | .mk statements _ => collects_inStatements statements
termination_by structural block => block

theorem collects_inStatements : (statements : List Statement) →
    Collects (inStatements · statements)
  | [] => .nothing
  | first :: rest => (collects_inStatement first).trans (collects_inStatements rest)
termination_by structural statements => statements

theorem collects_inStatement : (statement : Statement) → Collects (inStatement · statement)
  | .declare _ _ value _ => collects_inExpression value
  | .assign target value _ => (collects_inPlace target).trans (collects_inExpression value)
  | .forEach _ iterable body _ => (collects_inExpression iterable).trans (collects_inBlock body)
  | .whileLoop test body _ => (collects_inExpression test).trans (collects_inBlock body)
  | .conditional test body other _ =>
      ((collects_inExpression test).trans (collects_inBlock body)).trans
        (collects_inAlternative other)
  | .returns none _ => .nothing
  | .returns (some value) _ => collects_inExpression value
  | .evaluate value => collects_inExpression value
termination_by structural statement => statement

theorem collects_inAlternative : (other : Alternative) → Collects (inAlternative · other)
  | .absent => .nothing
  | .block body => collects_inBlock body
  | .chain conditional => collects_inStatement conditional
termination_by structural other => other

end

end GuestScript.Compile.Mentions
