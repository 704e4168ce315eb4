import GuestScript.Proofs.Machine.Grounded
import GuestScript.Proofs.Simulation.Computations

/-!
# Expressions do what they mean

The code of an expression computes the value that the evaluator gives it, by induction on the
expression: `computes_expression`. `Follows` says what an activation and the context of the evaluator
have in common while a body is run.
-/

namespace GuestScript.Meaning

open Bytecode (Op RoutineIndex TypeIndex)
open Compile
open Machine
open Syntax

variable {program : Translated}

/-- An activation runs the code of a body that the evaluator works on in a context. -/
structure Follows (program : Translated) (setting : Setting) (context : Context)
    (activation : Activation) : Prop where
  inside : activation.routine ∈ program.image.routines
  references : setting.references = program.references
  types : setting.types = program.types
  site : context.site = setting.site
  name : context.name = setting.routineName
  answers : Answers program context.fuel (callDepth activation.waiting + 1)
    context.call

/-- The slots of an activation hold the variables in scope. -/
abbrev Holds (setting : Setting) (context : Context) (activation : Activation)
    (scope : Scope Nat) (next : Nat) (slots : Slots program) : Prop :=
  Standing activation.routine.locals context.receiver setting.receiver scope next slots

variable {setting : Setting} {context : Context} {activation : Activation} {scope : Scope Nat}
  {next number start : Nat} {slots : Slots program} {code : List Op} {expected : Option Ty}

/-- Whatever an instruction refers to exists. -/
theorem Follows.refers (follows : Follows program setting context activation) {op : Op}
    (has : activation.routine.HasAt start code) (inside : op ∈ code) :
    op.Refers program.image activation.routine :=
  program.verified.code _ follows.inside op (has.mem inside)

/-- An instruction that reads a slot finds it. -/
theorem Follows.slot (follows : Follows program setting context activation)
    (holds : Holds setting context activation scope next slots) {slot : Nat}
    (has : activation.routine.HasAt start code) (inside : .load slot ∈ code) :
    slot < slots.size := by
  rw [holds.size]
  exact follows.refers has inside

/-! ## What is called -/

theorem Callee.HasRoutine.of_member {owner : TypeIndex} {method : MethodInfo}
    (member : IsMember program.types owner method) :
    Callee.HasRoutine program (.function owner method) method.routine := by
  obtain ⟨info, here, inside⟩ := member
  exact .function here inside

theorem Callee.HasRoutine.of_callable {Holder : Type} {site : Site} {scope : Scope Holder}
    {segments : List Identifier} {owner : TypeIndex} {method : MethodInfo}
    (types : site.types = program.types)
    (found : callable? site scope segments = some (.function owner method)) :
    Callee.HasRoutine program (.function owner method) method.routine :=
  .of_member (types ▸ isMember_of_callable found)

/-! ## Forms of expressions -/

theorem expression_call_value {environment : Environment} {callee : Expression}
    {values : List Expression} {span : Span}
    (other : ∀ segments pathSpan, callee ≠ .path segments pathSpan) :
    expression context environment number (.call callee values span) expected = (do
      let value ← expression context environment number callee none
      callDatum context.call value (← arguments context environment (number + lambdasIn callee)
        values (calledParameters (typeOf context.site environment.typing callee none)) none)) := by
  rw [expression]
  exact other

theorem expression_binary {environment : Environment} {operator : BinaryOperator}
    {left right : Expression} {span : Span} (notAnd : operator ≠ .and) (notOr : operator ≠ .or) :
    expression context environment number (.binary operator left right span) expected = (do
      let first ← expression context environment number left none
      let second ← expression context environment (number + lambdasIn left) right none
      Evaluation.settled (applyBinary operator first second)) := by
  rw [expression]
  · exact notAnd
  · exact notOr

/-- The function that a call by name refers to is called on the instance that the body works on, or
without one. -/
theorem Follows.computes_callFunction (follows : Follows program setting context activation)
    (holds : Holds setting context activation scope next slots) {owner : TypeIndex}
    {method : MethodInfo} {slot count : Nat} {all : Evaluation (List Datum)}
    (has : Callee.HasRoutine program (.function owner method) method.routine)
    (member : method.isStatic = false) (receiver : setting.receiver = some slot)
    (inside : slot < slots.size)
    (given : ComputesAll activation context.fuel slots count (start + 1) code all) :
    Computes activation context.fuel slots start
      ([.load slot] ++ code ++ [.call method.routine (count + 1)])
      (callFunction context (scope.values slots) owner method all) := by
  have called := Computes.callMethod follows.answers has (.load inside) given
  rw [callFunction, if_neg (by rw [member]; exact Bool.false_ne_true), holds.find?_values, receiver]
  rw [pure_bind] at called
  exact called

/-- A lambda in a body is one of the text. -/
theorem Follows.isOf_lambdaCode (follows : Follows program setting context activation)
    (copies : List (Variable Unit)) (parameters : List Identifier) (body : LambdaBody) :
    (lambdaCode setting.site setting.routineName number copies parameters body expected).IsOf
      program := by
  refine ⟨follows.references, follows.types, ?_⟩
  exact (List.findIdx?_isSome ..).symm

/-- A lambda becomes a closure that has copied what it mentions. -/
theorem Follows.computes_lambda (follows : Follows program setting context activation)
    (holds : Holds setting context activation scope next slots) {parameters : List Identifier}
    {body : LambdaBody} {index : RoutineIndex} {copies : List (Variable Nat)}
    (copied : copies = captures setting.ownerType setting.receiver parameters scope body)
    (compiles : LambdaCode program index (lambdaCode setting.site setting.routineName (number + 1)
      (Scope.typing copies) parameters body expected))
    (has : activation.routine.HasAt start (copies.map fun copy ↦ .load copy.holder)) :
    Computes activation context.fuel slots start
      (copies.map (fun copy ↦ .load copy.holder) ++ [.makeClosure index copies.length])
      (makeLambda context (scope.values slots) number parameters body expected) := by
  have inside : ∀ slot ∈ copies.map Variable.holder, slot < slots.size :=
    List.forall_mem_map.mpr fun copy inside ↦
      follows.slot holds has (List.mem_map.mpr ⟨copy, inside, rfl⟩)
  have made : Computes activation context.fuel slots start _ _ :=
    .makeClosure compiles (follows.isOf_lambdaCode _ _ _) inside
  rw [List.map_map, List.map_map, List.length_map] at made
  have same : captures context.site.ownerType (context.receiver.find? (scope.values slots))
      parameters (scope.values slots) body = copies.map (Variable.hold slots.datum) := by
    rw [holds.find?_values, follows.site, copied]
    exact captures_hold slots.datum setting.ownerType setting.receiver parameters scope body
  rw [makeLambda, same, follows.site, follows.name, Scope.typing_hold, List.map_map]
  exact made

/-- A call is that of a variable, of a function, of a host function or of some other value. -/
theorem Follows.computes_call (follows : Follows program setting context activation)
    (holds : Holds setting context activation scope next slots) {callee : Expression}
    {values : List Expression} {span : Span}
    (translated : ExpressionCode program setting scope number (.call callee values span) expected
      start code)
    (has : activation.routine.HasAt start code)
    (first : ∀ {code : List Op},
      ExpressionCode program setting scope number callee none start code →
      activation.routine.HasAt start code → Computes activation context.fuel slots start code
        (expression context (scope.values slots) number callee none))
    (given : ∀ {number start : Nat} {parameters : List Ty} {code : List Op},
      ArgumentsCode program setting scope number values parameters none start code →
      activation.routine.HasAt start code →
      ComputesAll activation context.fuel slots values.length start code
        (arguments context (scope.values slots) number values parameters none)) :
    Computes activation context.fuel slots start code
      (expression context (scope.values slots) number (.call callee values span) expected) := by
  have called (segments : List Identifier) : callable? context.site (scope.values slots) segments
      = (callable? setting.site scope segments).map (Callable.hold slots.datum) := by
    rw [follows.site]
    exact callable?_hold slots.datum setting.site scope segments
  -- the names that the evaluator resolves at run time are those that the checker has resolved
  cases translated with
  | callVariable found _ others =>
      obtain ⟨has, has', -⟩ := has.parts
      have inside := follows.slot holds has (List.mem_singleton_self _)
      have met := Computes.callClosure follows.answers (.load inside) (given others has')
      rw [pure_bind] at met
      rw [expression, called, found]
      exact met
  | callStatic found member _ others =>
      have met := Computes.callRoutine follows.answers (.of_callable follows.types found)
        (given others has.left)
      rw [expression, called, found]
      simp only [Option.map_some, Callable.hold, callFunction, member, if_pos]
      exact met
  | callOwn found member _ receiver _ others =>
      obtain ⟨has, has', -⟩ := has.parts
      have inside := follows.slot holds has (List.mem_singleton_self _)
      rw [expression, called, found]
      exact follows.computes_callFunction holds (.of_callable follows.types found) member receiver
        inside
        (given others has')
  | callHost found bound _ others =>
      rw [expression, called, found]
      exact .callHost follows.answers bound (given others has.left)
  | callValue other translated _ others =>
      obtain ⟨has, has', -⟩ := has.parts
      rw [expression_call_value other, follows.site, Scope.typing_values]
      exact .callClosure follows.answers (first translated has) (given others has')

/-! ## All expressions -/

mutual

/-- The code of an expression computes its value. -/
theorem computes_expression (follows : Follows program setting context activation)
    (holds : Holds setting context activation scope next slots) :
    (value : Expression) → {number start : Nat} → {expected : Option Ty} → {code : List Op} →
    ExpressionCode program setting scope number value expected start code →
    activation.routine.HasAt start code →
    Computes activation context.fuel slots start code
      (expression context (scope.values slots) number value expected)
  | .int value _, _, _, _, _, translated, _ => by
      cases translated
      rw [expression]
      exact .push (.int value)
  | .str value _, _, _, _, _, translated, _ => by
      cases translated
      rw [expression]
      exact .push (.str value)
  | .bool value _, _, _, _, _, translated, _ => by
      cases translated
      rw [expression]
      exact .push (.bool value)
  | .array values _, _, _, _, _, translated, has => by
      cases translated with
      | array items =>
          rw [expression]
          exact .array (computes_items follows holds values items has.left)
  | .receiver _, _, _, _, _, translated, has => by
      cases translated with
      | receiver found =>
          rw [expression, holds.find?_values, found]
          exact .load (follows.slot holds has (List.mem_singleton_self _))
  | .path _ _, _, _, _, _, translated, has => by
      cases translated with
      | path found =>
          rw [expression]
          simp only [Scope.named?_values, found, Option.map_some]
          exact .load (follows.slot holds has (List.mem_singleton_self _))
  | .call callee values span, _, _, _, _, translated, has =>
      follows.computes_call holds translated has
        (fun first has ↦ computes_expression follows holds callee first has)
        (fun others has ↦ computes_arguments follows holds values others has)
  | .construct name _, _, _, _, _, translated, has => by
      cases translated with
      | construct found =>
          have inside := follows.refers has (List.mem_singleton_self _)
          rw [Op.Refers, program.code.size] at inside
          rw [expression, follows.site]
          simp only [found]
          rw [Setting.site, follows.types]
          exact .construct follows.answers (List.getElem?_eq_getElem inside)
  | .lambda parameters body _, _, _, _, _, translated, has => by
      cases translated with
      | lambda copied compiles =>
          rw [expression]
          exact follows.computes_lambda holds copied compiles has.left
  | .unary operator operand _, _, _, _, _, translated, has => by
      cases translated with
      | unary first _ =>
          rw [expression]
          exact .unary (computes_expression follows holds operand first has.left)
  | .field target name _, _, _, _, _, translated, has => by
      cases translated with
      | field first found =>
          rw [expression]
          simp only [follows.site, Scope.typing_values, Setting.site] at found ⊢
          simp only [found]
          exact .loadField (computes_expression follows holds target first has.left)
  | .element target index _, _, _, _, _, translated, has => by
      cases translated with
      | element first _ second _ =>
          obtain ⟨has, has', -⟩ := has.parts
          rw [expression]
          exact .element (computes_expression follows holds target first has)
            (computes_expression follows holds index second has')
  | .binary operator left right _, _, _, _, _, translated, has => by
      cases translated with
      | and first _ second _ =>
          obtain ⟨has, -, has'⟩ := has.left.parts
          rw [expression]
          exact .and (computes_expression follows holds left first has)
            (computes_expression follows holds right second has')
      | or first _ second _ =>
          obtain ⟨has, -, has'⟩ := has.parts
          rw [expression]
          exact .or (computes_expression follows holds left first has)
            (computes_expression follows holds right second has')
      | binary notAnd notOr first second _ =>
          obtain ⟨has, has', -⟩ := has.parts
          rw [expression_binary notAnd notOr]
          exact .binary (computes_expression follows holds left first has)
            (computes_expression follows holds right second has')
  | .method target name values _, _, _, _, _, translated, has => by
      cases translated with
      | method first found member _ others =>
          obtain ⟨has, has', -⟩ := has.parts
          rw [expression]
          simp only [follows.site, Scope.typing_values, Setting.site] at found ⊢
          simp only [found]
          exact .callMethod follows.answers
            (.of_member (isMember_of_methodOn (follows.types ▸ found)))
            (computes_expression follows holds target first has)
            (computes_arguments follows holds values others has')

/-- The code of the items of an array computes their values. -/
theorem computes_items (follows : Follows program setting context activation)
    (holds : Holds setting context activation scope next slots) :
    (values : List Expression) → {number start : Nat} → {wanted : Option Ty} → {code : List Op} →
    ItemsCode program setting scope number values wanted start code →
    activation.routine.HasAt start code →
    ComputesAll activation context.fuel slots values.length start code
      (items context (scope.values slots) number values wanted)
  | [], _, _, _, _, translated, _ => by
      cases translated
      rw [items]
      exact .nil
  | item :: rest, _, _, _, _, translated, has => by
      cases translated with
      | first first others =>
          rw [items]
          refine .cons (computes_expression follows holds item first has.left) fun _ ↦ ?_
          rw [follows.site, Scope.typing_values]
          exact computes_items follows holds rest others has.right
      | cons first _ others =>
          rw [items]
          exact .cons (computes_expression follows holds item first has.left) fun _ ↦
            computes_items follows holds rest others has.right

/-- The code of arguments computes their values. -/
theorem computes_arguments (follows : Follows program setting context activation)
    (holds : Holds setting context activation scope next slots) :
    (values : List Expression) → {number start : Nat} → {parameters : List Ty} →
    {binding : Option Ty} → {code : List Op} →
    ArgumentsCode program setting scope number values parameters binding start code →
    activation.routine.HasAt start code →
    ComputesAll activation context.fuel slots values.length start code
      (arguments context (scope.values slots) number values parameters binding)
  | [], _, _, _, _, _, translated, _ => by
      cases translated
      rw [arguments]
      exact .nil
  | argument :: rest, _, _, _, _, _, translated, has => by
      cases translated with
      | beyond first others =>
          rw [arguments]
          exact .cons (computes_expression follows holds argument first has.left) fun _ ↦
            computes_arguments follows holds rest others has.right
      | cons first _ others =>
          rw [arguments, follows.site, Scope.typing_values]
          exact .cons (computes_expression follows holds argument first has.left) fun _ ↦
            computes_arguments follows holds rest others has.right

end

end GuestScript.Meaning
