import GuestScript.Proofs.Simulation.Callbacks

/-!
# Code that computes

`Computes` says that a piece of code, wherever a routine has it, does what an evaluation of a value
says and pushes the value; `ComputesAll` is the same for a list of values. There is one rule for each
form of expression, from the code of its parts to the code that the compiler makes of them.
-/

namespace GuestScript

theorem Bytecode.Routine.HasAt.parts {routine : Bytecode.Routine} {start : Nat}
    {first second third : List Bytecode.Op} (has : routine.HasAt start (first ++ second ++ third)) :
    routine.HasAt start first ∧ routine.HasAt (start + first.length) second ∧
      routine.HasAt (start + first.length + second.length) third := by
  refine ⟨has.left.left, has.left.right, ?_⟩
  rw [Nat.add_assoc, ← List.length_append]
  exact has.right

namespace Meaning

open Bytecode (Constant Op RoutineIndex TypeIndex)
open Compile (TypeInfo)
open Evaluation (settled converted)
open Machine

variable {program : Translated}

/-- Code at a position pushes the value of an evaluation. -/
def Computes (activation : Activation) (least : Nat) (slots : Slots program) (start : Nat)
    (code : List Op) (evaluation : Evaluation Datum) : Prop :=
  activation.routine.HasAt start code → ∀ (stack : List Value) (world : TwinWorld program),
    Meets program least (activation.state start slots stack world) world evaluation
      (activation.Pushes (start + code.length) slots stack)

/-- Code at a position pushes the values of an evaluation, so many of them. -/
def ComputesAll (activation : Activation) (least : Nat) (slots : Slots program) (count start : Nat)
    (code : List Op) (evaluation : Evaluation (List Datum)) : Prop :=
  activation.routine.HasAt start code → ∀ (stack : List Value) (world : TwinWorld program),
    Meets program least (activation.state start slots stack world) world evaluation
      (activation.PushesAll count (start + code.length) slots stack)

variable {activation : Activation} {least : Nat} {slots : Slots program} {start count : Nat}
  {code first second : List Op} {one two : Evaluation Datum} {all rest : Evaluation (List Datum)}
  {caller : Caller}

/-- The length of code in three parts of which the last one is an instruction. -/
theorem length_parts (op : Op) : start + (first ++ second ++ [op]).length
    = start + first.length + second.length + 1 := by
  simp only [List.length_append, List.length_singleton, Nat.add_assoc]

theorem length_snoc (op : Op) : start + (code ++ [op]).length = start + code.length + 1 := by
  rw [List.length_append, Nat.add_assoc]
  rfl

/-! ## Several values -/

namespace ComputesAll

theorem nil : ComputesAll activation least slots 0 start [] (pure []) :=
  fun _ _ _ ↦ .pure ⟨[], rfl, rfl, rfl⟩

theorem cons {next : Datum → Evaluation (List Datum)}
    (head : Computes activation least slots start first one)
    (tail : ∀ value, ComputesAll activation least slots count (start + first.length) second
      (next value)) :
    ComputesAll activation least slots (count + 1) start (first ++ second) (do
      let value ← one
      pure (value :: (← next value))) := by
  intro has stack world
  refine .bind (head has.left stack world) ?_
  rintro _ after _ ⟨value, rfl, rfl⟩
  refine .bind (tail (meant value) has.right (compiled value :: stack) after) ?_
  rintro _ after' _ ⟨values, length, rfl, rfl⟩
  refine .pure ⟨value :: values, congrArg (· + 1) length, rfl, ?_⟩
  rw [List.length_append, Nat.add_assoc, List.map_cons, List.reverse_cons, List.append_assoc]
  rfl

end ComputesAll

/-! ## Forms of expressions -/

namespace Computes

theorem push (constant : Constant) :
    Computes activation least slots start [.push constant]
      (pure (.ofConstant constant)) := by
  intro has stack world
  refine .push has (.pure ⟨.ofConstant constant, (ValueOver.recode_ofConstant _ constant).symm, ?_⟩)
  rw [compiled, ValueOver.recode_ofConstant]
  rfl

theorem load {slot : Nat} (inside : slot < slots.size) :
    Computes activation least slots start [.load slot] (pure (slots.datum slot)) :=
  fun has _ _ ↦ .load has inside (.pure ⟨_, rfl, rfl⟩)

theorem array (items : ComputesAll activation least slots count start code all) :
    Computes activation least slots start (code ++ [.makeArray count]) (do
      pure (.array (← all))) := by
  intro has stack world
  rw [length_snoc]
  refine .bind (items has.left stack world) ?_
  rintro _ after _ ⟨values, rfl, rfl, rfl⟩
  refine .makeArray has.right (.pure ⟨.array values, ?_, rfl⟩)
  rw [meant, ValueOver.recode, recodeAll_eq_map]

theorem loadField {field : Nat} (target : Computes activation least slots start code one) :
    Computes activation least slots start (code ++ [.loadField field]) (do
      let value ← one
      readField value field) := by
  intro has stack world
  rw [length_snoc]
  refine .bind (target has.left stack world) ?_
  rintro _ after _ ⟨value, rfl, rfl⟩
  exact .loadField has.right

theorem unary {operator : UnaryOperator} (operand : Computes activation least slots start code one) :
    Computes activation least slots start (code ++ [.unary operator]) (do
      let value ← one
      settled (applyUnary operator value)) := by
  intro has stack world
  rw [length_snoc]
  refine .bind (operand has.left stack world) ?_
  rintro _ after _ ⟨value, rfl, rfl⟩
  exact .unary has.right

theorem binary {operator : BinaryOperator}
    (left : Computes activation least slots start first one)
    (right : Computes activation least slots (start + first.length) second two) :
    Computes activation least slots start (first ++ second ++ [.binary operator]) (do
      let left ← one
      let right ← two
      settled (applyBinary operator left right)) := by
  intro has stack world
  obtain ⟨has, has', has''⟩ := has.parts
  rw [length_parts]
  refine .bind (left has stack world) ?_
  rintro _ after _ ⟨value, rfl, rfl⟩
  refine .bind (right has' (compiled value :: stack) after) ?_
  rintro _ after' _ ⟨other, rfl, rfl⟩
  exact .binary has''

theorem element (array : Computes activation least slots start first one)
    (position : Computes activation least slots (start + first.length) second two) :
    Computes activation least slots start (first ++ second ++ [.index]) (do
      let array ← one
      let position ← two
      settled (itemOf array position)) := by
  intro has stack world
  obtain ⟨has, has', has''⟩ := has.parts
  rw [length_parts]
  refine .bind (array has stack world) ?_
  rintro _ after _ ⟨value, rfl, rfl⟩
  refine .bind (position has' (compiled value :: stack) after) ?_
  rintro _ after' _ ⟨other, rfl, rfl⟩
  exact .index has''

/-- The right operand of `&&` is evaluated only if the left one is true. -/
theorem and (left : Computes activation least slots start first one)
    (right : Computes activation least slots (start + first.length + 1) second two) :
    Computes activation least slots start
      (first ++ [.jumpUnless (start + first.length + second.length + 2)] ++ second
        ++ [.jump (start + first.length + second.length + 2 + 1), .push (.bool false)]) (do
      let first ← one
      if ← converted first.toBool then two else pure (.bool false)) := by
  intro has stack world
  obtain ⟨has', test, has''⟩ := has.left.parts
  have last := has.right
  have length : start + (first ++ [Op.jumpUnless (start + first.length + second.length + 2)]
      ++ second).length = start + first.length + 1 + second.length := by
    simp only [List.length_append, List.length_singleton]
    omega
  have finish : start + first.length + 1 + second.length + 1
      = start + first.length + second.length + 2 := by omega
  rw [length] at last
  have otherwise := last.tail
  rw [List.length_append, ← Nat.add_assoc, length]
  refine .bind (left has' stack world) ?_
  rintro _ after _ ⟨value, rfl, rfl⟩
  refine .jumpUnless test fun holds _ ↦ ?_
  cases holds with
  | true =>
      rw [if_pos rfl, if_pos rfl]
      refine (right has'' stack after).follow ?_
      rintro _ after' _ ⟨other, rfl, rfl⟩
      refine ⟨_, .single (step_state last.op), other, rfl, ?_⟩
      rw [← finish]
      rfl
  | false =>
      rw [if_neg Bool.false_ne_true, if_neg Bool.false_ne_true, ← finish]
      exact .push otherwise (.pure ⟨.bool false, rfl, rfl⟩)

/-- The right operand of `||` is evaluated only if the left one is false. -/
theorem or (left : Computes activation least slots start first one)
    (right : Computes activation least slots (start + first.length + 3) second two) :
    Computes activation least slots start
      (first ++ [.jumpUnless (start + first.length + 3), .push (.bool true),
        .jump (start + first.length + 3 + second.length)] ++ second) (do
      let first ← one
      if ← converted first.toBool then pure (.bool true) else two) := by
  intro has stack world
  obtain ⟨has', test, has''⟩ := has.parts
  have length : start + (first ++ [Op.jumpUnless (start + first.length + 3),
      Op.push (.bool true), Op.jump (start + first.length + 3 + second.length)] ++ second).length
      = start + first.length + 3 + second.length := by
    simp only [List.length_append, List.length_cons, List.length_nil]
    omega
  rw [length]
  refine .bind (left has' stack world) ?_
  rintro _ after _ ⟨value, rfl, rfl⟩
  refine .jumpUnless test.head fun holds _ ↦ ?_
  cases holds with
  | true =>
      rw [if_pos rfl, if_pos rfl]
      exact .push test.tail.head (.jump test.tail.tail (.pure ⟨.bool true, rfl, rfl⟩))
  | false =>
      rw [if_neg Bool.false_ne_true, if_neg Bool.false_ne_true]
      exact right has'' stack after

/-! ## Fields -/

/-- A field of what is in a slot is given a value. -/
theorem writeField {slot field : Nat} {stack : List Value} {world : TwinWorld program}
    (value : Computes activation least slots (start + 1) code one) (inside : slot < slots.size)
    (has : activation.routine.HasAt start ([.load slot] ++ code ++ [.storeField field])) :
    Meets program least (activation.state start slots stack world) world (do
        let value ← one
        Meaning.writeField (slots.datum slot) field value)
      fun _ after next ↦ next = activation.state (start + 1 + code.length + 1) slots stack after := by
  obtain ⟨has, has', has''⟩ := has.parts
  refine .load has inside (.bind (value has' _ world) ?_)
  rintro _ world' _ ⟨value, rfl, rfl⟩
  exact .storeField has''

/-! ## Lambdas -/

theorem loadAll : (places : List Nat) → (start : Nat) → (∀ slot ∈ places, slot < slots.size) →
    ComputesAll activation least slots places.length start (places.map Op.load)
      (pure (places.map slots.datum))
  | [], _, _ => .nil
  | slot :: rest, start, inside => by
      obtain ⟨here, inside⟩ := List.forall_mem_cons.mp inside
      have head : Computes activation least slots start [.load slot] (pure (slots.datum slot)) :=
        load here
      have tail : ComputesAll activation least slots rest.length (start + 1) (rest.map Op.load)
        (pure (rest.map slots.datum)) := loadAll rest (start + 1) inside
      have both := ComputesAll.cons head fun _ ↦ tail
      simp only [pure_bind] at both
      exact both

/-- A closure is made with copies of what is in some slots. -/
theorem makeClosure {index : RoutineIndex} {lambda : Lambda} {places : List Nat}
    (compiles : LambdaCode program index lambda) (ofText : lambda.IsOf program)
    (inside : ∀ slot ∈ places, slot < slots.size) :
    Computes activation least slots start (places.map Op.load ++ [.makeClosure index places.length])
      (do
        let closure ← Evaluation.making fun world ↦
          world.makeClosure lambda (places.map slots.datum)
        pure (.closure closure)) := by
  intro has stack world
  rw [length_snoc]
  have loaded : Meets program least (activation.state start slots stack world) world
      (pure (places.map slots.datum)) _ := loadAll places start inside has.left stack world
  rw [← pure_bind (places.map slots.datum) fun values ↦ Evaluation.making fun world ↦
    world.makeClosure lambda values, bind_assoc]
  refine .bind loaded ?_
  rintro _ after _ ⟨values, length, rfl, rfl⟩
  let position := start + (places.map Op.load).length
  let pair : Pair program := ⟨(index, lambda), compiles, ofText⟩
  let made := after.makeClosure pair values
  have machine : (compiledWorld after).makeClosure index (values.map compiled)
      = (made.1.recode Pair.routine, compiledWorld made.2) :=
    WorldOver.makeClosure_recode Pair.routine after pair values
  have evaluator : (meantWorld after).makeClosure lambda (values.map meant)
      = (made.1.recode Pair.lambda, meantWorld made.2) :=
    WorldOver.makeClosure_recode Pair.lambda after pair values
  have executed := execute_makeClosure program (compiledWorld after) activation.routine
    (position + 1) (slots.map compiled) stack index (values.map compiled)
  rw [machine, List.length_map, length] at executed
  have taken : step program (activation.state position slots
      ((values.map compiled).reverse ++ stack) after) = _ := step_state has.right.op
  rw [Activation.frame, executed] at taken
  have evaluated : Evaluation.making (fun world ↦ world.makeClosure lambda (values.map meant))
      (meantWorld after) = some (.ok (made.1.recode Pair.lambda), meantWorld made.2) := by
    rw [Evaluation.making, evaluator]
  exact .step taken (.congr (.pure ⟨.closure made.1, rfl, rfl⟩)
    (Evaluation.bind_eq_of_ok evaluated))

/-! ## Calls -/

section Calls

variable (answers : Answers program least (callDepth activation.waiting + 1) caller)

include answers

/-- A closure is called with arguments. -/
theorem callClosure (callee : Computes activation least slots start first one)
    (arguments : ComputesAll activation least slots count (start + first.length) second all) :
    Computes activation least slots start (first ++ second ++ [.callClosure count]) (do
      let value ← one
      callDatum caller value (← all)) := by
  intro has stack world
  obtain ⟨has, has', has''⟩ := has.parts
  rw [length_parts]
  refine .bind (callee has stack world) ?_
  rintro _ after _ ⟨value, rfl, rfl⟩
  refine .bind (arguments has' (compiled value :: stack) after) ?_
  rintro _ after' _ ⟨values, rfl, rfl, rfl⟩
  have taken : step program (activation.state (start + first.length + second.length) slots
      ((values.map compiled).reverse ++ compiled value :: stack) after') = _ :=
    step_state has''.op
  have executed := execute_callClosure program (compiledWorld after') activation.routine
    (start + first.length + second.length + 1) (slots.map compiled) stack (values.map compiled)
    (compiled value)
  rw [List.length_map, ValueOver.toClosure_recode] at executed
  rw [Activation.frame, executed] at taken
  rw [callDatum, ValueOver.toClosure_recode]
  revert taken
  cases value.toClosure with
  | error mismatch => exact fun taken ↦ .error_bind taken
  | ok closure =>
      intro taken
      let frame := activation.frame (start + first.length + second.length + 1) slots stack
      have active : callDepth (.routine frame :: activation.waiting)
          = callDepth activation.waiting + 1 := rfl
      refine .step taken (.congr ((answers.callClosure closure values _ active).follow ?_) rfl)
      rintro _ after'' _ ⟨result, rfl, rfl⟩
      exact ⟨_, .single rfl, result, rfl, rfl⟩

/-- A routine is called with arguments. -/
theorem callRoutine {callee : Callee} {index : RoutineIndex}
    (has : callee.HasRoutine program index)
    (arguments : ComputesAll activation least slots count start code all) :
    Computes activation least slots start (code ++ [.call index count]) (do
      caller callee (← all)) := by
  intro has' stack world
  rw [length_snoc]
  refine .bind (arguments has'.left stack world) ?_
  rintro _ after _ ⟨values, rfl, rfl, rfl⟩
  have taken : step program (activation.state (start + code.length) slots
      ((values.map compiled).reverse ++ stack) after) = _ := step_state has'.right.op
  have executed := execute_call program (compiledWorld after) activation.routine
    (start + code.length + 1) (slots.map compiled) stack index (values.map compiled)
  rw [List.length_map] at executed
  rw [Activation.frame, executed] at taken
  let frame := activation.frame (start + code.length + 1) slots stack
  have active : callDepth (.routine frame :: activation.waiting)
      = callDepth activation.waiting + 1 := rfl
  refine .step taken ((answers has values after active).follow ?_)
  rintro _ after' _ ⟨result, rfl, rfl⟩
  exact ⟨_, .single rfl, result, rfl, rfl⟩

/-- A host function is called with arguments. -/
theorem callHost {imported : Bytecode.ImportIndex} {name : String} {action : HostAction}
    (bound : program.hosts[imported]? = some ⟨name, action⟩)
    (arguments : ComputesAll activation least slots count start code all) :
    Computes activation least slots start (code ++ [.callHost imported count]) (do
      Meaning.callHost caller name action (← all)) := by
  intro has stack world
  rw [length_snoc]
  refine .bind (arguments has.left stack world) ?_
  rintro _ after _ ⟨values, rfl, rfl, rfl⟩
  exact answers.callHost rfl values has.right bound

/-- A routine is called on an instance, with arguments behind it. -/
theorem callMethod {callee : Callee} {index : RoutineIndex}
    (has : callee.HasRoutine program index)
    (target : Computes activation least slots start first one)
    (arguments : ComputesAll activation least slots count (start + first.length) second all) :
    Computes activation least slots start (first ++ second ++ [.call index (count + 1)]) (do
      let value ← one
      caller callee (value :: (← all))) := by
  have called := callRoutine answers has (.cons target fun _ ↦ arguments)
  simpa only [bind_assoc, pure_bind] using called

/-- An object is made. -/
theorem construct {type : TypeIndex} {info : TypeInfo}
    (found : program.types[type]? = some info) :
    Computes activation least slots start [.construct type]
      (Meaning.construct caller program.types type) := by
  intro has stack world
  let frame := activation.frame (start + 1) slots stack
  have active : callDepth (.routine frame :: activation.waiting)
      = callDepth activation.waiting + 1 := rfl
  refine .step (step_state has.op) ((answers.construct found active).follow ?_)
  rintro _ after _ ⟨result, rfl, rfl⟩
  exact ⟨_, .single rfl, result, rfl, rfl⟩

end Calls

end Computes

end Meaning

end GuestScript
