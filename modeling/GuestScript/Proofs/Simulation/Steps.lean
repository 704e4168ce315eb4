import GuestScript.Proofs.Machine.Instructions
import GuestScript.Proofs.Simulation.Slots

/-!
# Code at a position

An `Activation` is a routine that runs while something waits for its answer, and `activation.state` a
state in which it is at a position, given the values of its slots and what is on top of its operand
stack. `HasAt` says that a routine has some code from a position on. For each instruction one rule
says how the machine goes on from it while an evaluation is followed.
-/

namespace GuestScript

namespace Bytecode

/-- A routine has this code from a position on. -/
structure Routine.HasAt (routine : Routine) (start : Nat) (code : List Op) : Prop where
  each : ∀ {index : Nat} {op : Op}, code[index]? = some op →
    routine.code[start + index]? = some op

namespace Routine.HasAt

variable {routine : Routine} {start : Nat} {first second : List Op} {next : Op}

theorem left (has : routine.HasAt start (first ++ second)) : routine.HasAt start first :=
  ⟨fun found ↦ has.each (List.getElem?_append_left (List.getElem?_eq_some_iff.mp found).1 ▸ found)⟩

theorem right (has : routine.HasAt start (first ++ second)) :
    routine.HasAt (start + first.length) second := by
  refine ⟨fun {index op} found ↦ ?_⟩
  rw [Nat.add_assoc]
  refine has.each ?_
  rw [List.getElem?_append_right (Nat.le_add_right _ _), Nat.add_sub_cancel_left]
  exact found

theorem op (has : routine.HasAt start (next :: first)) : routine.code[start]? = some next :=
  has.each (rfl : (next :: first)[0]? = some next)

theorem head (has : routine.HasAt start (next :: first)) : routine.HasAt start [next] :=
  left (show routine.HasAt start ([next] ++ first) from has)

theorem tail (has : routine.HasAt start (next :: first)) : routine.HasAt (start + 1) first :=
  right (show routine.HasAt start ([next] ++ first) from has)

theorem mem (has : routine.HasAt start first) (inside : next ∈ first) : next ∈ routine.code := by
  obtain ⟨index, found⟩ := List.getElem?_of_mem inside
  exact Array.mem_of_getElem? (has.each found)

/-- A routine has its code from the start on. -/
theorem of_code (same : routine.code = first.toArray) : routine.HasAt 0 first := by
  refine ⟨fun {index op} found ↦ ?_⟩
  rw [same, Nat.zero_add, List.getElem?_toArray]
  exact found

end Routine.HasAt

end Bytecode

namespace Meaning

open Bytecode (Constant Op Routine RoutineIndex TypeIndex)
open Evaluation (settled)
open Machine

variable {program : Translated}

/-- A routine that runs while something waits for its answer. -/
structure Activation where
  routine : Routine
  waiting : List Waiting

namespace Activation

/-- The frame of an activation. -/
def frame (activation : Activation) (position : Nat) (slots : Slots program)
    (stack : List Value) : Frame :=
  ⟨activation.routine, position, slots.map compiled, ⟨stack⟩⟩

/-- The state in which an activation is at a position. -/
def state (activation : Activation) (position : Nat) (slots : Slots program) (stack : List Value)
    (world : TwinWorld program) : State :=
  ⟨.run (activation.frame position slots stack), activation.waiting, compiledWorld world⟩

/-- A value has been pushed, and the activation is at a position. -/
def Pushes (activation : Activation) (position : Nat) (slots : Slots program)
    (stack : List Value) (result : Datum) (world : TwinWorld program) (next : State) : Prop :=
  ∃ value : Twin program, result = meant value ∧
    next = activation.state position slots (compiled value :: stack) world

/-- So many values have been pushed, and the activation is at a position. -/
def PushesAll (activation : Activation) (count position : Nat) (slots : Slots program)
    (stack : List Value) (results : List Datum) (world : TwinWorld program) (next : State) :
    Prop :=
  ∃ values : List (Twin program), values.length = count ∧ results = values.map meant ∧
    next = activation.state position slots ((values.map compiled).reverse ++ stack) world

end Activation

/-- A value is the answer to what is waiting. -/
def IsAnswer (waiting : List Waiting) (result : Datum) (world : TwinWorld program)
    (next : State) : Prop :=
  ∃ value : Twin program, result = meant value ∧
    next = ⟨.answer (compiled value), waiting, compiledWorld world⟩

variable {activation : Activation} {position : Nat} {slots : Slots program} {stack : List Value}
  {world : TwinWorld program} {op : Op}

/-- A step of an activation runs the instruction at its position. -/
theorem step_state (found : activation.routine.code[position]? = some op) :
    step program (activation.state position slots stack world)
      = proceed activation.waiting (execute program (compiledWorld world)
          (activation.frame (position + 1) slots stack) op) := by
  simp only [Activation.state, step, runFrame, Activation.frame, found]
  rfl

namespace Meets

variable {least : Nat} {Result : Type} {evaluation : Evaluation Result}
  {Arrives : Result → TwinWorld program → State → Prop}

/-! ## Instructions that always go on -/

theorem push {constant : Constant} (has : activation.routine.HasAt position [.push constant])
    (rest : Meets program least
      (activation.state (position + 1) slots (.ofConstant constant :: stack) world) world evaluation
      Arrives) :
    Meets program least (activation.state position slots stack world) world evaluation Arrives :=
  .step (step_state has.op) rest

theorem load {slot : Nat} (has : activation.routine.HasAt position [.load slot])
    (inside : slot < slots.size)
    (rest : Meets program least (activation.state (position + 1) slots
      (compiled (slots[slot]?.getD .unit) :: stack) world) world evaluation Arrives) :
    Meets program least (activation.state position slots stack world) world evaluation Arrives := by
  refine .step ((step_state has.op).trans ?_) rest
  have found : (slots.map compiled)[slot]? = some (compiled (slots[slot]?.getD .unit)) := by
    rw [Array.getElem?_map, Array.getElem?_eq_getElem inside]
    rfl
  rw [Activation.frame, execute_load _ _ _ _ _ _ found]
  rfl

theorem store {slot : Nat} {value : Twin program}
    (has : activation.routine.HasAt position [.store slot]) (inside : slot < slots.size)
    (rest : Meets program least
      (activation.state (position + 1) (slots.setIfInBounds slot value) stack world) world evaluation
      Arrives) :
    Meets program least (activation.state position slots (compiled value :: stack) world) world
      evaluation Arrives := by
  refine .step ((step_state has.op).trans ?_) rest
  have inside' : slot < (slots.map compiled).size := by rwa [Array.size_map]
  rw [Activation.frame, execute_store _ _ _ _ _ _ inside', Activation.state, Activation.frame,
    Array.map_setIfInBounds]
  rfl

theorem pop {value : Value} (has : activation.routine.HasAt position [.pop])
    (rest : Meets program least (activation.state (position + 1) slots stack world) world evaluation
      Arrives) :
    Meets program least (activation.state position slots (value :: stack) world) world evaluation
      Arrives :=
  .step (step_state has.op) rest

theorem jump {target : Nat} (has : activation.routine.HasAt position [.jump target])
    (rest : Meets program least (activation.state target slots stack world) world evaluation
      Arrives) :
    Meets program least (activation.state position slots stack world) world evaluation Arrives :=
  .step (step_state has.op) rest

theorem makeArray {values : List (Twin program)}
    (has : activation.routine.HasAt position [.makeArray values.length])
    (rest : Meets program least (activation.state (position + 1) slots
      (compiled (.array values) :: stack) world) world evaluation Arrives) :
    Meets program least
      (activation.state position slots ((values.map compiled).reverse ++ stack) world) world
      evaluation Arrives := by
  refine .step ((step_state has.op).trans ?_) rest
  have made := execute_makeArray program (compiledWorld world) activation.routine (position + 1)
    (slots.map compiled) stack (values.map compiled)
  rw [List.length_map] at made
  rw [Activation.frame, made, compiled, ValueOver.recode, recodeAll_eq_map]
  rfl

/-- A loop goes on with the next element of its cursor. -/
theorem iterNext {slot exit done : Nat} {items : List (Twin program)} {item : Twin program}
    (has : activation.routine.HasAt position [.iterNext slot exit])
    (found : slots[slot]? = some (.cursor items done)) (here : items[done]? = some item)
    (rest : Meets program least (activation.state (position + 1)
      (slots.setIfInBounds slot (.cursor items (done + 1))) (compiled item :: stack) world) world
      evaluation Arrives) :
    Meets program least (activation.state position slots stack world) world evaluation Arrives := by
  refine .step ((step_state has.op).trans ?_) rest
  have cursor (count : Nat) :
      compiled (.cursor items count) = .cursor (items.map compiled) count := by
    rw [compiled, ValueOver.recode, recodeAll_eq_map]
  have found' : (slots.map compiled)[slot]? = some (.cursor (items.map compiled) done) := by
    rw [Array.getElem?_map, found, ← cursor]
    rfl
  rw [Activation.frame, execute_iterNext _ _ _ _ _ _ found', List.getElem?_map, here,
    Activation.state, Activation.frame, Array.map_setIfInBounds, cursor]
  rfl

/-- A loop ends once its cursor has no further element. -/
theorem iterExit {slot exit done : Nat} {items : List (Twin program)}
    (has : activation.routine.HasAt position [.iterNext slot exit])
    (found : slots[slot]? = some (.cursor items done)) (none : items[done]? = none)
    (rest : Meets program least (activation.state exit slots stack world) world evaluation
      Arrives) :
    Meets program least (activation.state position slots stack world) world evaluation Arrives := by
  refine .step ((step_state has.op).trans ?_) rest
  have found' : (slots.map compiled)[slot]? = some (.cursor (items.map compiled) done) := by
    rw [Array.getElem?_map, found, Option.map_some, compiled, ValueOver.recode, recodeAll_eq_map]
  rw [Activation.frame, execute_iterNext _ _ _ _ _ _ found', List.getElem?_map, none]
  rfl

/-- A routine gives the newest operand as its answer. -/
theorem ret {value : Twin program} (has : activation.routine.HasAt position [.ret])
    (rest : Meets program least ⟨.answer (compiled value), activation.waiting, compiledWorld world⟩
      world evaluation Arrives) :
    Meets program least (activation.state position slots (compiled value :: stack) world) world
      evaluation Arrives :=
  .step (step_state has.op) rest

/-- A routine gives unit as its answer. -/
theorem retUnit (has : activation.routine.HasAt position [.push .unit, .ret])
    (rest : Meets program least
      ⟨.answer (compiled (.unit : Twin program)), activation.waiting, compiledWorld world⟩ world
      evaluation Arrives) :
    Meets program least (activation.state position slots stack world) world evaluation Arrives := by
  have given : compiled (.unit : Twin program) = .ofConstant .unit := rfl
  refine .push has.head ?_
  rw [← given]
  exact .ret has.tail rest

/-! ## Instructions that may fail -/

/-- The machine does what is settled. -/
theorem settled_map {Source : Type} {change : Source → Result} {outcome : Except Fault Source}
    {start : State} (next : Source → State)
    (taken : Machine.step program start = match outcome with
      | .ok value => .running (next value)
      | .error reason => .ended ⟨.error reason, compiledWorld world⟩)
    (arrives : ∀ value, outcome = .ok value → Arrives (change value) world (next value)) :
    Meets program least start world (settled (outcome.map change)) Arrives := by
  cases outcome with
  | ok value => exact .step taken (.pure (arrives value rfl))
  | error fault => exact .settled_error taken

theorem unary {operator : UnaryOperator} {value : Twin program}
    (has : activation.routine.HasAt position [.unary operator]) :
    Meets program least (activation.state position slots (compiled value :: stack) world) world
      (settled (applyUnary operator (meant value)))
      (activation.Pushes (position + 1) slots stack) := by
  rw [meant, applyUnary_recode]
  refine .settled_map (fun result ↦
    activation.state (position + 1) slots (compiled result :: stack) world) ?_
    fun result _ ↦ ⟨result, rfl, rfl⟩
  rw [step_state has.op, Activation.frame, execute_unary, compiled, applyUnary_recode]
  cases applyUnary operator value <;> rfl

theorem binary {operator : BinaryOperator} {left right : Twin program}
    (has : activation.routine.HasAt position [.binary operator]) :
    Meets program least
      (activation.state position slots (compiled right :: compiled left :: stack) world) world
      (settled (applyBinary operator (meant left) (meant right)))
      (activation.Pushes (position + 1) slots stack) := by
  rw [meant, meant, applyBinary_recode]
  refine .settled_map (fun result ↦
    activation.state (position + 1) slots (compiled result :: stack) world) ?_
    fun result _ ↦ ⟨result, rfl, rfl⟩
  rw [step_state has.op, Activation.frame, execute_binary, compiled, compiled, applyBinary_recode]
  cases applyBinary operator left right <;> rfl

theorem index {array place : Twin program} (has : activation.routine.HasAt position [.index]) :
    Meets program least
      (activation.state position slots (compiled place :: compiled array :: stack) world) world
      (settled (itemOf (meant array) (meant place)))
      (activation.Pushes (position + 1) slots stack) := by
  rw [meant, meant, itemOf_recode]
  refine .settled_map (fun result ↦
    activation.state (position + 1) slots (compiled result :: stack) world) ?_
    fun result _ ↦ ⟨result, rfl, rfl⟩
  rw [step_state has.op, Activation.frame, execute_index, compiled, compiled, itemOf_recode]
  cases itemOf array place <;> rfl

theorem loadField {field : Nat} {target : Twin program}
    (has : activation.routine.HasAt position [.loadField field]) :
    Meets program least (activation.state position slots (compiled target :: stack) world) world
      (readField (meant target) field) (activation.Pushes (position + 1) slots stack) := by
  have same : readField (meant target) field (meantWorld world)
      = settled ((world.readField target field).map meant) (meantWorld world) := by
    rw [readField, WorldOver.readField_recode]
    rfl
  refine .congr (.settled_map (fun result ↦
    activation.state (position + 1) slots (compiled result :: stack) world) ?_
    fun result _ ↦ ⟨result, rfl, rfl⟩) same
  rw [step_state has.op, Activation.frame, execute_loadField, WorldOver.readField_recode]
  cases world.readField target field <;> rfl

theorem storeField {field : Nat} {target value : Twin program}
    (has : activation.routine.HasAt position [.storeField field]) :
    Meets program least
      (activation.state position slots (compiled value :: compiled target :: stack) world) world
      (writeField (meant target) field (meant value))
      fun _ after next ↦ next = activation.state (position + 1) slots stack after := by
  have machine := WorldOver.writeField_recode Pair.routine world target field value
  have evaluator := WorldOver.writeField_recode Pair.lambda world target field value
  have taken : Machine.step program (activation.state position slots
      (compiled value :: compiled target :: stack) world) = _ := step_state has.op
  rw [Activation.frame, execute_storeField, machine] at taken
  cases outcome : world.writeField target field value with
  | error fault =>
      rw [outcome] at taken evaluator
      have evaluated : writeField (meant target) field (meant value) (meantWorld world)
          = some (.error fault, meantWorld world) := by
        rw [writeField, evaluator]
        rfl
      exact .fault evaluated (.of_step taken)
  | ok after =>
      rw [outcome] at taken evaluator
      have evaluated : writeField (meant target) field (meant value) (meantWorld world)
          = some (.ok (), meantWorld after) := by
        rw [writeField, evaluator]
        rfl
      exact .result evaluated (.single taken) rfl

/-- A test decides where the routine goes on. -/
theorem jumpUnless {target : Nat} {test : Twin program} {Other : Type}
    {next : Bool → Evaluation Other} {Finally : Other → TwinWorld program → State → Prop}
    (has : activation.routine.HasAt position [.jumpUnless target])
    (rest : ∀ holds, test.toBool = .ok holds → Meets program least
      (activation.state (if holds then position + 1 else target) slots stack world) world
      (next holds) Finally) :
    Meets program least (activation.state position slots (compiled test :: stack) world) world
      (Evaluation.converted (meant test).toBool >>= next) Finally := by
  have taken : Machine.step program (activation.state position slots (compiled test :: stack)
      world) = _ := step_state has.op
  rw [Activation.frame, execute_jumpUnless, ValueOver.toBool_recode] at taken
  rw [ValueOver.toBool_recode]
  cases held : test.toBool with
  | error mismatch =>
      rw [held] at taken
      exact .error_bind taken
  | ok holds =>
      rw [held] at taken
      exact .step taken (.congr (rest holds held) rfl)

end Meets

end Meaning

end GuestScript
