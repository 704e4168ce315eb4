import GuestScript.Machine.Step
import Mathlib.Data.List.Basic

/-!
# What instructions do

One equation for each instruction that finds its operands, in terms of the operands on top of the
stack, the newest first. `Op.operands` counts them, and an instruction that does not find as many
ends the run with `emptyStack`, or with the mismatch of an operand that it took before.
-/

namespace GuestScript

namespace Bytecode

/-- The number of operands that an instruction takes. -/
def Op.operands : Op → Nat
  | .push _ | .load _ | .construct _ | .iterNext .. | .jump _ => 0
  | .store _ | .loadField _ | .pop | .unary _ | .iterStart | .jumpUnless _ | .ret => 1
  | .storeField _ | .binary _ | .index => 2
  | .makeArray count | .makeClosure _ count | .call _ count | .callHost _ count => count
  | .callClosure count => count + 1

end Bytecode

namespace Machine

open Bytecode (Constant ImportIndex Op Routine RoutineIndex TypeIndex)

/-! ## Taking several operands -/

namespace OperandStack

/-- Moving values turns them around. -/
theorem transfer_append (values taken rest : List Value) :
    transfer values.length taken (values ++ rest) = some (values.reverse ++ taken, rest) := by
  induction values generalizing taken with
  | nil => rfl
  | cons first others ih =>
      simp only [List.length_cons, List.cons_append, transfer, ih, List.reverse_cons,
        List.append_assoc, List.nil_append]

/-- No more values can be moved than there are. -/
theorem transfer_of_lt {count : Nat} {values : List Value} (few : values.length < count)
    (taken : List Value) : transfer count taken values = none := by
  induction values generalizing count taken with
  | nil =>
      cases count with
      | zero => exact absurd few (Nat.lt_irrefl 0)
      | succ count => rfl
  | cons first rest ih =>
      cases count with
      | zero => exact absurd few (Nat.not_lt_zero _)
      | succ count => exact ih (Nat.lt_of_succ_lt_succ few) _

/-- Taking as many operands as have just been added gives them back. -/
@[simp]
theorem popMany_append (values rest : List Value) :
    popMany values.length ⟨values.reverse ++ rest⟩ = (.ok values, ⟨rest⟩) := by
  have moved := transfer_append values.reverse [] rest
  rw [List.length_reverse, List.reverse_reverse, List.append_nil] at moved
  simp only [popMany, moved]

/-- Too few operands are all left where they are. -/
theorem popMany_of_lt {count : Nat} {stack : OperandStack} (few : stack.size < count) :
    popMany count stack = (.error .emptyStack, stack) := by
  simp only [popMany, transfer_of_lt few]

end OperandStack

/-- Enough operands are some that can be taken and the others. -/
theorem exists_operands {count : Nat} {items : List Value} (enough : count ≤ items.length) :
    ∃ values rest : List Value, values.length = count ∧ items = values.reverse ++ rest := by
  refine ⟨(items.take count).reverse, items.drop count, ?_, ?_⟩
  · simp only [List.length_reverse, List.length_take, Nat.min_eq_left enough]
  · rw [List.reverse_reverse, List.take_append_drop]

/-- Enough operands for two are two and the others. -/
theorem exists_two_operands {items : List Value} (enough : 2 ≤ items.length) :
    ∃ (upper lower : Value) (rest : List Value), items = upper :: lower :: rest := by
  obtain ⟨upper, below, rfl⟩ := List.exists_cons_of_length_pos (Nat.zero_lt_of_lt enough)
  obtain ⟨lower, rest, rfl⟩ := List.exists_cons_of_length_pos (Nat.le_of_succ_le_succ enough)
  exact ⟨upper, lower, rest, rfl⟩

/-! ## Equations -/

section Equations

variable (program : Program) (world : World) (routine : Routine) (position : Nat)
  (locals : Array Value) (rest : List Value)

theorem execute_push (constant : Constant) :
    execute program world ⟨routine, position, locals, ⟨rest⟩⟩ (.push constant)
      = (.ok (.next ⟨routine, position, locals, ⟨.ofConstant constant :: rest⟩⟩), world) :=
  rfl

theorem execute_load {slot : Nat} {value : Value} (found : locals[slot]? = some value) :
    execute program world ⟨routine, position, locals, ⟨rest⟩⟩ (.load slot)
      = (.ok (.next ⟨routine, position, locals, ⟨value :: rest⟩⟩), world) := by
  simp only [execute, load, found]
  rfl

theorem execute_store {slot : Nat} (inside : slot < locals.size) (value : Value) :
    execute program world ⟨routine, position, locals, ⟨value :: rest⟩⟩ (.store slot)
      = (.ok (.next ⟨routine, position, locals.setIfInBounds slot value, ⟨rest⟩⟩), world) := by
  simp only [execute, store, OperandStack.pop, bind, Except.bind, if_pos inside]
  rfl

theorem execute_loadField (field : Nat) (target : Value) :
    execute program world ⟨routine, position, locals, ⟨target :: rest⟩⟩ (.loadField field)
      = ((world.readField target field).map fun value ↦
          .next ⟨routine, position, locals, ⟨value :: rest⟩⟩, world) := by
  simp only [execute, loadField, OperandStack.pop, bind, Except.bind]
  cases world.readField target field <;> rfl

theorem execute_storeField (field : Nat) (target value : Value) :
    execute program world ⟨routine, position, locals, ⟨value :: target :: rest⟩⟩
        (.storeField field)
      = match world.writeField target field value with
        | .error fault => (.error fault, world)
        | .ok after => (.ok (.next ⟨routine, position, locals, ⟨rest⟩⟩), after) := by
  simp only [execute, storeField, assignField, OperandStack.pop, bind, Except.bind]
  cases world.writeField target field value <;> rfl

theorem execute_pop (value : Value) :
    execute program world ⟨routine, position, locals, ⟨value :: rest⟩⟩ .pop
      = (.ok (.next ⟨routine, position, locals, ⟨rest⟩⟩), world) :=
  rfl

theorem execute_unary (operator : UnaryOperator) (operand : Value) :
    execute program world ⟨routine, position, locals, ⟨operand :: rest⟩⟩ (.unary operator)
      = ((applyUnary operator operand).map fun value ↦
          .next ⟨routine, position, locals, ⟨value :: rest⟩⟩, world) := by
  simp only [execute, unary, OperandStack.pop, bind, Except.bind]
  cases applyUnary operator operand <;> rfl

theorem execute_binary (operator : BinaryOperator) (left right : Value) :
    execute program world ⟨routine, position, locals, ⟨right :: left :: rest⟩⟩ (.binary operator)
      = ((applyBinary operator left right).map fun value ↦
          .next ⟨routine, position, locals, ⟨value :: rest⟩⟩, world) := by
  simp only [execute, binary, OperandStack.pop, bind, Except.bind]
  cases applyBinary operator left right <;> rfl

theorem execute_makeArray (values : List Value) :
    execute program world ⟨routine, position, locals, ⟨values.reverse ++ rest⟩⟩
        (.makeArray values.length)
      = (.ok (.next ⟨routine, position, locals, ⟨.array values :: rest⟩⟩), world) := by
  simp only [execute, makeArray, OperandStack.popMany_append]
  rfl

theorem execute_makeClosure (index : RoutineIndex) (values : List Value) :
    execute program world ⟨routine, position, locals, ⟨values.reverse ++ rest⟩⟩
        (.makeClosure index values.length)
      = (.ok (.next ⟨routine, position, locals,
            ⟨.closure (world.makeClosure index values).1 :: rest⟩⟩),
          (world.makeClosure index values).2) := by
  simp only [execute, makeClosure, OperandStack.popMany_append]
  rfl

theorem execute_construct (type : TypeIndex) :
    execute program world ⟨routine, position, locals, ⟨rest⟩⟩ (.construct type)
      = (.ok (.await ⟨routine, position, locals, ⟨rest⟩⟩ (.construct type)), world) :=
  rfl

theorem execute_call (index : RoutineIndex) (values : List Value) :
    execute program world ⟨routine, position, locals, ⟨values.reverse ++ rest⟩⟩
        (.call index values.length)
      = (.ok (.await ⟨routine, position, locals, ⟨rest⟩⟩ (.call index values)), world) := by
  simp only [execute, call, OperandStack.popMany_append]
  rfl

theorem execute_callClosure (values : List Value) (callee : Value) :
    execute program world ⟨routine, position, locals, ⟨values.reverse ++ callee :: rest⟩⟩
        (.callClosure values.length)
      = ((orMismatch callee.toClosure).map fun closure ↦
          .await ⟨routine, position, locals, ⟨rest⟩⟩ (callClosure closure values), world) := by
  simp only [execute, callClosureOp, OperandStack.popMany_append, OperandStack.popAs]
  cases callee.toClosure <;> rfl

theorem execute_callHost {imported : ImportIndex} {host : LinkedHost}
    (found : program.hosts[imported]? = some host) (values : List Value) :
    execute program world ⟨routine, position, locals, ⟨values.reverse ++ rest⟩⟩
        (.callHost imported values.length)
      = receive ⟨routine, position, locals, ⟨rest⟩⟩ host.name world
          (host.action.reply values world) := by
  simp only [execute, callHost, OperandStack.popMany_append, found]
  rfl

theorem execute_jump (target : Nat) :
    execute program world ⟨routine, position, locals, ⟨rest⟩⟩ (.jump target)
      = (.ok (.next ⟨routine, target, locals, ⟨rest⟩⟩), world) :=
  rfl

theorem execute_jumpUnless (target : Nat) (test : Value) :
    execute program world ⟨routine, position, locals, ⟨test :: rest⟩⟩ (.jumpUnless target)
      = ((orMismatch test.toBool).map fun holds ↦
          .next ⟨routine, if holds then position else target, locals, ⟨rest⟩⟩, world) := by
  simp only [execute, jumpUnless, OperandStack.popAs]
  cases test.toBool with
  | error mismatch => rfl
  | ok holds => cases holds <;> rfl

theorem execute_ret (value : Value) :
    execute program world ⟨routine, position, locals, ⟨value :: rest⟩⟩ .ret
      = (.ok (.leave value), world) :=
  rfl

theorem execute_index (array position' : Value) :
    execute program world ⟨routine, position, locals, ⟨position' :: array :: rest⟩⟩ .index
      = ((itemOf array position').map fun value ↦
          .next ⟨routine, position, locals, ⟨value :: rest⟩⟩, world) := by
  simp only [execute, index, itemOf, OperandStack.popAs, bind, Except.bind]
  cases orMismatch position'.toInt with
  | error fault => rfl
  | ok at' =>
      cases orMismatch array.toItems with
      | error fault => rfl
      | ok items => cases found : itemAt? items at' <;> simp only [found] <;> rfl

/-- A loop over what it starts with: over an array at once, over a sequence after enumerating it. -/
theorem execute_iterStart_array (items : List Value) :
    execute program world ⟨routine, position, locals, ⟨.array items :: rest⟩⟩ .iterStart
      = (.ok (.next ⟨routine, position, locals, ⟨.cursor items 0 :: rest⟩⟩), world) :=
  rfl

theorem execute_iterStart_seq (identity : Nat) (source : List Value) (stages : List Stage) :
    execute program world ⟨routine, position, locals, ⟨.seq identity source stages :: rest⟩⟩
        .iterStart
      = (.ok (.await ⟨routine, position, locals, ⟨rest⟩⟩ (.enumerate source [] stages .cursor)),
          world) :=
  rfl

theorem execute_iterNext {slot : Nat} {items : List Value} {next : Nat}
    (found : locals[slot]? = some (.cursor items next)) (exit : Nat) :
    execute program world ⟨routine, position, locals, ⟨rest⟩⟩ (.iterNext slot exit)
      = match items[next]? with
        | some item => (.ok (.next ⟨routine, position,
            locals.setIfInBounds slot (.cursor items (next + 1)), ⟨item :: rest⟩⟩), world)
        | none => (.ok (.next ⟨routine, exit, locals, ⟨rest⟩⟩), world) := by
  simp only [execute, iterNext, found]
  cases items[next]? <;> rfl

/-- An instruction that does not find its operands ends the run. -/
theorem execute_of_short {op : Op} (few : rest.length < op.operands) :
    (execute program world ⟨routine, position, locals, ⟨rest⟩⟩ op = (.error .emptyStack, world)) ∨
      ∃ mismatch, execute program world ⟨routine, position, locals, ⟨rest⟩⟩ op
        = (.error (.typeMismatch mismatch), world) := by
  have many (count : Nat) (few : rest.length < count) :
      OperandStack.popMany count ⟨rest⟩ = (.error .emptyStack, ⟨rest⟩) :=
    OperandStack.popMany_of_lt few
  cases op with
  | push | load | construct | iterNext | jump => exact absurd few (Nat.not_lt_zero _)
  | store | loadField | pop | unary | iterStart | jumpUnless | ret =>
      match rest with
      | [] => exact .inl rfl
      | _ :: _ => exact absurd few (by simp [Op.operands])
  | storeField | binary =>
      match rest with
      | [] | [_] => exact .inl rfl
      | _ :: _ :: _ => exact absurd few (by simp [Op.operands])
  | index =>
      match rest with
      | [] => exact .inl rfl
      | [position'] =>
          simp only [execute, index, OperandStack.popAs, bind, Except.bind]
          cases position'.toInt with
          | error mismatch => exact .inr ⟨mismatch, rfl⟩
          | ok at' => exact .inl rfl
      | _ :: _ :: _ => exact absurd few (by simp [Op.operands])
  | makeArray count =>
      simp only [execute, makeArray, many count few]
      exact .inl rfl
  | makeClosure index count =>
      simp only [execute, makeClosure, many count few, true_or]
  | call index count =>
      simp only [execute, call, many count few]
      exact .inl rfl
  | callHost imported count =>
      simp only [execute, callHost, many count few, true_or]
  | callClosure count =>
      by_cases enough : count ≤ rest.length
      · obtain ⟨values, below, rfl, rfl⟩ := exists_operands enough
        have none : below = [] := by
          simpa [Op.operands] using few
        subst none
        simp only [execute, callClosureOp, OperandStack.popMany_append, OperandStack.popAs]
        exact .inl rfl
      · simp only [execute, callClosureOp, many count (Nat.lt_of_not_le enough)]
        exact .inl rfl

end Equations

end Machine

end GuestScript
