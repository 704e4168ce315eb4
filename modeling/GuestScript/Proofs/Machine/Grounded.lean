import GuestScript.Bytecode.Verify
import GuestScript.Proofs.Machine.Codes
import GuestScript.Proofs.Machine.DataFaults
import GuestScript.Proofs.Machine.Instructions
import GuestScript.Proofs.Machine.Runs

/-!
# Verified images refer to nothing that is missing

A state is grounded in a program if every routine, type and slot that it refers to exists: each
frame runs a routine of the image and has all its slots, and each closure in a value, wherever it
is, runs a routine of the image. `Verified` is what the check of an image establishes of its types
and its code. Every step from a grounded state leads to a grounded state or ends the run, and never
with a fault that says that something does not exist.
-/

namespace GuestScript

namespace Bytecode

/-- Whatever an instruction of a routine refers to exists. -/
def Op.Refers (image : Image) (routine : Routine) : Op → Prop
  | .load slot | .store slot | .iterNext slot _ => slot < routine.locals
  | .call callee _ | .makeClosure callee _ => callee < image.routines.size
  | .construct type => type < image.types.size
  | .callHost imported _ => imported < image.imports.size
  | _ => True

theorem Op.refers_of_defect {image : Image} {routine : Routine} {op : Op}
    (valid : op.defect? image routine = none) : op.Refers image routine := by
  cases op <;> simp only [Op.defect?, ite_eq_right_iff, reduceCtorEq, imp_false, Nat.not_le] at valid
  case iterNext =>
    split at valid
    · exact absurd valid nofun
    · rename_i inside
      exact Nat.lt_of_not_le inside
  all_goals first | exact valid | exact trivial

/-- What the check of an image establishes. -/
structure Image.Verified (image : Image) : Prop where
  initializer : ∀ definition ∈ image.types, ∀ index ∈ definition.initializer,
    index < image.routines.size
  arity : ∀ routine ∈ image.routines, routine.arity ≤ routine.locals
  code : ∀ routine ∈ image.routines, ∀ op ∈ routine.code, op.Refers image routine

theorem Image.invalid_of_verify {image : Image} (passed : image.verify = .ok ()) :
    image.invalid? = none := by
  rw [Image.verify] at passed
  split at passed
  · exact absurd passed nofun
  · assumption

/-- An image that passes the check is a verified one. -/
theorem Image.verified_of_verify {image : Image} (passed : image.verify = .ok ()) :
    image.Verified := by
  have valid := invalid_of_verify passed
  simp only [Image.invalid?, Option.orElse_eq_orElse, Option.orElse_eq_or, Option.or_eq_none_iff,
    List.findSome?_eq_none_iff, Option.map_eq_none_iff, Array.mem_toList_iff] at valid
  obtain ⟨-, types, routines⟩ := valid
  simp only [Routine.defect?, Option.orElse_eq_orElse, Option.orElse_eq_or, Option.or_eq_none_iff,
    List.findSome?_eq_none_iff, Array.mem_toList_iff] at routines
  constructor
  · intro definition inside index initializer
    have members := types definition inside
    simp only [Image.memberDefect?, List.findSome?_eq_none_iff] at members
    have member := members index (by simp [Option.mem_def.mp initializer])
    by_contra missing
    simp [Nat.le_of_not_lt missing] at member
  · intro routine inside
    have defect := (routines routine inside).1
    by_contra few
    simp [Routine.argumentsDefect?, Nat.lt_of_not_le few] at defect
  · intro routine inside
    exact fun op code ↦ Op.refers_of_defect ((routines routine inside).2.2.2 op code)

end Bytecode

namespace Machine

open Bytecode (Image Op Routine RoutineIndex TypeIndex)

variable {program : Program}

/-! ## Grounded states -/

/-- A closure of this code runs a routine that exists. -/
def Program.HasRoutine (program : Program) (index : RoutineIndex) : Prop :=
  index < program.image.routines.size

/-- A frame runs a routine of the image, and has all its slots. -/
structure Frame.Grounded (program : Program) (frame : Frame) : Prop where
  routine : frame.routine ∈ program.image.routines
  slots : frame.locals.size = frame.routine.locals
  locals : ∀ value ∈ frame.locals, value.Over program.HasRoutine
  stack : ∀ value ∈ frame.stack.items, value.Over program.HasRoutine

/-- What waits for an answer refers to nothing that is missing. -/
def Waiting.Grounded (program : Program) : Waiting → Prop
  | .routine frame => frame.Grounded program
  | .object value => value.Over program.HasRoutine
  | .element stage current pending done later _ =>
      stage.Over program.HasRoutine ∧ current.Over program.HasRoutine ∧
        (∀ value ∈ pending, value.Over program.HasRoutine) ∧
        (∀ value ∈ done, value.Over program.HasRoutine) ∧
        ∀ stage ∈ later, stage.Over program.HasRoutine

/-- What the machine is doing refers to nothing that is missing. -/
def Control.Grounded (program : Program) : Control → Prop
  | .run frame => frame.Grounded program
  | .call index arguments =>
      program.HasRoutine index ∧ ∀ value ∈ arguments, value.Over program.HasRoutine
  | .construct type => type < program.image.types.size
  | .enumerate pending done stages _ =>
      (∀ value ∈ pending, value.Over program.HasRoutine) ∧
        (∀ value ∈ done, value.Over program.HasRoutine) ∧
        ∀ stage ∈ stages, stage.Over program.HasRoutine
  | .answer value => value.Over program.HasRoutine

/-- Nothing that a state refers to is missing. -/
structure State.Grounded (program : Program) (state : State) : Prop where
  control : state.control.Grounded program
  waiting : ∀ waiting ∈ state.waiting, waiting.Grounded program
  world : state.world.Over program.HasRoutine

/-- What a step leads to refers to nothing that is missing, and does not complain of anything that
is. -/
def Step.Grounded (program : Program) : Step → Prop
  | .running state => state.Grounded program
  | .ended ⟨.ok value, world⟩ =>
      value.Over program.HasRoutine ∧ world.Over program.HasRoutine
  | .ended ⟨.error fault, _⟩ => fault.isDangling = false

/-- What an instruction leads to refers to nothing that is missing. -/
def Effect.Grounded (program : Program) : Effect → Prop
  | .next frame => frame.Grounded program
  | .await frame control => frame.Grounded program ∧ control.Grounded program
  | .leave value => value.Over program.HasRoutine

/-- The outcome of an instruction refers to nothing that is missing, and does not complain of
anything that is. -/
def GroundedOutcome (program : Program) : Except Fault Effect × World → Prop
  | (.ok effect, world) => effect.Grounded program ∧ world.Over program.HasRoutine
  | (.error fault, _) => fault.isDangling = false

/-! ## Instructions -/

section Instructions

variable {world : World} {routine : Routine} {position : Nat} {locals : Array Value}
  {rest : List Value}

/-- A frame stays grounded when it goes on elsewhere with other grounded operands. -/
theorem Frame.Grounded.goOn {stack : List Value} {position' : Nat}
    (frame : Frame.Grounded program ⟨routine, position, locals, ⟨rest⟩⟩)
    (operands : ∀ value ∈ stack, value.Over program.HasRoutine) :
    Frame.Grounded program ⟨routine, position', locals, ⟨stack⟩⟩ :=
  ⟨frame.routine, frame.slots, frame.locals, operands⟩

/-- A frame stays grounded when one of its slots gets a grounded value. -/
theorem Frame.Grounded.assign {slot : Nat} {value : Value}
    (frame : Frame.Grounded program ⟨routine, position, locals, ⟨rest⟩⟩)
    (valueOver : value.Over program.HasRoutine) :
    Frame.Grounded program ⟨routine, position, locals.setIfInBounds slot value, ⟨rest⟩⟩ := by
  refine ⟨frame.routine, ?_, ?_, frame.stack⟩
  · simpa only [Array.size_setIfInBounds] using frame.slots
  · intro other inside
    obtain rfl | inside := Array.mem_or_eq_of_mem_setIfInBounds inside |>.symm
    · exact valueOver
    · exact frame.locals other inside

/-- What is put in the place of operands by an operation on data. -/
theorem groundedOutcome_of_map {operands : List Value} {result : Except Fault Value}
    (frame : Frame.Grounded program ⟨routine, position, locals, ⟨operands⟩⟩)
    (worldOver : world.Over program.HasRoutine)
    (below : ∀ value ∈ rest, value.Over program.HasRoutine)
    (value : ∀ value, result = .ok value → value.Over program.HasRoutine)
    (data : ∀ fault, result = .error fault → fault.isFromData) :
    GroundedOutcome program
      (result.map fun value ↦ .next ⟨routine, position, locals, ⟨value :: rest⟩⟩, world) := by
  cases result with
  | ok result =>
      exact ⟨frame.goOn (List.forall_mem_cons.mpr ⟨value result rfl, below⟩), worldOver⟩
  | error fault => exact Fault.not_isDangling (data fault rfl)

/-- What a host function replies refers to nothing that is missing. -/
theorem receive_grounded {name : String} {action : HostAction} {arguments : List Value}
    (frame : Frame.Grounded program ⟨routine, position, locals, ⟨rest⟩⟩)
    (worldOver : world.Over program.HasRoutine)
    (values : ∀ value ∈ arguments, value.Over program.HasRoutine) :
    GroundedOutcome program (receive ⟨routine, position, locals, ⟨rest⟩⟩ name world
      (action.reply arguments world)) := by
  have reply := action.reply_over values worldOver
  cases replied : action.reply arguments world with
  | value answer after =>
      rw [replied] at reply
      exact ⟨frame.goOn (List.forall_mem_cons.mpr ⟨reply.1, frame.stack⟩), reply.2⟩
  | refuse error => rfl
  | fault fault => exact Fault.not_isDangling (HostAction.reply_fault_isFromData replied)
  | enumerate source stages goal =>
      rw [replied] at reply
      exact ⟨⟨frame, reply.1, nofun, reply.2⟩, worldOver⟩

/-- An instruction that refers to what exists leads to a grounded outcome. -/
theorem execute_grounded {op : Op} {operands : List Value}
    (linked : program.hosts.size = program.image.imports.size)
    (frame : Frame.Grounded program ⟨routine, position, locals, ⟨operands⟩⟩)
    (worldOver : world.Over program.HasRoutine) (valid : op.Refers program.image routine) :
    GroundedOutcome program (execute program world ⟨routine, position, locals, ⟨operands⟩⟩ op) := by
  by_cases enough : op.operands ≤ operands.length
  case neg =>
    obtain short | ⟨mismatch, short⟩ := execute_of_short program world routine position locals
        operands (Nat.lt_of_not_le enough)
    · rw [short]; rfl
    · rw [short]; rfl
  have stack := frame.stack
  have slots : locals.size = routine.locals := frame.slots
  cases op with
  | push constant =>
      rw [execute_push]
      exact ⟨frame.goOn (List.forall_mem_cons.mpr ⟨ValueOver.over_ofConstant constant, stack⟩),
        worldOver⟩
  | load slot =>
      have inside : slot < locals.size := slots.symm ▸ valid
      rw [execute_load program world routine position locals operands
        (Array.getElem?_eq_getElem inside)]
      have value := frame.locals locals[slot] (Array.getElem_mem inside)
      exact ⟨frame.goOn (List.forall_mem_cons.mpr ⟨value, stack⟩), worldOver⟩
  | store slot =>
      obtain ⟨value, rest, rfl⟩ := List.exists_cons_of_length_pos enough
      have inside : slot < locals.size := slots.symm ▸ valid
      obtain ⟨value, rest⟩ := List.forall_mem_cons.mp stack
      rw [execute_store program world routine position locals _ inside]
      exact ⟨(frame.goOn rest).assign value, worldOver⟩
  | loadField field =>
      obtain ⟨target, rest, rfl⟩ := List.exists_cons_of_length_pos enough
      obtain ⟨target, rest⟩ := List.forall_mem_cons.mp stack
      rw [execute_loadField]
      exact groundedOutcome_of_map frame worldOver rest
        (fun _ ↦ WorldOver.readField_over worldOver target) fun _ ↦ WorldOver.readField_isFromData
  | storeField field =>
      obtain ⟨value, target, rest, rfl⟩ := exists_two_operands enough
      simp only [List.forall_mem_cons] at stack
      rw [execute_storeField]
      cases written : world.writeField target field value with
      | ok after =>
          exact ⟨frame.goOn stack.2.2,
            WorldOver.writeField_over worldOver stack.2.1 stack.1 written⟩
      | error fault => exact Fault.not_isDangling (WorldOver.writeField_isFromData written)
  | pop =>
      obtain ⟨value, rest, rfl⟩ := List.exists_cons_of_length_pos enough
      exact ⟨frame.goOn (List.forall_mem_cons.mp stack).2, worldOver⟩
  | unary operator =>
      obtain ⟨operand, rest, rfl⟩ := List.exists_cons_of_length_pos enough
      obtain ⟨operand, rest⟩ := List.forall_mem_cons.mp stack
      rw [execute_unary]
      exact groundedOutcome_of_map frame worldOver rest
        (fun _ ↦ applyUnary_over operand) fun _ ↦ applyUnary_isFromData
  | binary operator =>
      obtain ⟨right, left, rest, rfl⟩ := exists_two_operands enough
      simp only [List.forall_mem_cons] at stack
      rw [execute_binary]
      exact groundedOutcome_of_map frame worldOver stack.2.2
        (fun _ ↦ applyBinary_over stack.2.1 stack.1) fun _ ↦ applyBinary_isFromData
  | index =>
      obtain ⟨position', array, rest, rfl⟩ := exists_two_operands enough
      simp only [List.forall_mem_cons] at stack
      rw [execute_index]
      exact groundedOutcome_of_map frame worldOver stack.2.2
        (fun _ ↦ itemOf_over stack.2.1 stack.1) fun _ ↦ itemOf_isFromData
  | makeArray count =>
      obtain ⟨values, rest, rfl, rfl⟩ := exists_operands enough
      simp only [List.forall_mem_append, List.mem_reverse] at stack
      rw [execute_makeArray]
      exact ⟨frame.goOn (List.forall_mem_cons.mpr ⟨ValueOver.over_array.mpr stack.1, stack.2⟩),
        worldOver⟩
  | makeClosure index count =>
      obtain ⟨values, rest, rfl, rfl⟩ := exists_operands enough
      simp only [List.forall_mem_append, List.mem_reverse] at stack
      rw [execute_makeClosure]
      obtain ⟨closure, after⟩ := WorldOver.makeClosure_over worldOver valid stack.1
      have value := ValueOver.over_closure.mpr closure
      exact ⟨frame.goOn (List.forall_mem_cons.mpr ⟨value, stack.2⟩), after⟩
  | construct type =>
      exact ⟨⟨frame.goOn stack, valid⟩, worldOver⟩
  | call index count =>
      obtain ⟨values, rest, rfl, rfl⟩ := exists_operands enough
      simp only [List.forall_mem_append, List.mem_reverse] at stack
      rw [execute_call]
      exact ⟨⟨frame.goOn stack.2, valid, stack.1⟩, worldOver⟩
  | callClosure count =>
      obtain ⟨values, below, rfl, rfl⟩ := exists_operands (Nat.le_of_succ_le enough)
      have some : 0 < below.length := by
        simp only [Op.operands, List.length_append, List.length_reverse] at enough
        omega
      obtain ⟨callee, rest, rfl⟩ := List.exists_cons_of_length_pos some
      simp only [List.forall_mem_append, List.mem_reverse, List.forall_mem_cons] at stack
      rw [execute_callClosure]
      cases converted : callee.toClosure with
      | error mismatch => rfl
      | ok closure =>
          obtain ⟨code, captures⟩ := ClosureOver.over_iff.mp (toClosure_over stack.2.1 converted)
          exact ⟨⟨frame.goOn stack.2.2, code, List.forall_mem_append.mpr ⟨captures, stack.1⟩⟩,
            worldOver⟩
  | callHost imported count =>
      obtain ⟨values, rest, rfl, rfl⟩ := exists_operands enough
      simp only [List.forall_mem_append, List.mem_reverse] at stack
      have inside : imported < program.hosts.size := linked.symm ▸ valid
      rw [execute_callHost program world routine position locals rest
        (Array.getElem?_eq_getElem inside)]
      exact receive_grounded (frame.goOn stack.2) worldOver stack.1
  | iterStart =>
      obtain ⟨iterable, rest, rfl⟩ := List.exists_cons_of_length_pos enough
      obtain ⟨iterable', rest'⟩ := List.forall_mem_cons.mp stack
      cases iterable with
      | array items =>
          have cursor : ValueOver.Over program.HasRoutine (.cursor items 0) :=
            ValueOver.over_cursor.mpr (ValueOver.over_array.mp iterable')
          exact ⟨frame.goOn (List.forall_mem_cons.mpr ⟨cursor, rest'⟩), worldOver⟩
      | seq identity source stages =>
          obtain ⟨source, stages⟩ := ValueOver.over_seq.mp iterable'
          exact ⟨⟨frame.goOn rest', source, List.forall_mem_nil _, stages⟩, worldOver⟩
      | _ => rfl
  | iterNext slot exit =>
      have inside : slot < locals.size := slots.symm ▸ valid
      have found := Array.getElem?_eq_getElem inside
      have value := frame.locals locals[slot] (Array.getElem_mem inside)
      generalize locals[slot] = current at found value
      cases current with
      | cursor items position' =>
          rw [execute_iterNext program world routine position locals operands found]
          have items' := ValueOver.over_cursor.mp value
          cases item : items[position']? with
          | none => exact ⟨frame.goOn stack, worldOver⟩
          | some item' =>
              have item := items' item' (List.mem_of_getElem? item)
              have cursor : ValueOver.Over program.HasRoutine (.cursor items (position' + 1)) :=
                ValueOver.over_cursor.mpr items'
              exact ⟨(frame.assign cursor).goOn (List.forall_mem_cons.mpr ⟨item, stack⟩), worldOver⟩
      | _ =>
          simp only [execute, iterNext, found]
          rfl
  | jump target => exact ⟨frame.goOn stack, worldOver⟩
  | jumpUnless target =>
      obtain ⟨test, rest, rfl⟩ := List.exists_cons_of_length_pos enough
      rw [execute_jumpUnless]
      cases test.toBool with
      | error mismatch => rfl
      | ok holds => exact ⟨frame.goOn (List.forall_mem_cons.mp stack).2, worldOver⟩
  | ret =>
      obtain ⟨value, rest, rfl⟩ := List.exists_cons_of_length_pos enough
      exact ⟨(List.forall_mem_cons.mp stack).1, worldOver⟩

end Instructions

/-! ## Steps -/

section Steps

variable {waiting : List Waiting} {world : World}

/-- What becomes of the outcome of an instruction is grounded if the outcome is. -/
theorem proceed_grounded {outcome : Except Fault Effect × World}
    (rest : ∀ other ∈ waiting, other.Grounded program)
    (grounded : GroundedOutcome program outcome) :
    (proceed waiting outcome).Grounded program := by
  match outcome with
  | (.error fault, world) => exact grounded
  | (.ok (.next frame), world) => exact ⟨grounded.1, rest, grounded.2⟩
  | (.ok (.await frame control), world) =>
      exact ⟨grounded.1.2, List.forall_mem_cons.mpr ⟨grounded.1.1, rest⟩, grounded.2⟩
  | (.ok (.leave value), world) => exact ⟨grounded.1, rest, grounded.2⟩

/-- A frame that a routine starts with is grounded if the arguments are. -/
theorem Frame.enter_grounded {routine : Routine} {arguments : List Value}
    (inside : routine ∈ program.image.routines)
    (values : ∀ value ∈ arguments, value.Over program.HasRoutine) :
    (Frame.enter routine arguments).Grounded program := by
  refine ⟨inside, ?_, ?_, nofun⟩
  · simp only [Frame.enter, List.size_toArray, List.length_append, List.length_take,
      List.length_replicate]
    omega
  · intro value member
    simp only [Frame.enter, List.mem_toArray, List.mem_append, List.mem_replicate] at member
    obtain taken | ⟨-, rfl⟩ := member
    · exact values value (List.mem_of_mem_take taken)
    · exact ValueOver.over_unit

theorem startCall_grounded {index : RoutineIndex} {arguments : List Value}
    (inside : program.HasRoutine index)
    (values : ∀ value ∈ arguments, value.Over program.HasRoutine)
    (rest : ∀ other ∈ waiting, other.Grounded program) (worldOver : world.Over program.HasRoutine) :
    (startCall program index arguments waiting world).Grounded program := by
  have found := Array.getElem?_eq_getElem inside
  simp only [startCall, found]
  split
  · rfl
  · split
    · rfl
    · exact ⟨Frame.enter_grounded (Array.getElem_mem inside) values, rest, worldOver⟩

theorem startConstruction_grounded {type : TypeIndex} (verified : program.image.Verified)
    (inside : type < program.image.types.size)
    (rest : ∀ other ∈ waiting, other.Grounded program) (worldOver : world.Over program.HasRoutine) :
    (startConstruction program type waiting world).Grounded program := by
  have found := Array.getElem?_eq_getElem inside
  have initializers := verified.initializer _ (Array.getElem_mem inside)
  generalize program.image.types[type] = definition at found initializers
  have after : (world.allocate type definition.fullName
      (definition.fields.map fun _ ↦ Value.unit)).2.Over program.HasRoutine := by
    apply WorldOver.allocate_over worldOver
    intro value member
    obtain ⟨_, _, rfl⟩ := List.mem_map.mp member
    exact ValueOver.over_unit
  simp only [startConstruction, found]
  split
  · exact ⟨ValueOver.over_object _, rest, after⟩
  · rename_i initializer known
    have object : ValueOver.Over program.HasRoutine (.object (world.allocate type
        definition.fullName (definition.fields.map fun _ ↦ Value.unit)).1) :=
      ValueOver.over_object _
    exact ⟨⟨initializers initializer known, List.forall_mem_singleton.mpr object⟩,
      List.forall_mem_cons.mpr ⟨object, rest⟩, after⟩

theorem enumerate_grounded {pending done : List Value} {stages : List Stage} {goal : Goal}
    (grounded : Control.Grounded program (.enumerate pending done stages goal))
    (rest : ∀ other ∈ waiting, other.Grounded program) (worldOver : world.Over program.HasRoutine) :
    (enumerate pending done stages goal waiting world).Grounded program := by
  obtain ⟨pending', done', stages'⟩ := grounded
  match stages, pending with
  | [], pending => exact ⟨Goal.deliver_over pending', rest, worldOver⟩
  | _ :: later, [] =>
      have reversed : ∀ value ∈ done.reverse, value.Over program.HasRoutine :=
        fun value member ↦ done' value (List.mem_reverse.mp member)
      exact ⟨⟨reversed, nofun, (List.forall_mem_cons.mp stages').2⟩, rest, worldOver⟩
  | stage :: later, current :: pending =>
      obtain ⟨stage', later'⟩ := List.forall_mem_cons.mp stages'
      obtain ⟨current', pending'⟩ := List.forall_mem_cons.mp pending'
      obtain ⟨code, captures⟩ := ClosureOver.over_iff.mp (StageOver.over_iff.mp stage')
      have arguments := List.forall_mem_append.mpr
        ⟨captures, List.forall_mem_singleton.mpr current'⟩
      exact ⟨⟨code, arguments⟩,
        List.forall_mem_cons.mpr ⟨⟨stage', current', pending', done', later'⟩, rest⟩, worldOver⟩

theorem deliver_grounded {value : Value} (answer : value.Over program.HasRoutine)
    (rest : ∀ other ∈ waiting, other.Grounded program) (worldOver : world.Over program.HasRoutine) :
    (deliver value waiting world).Grounded program := by
  match waiting with
  | [] => exact ⟨answer, worldOver⟩
  | .routine frame :: waiting =>
      obtain ⟨frame', waiting'⟩ := List.forall_mem_cons.mp rest
      exact ⟨frame'.goOn (List.forall_mem_cons.mpr ⟨answer, frame'.stack⟩), waiting', worldOver⟩
  | .object object :: waiting =>
      obtain ⟨object', waiting'⟩ := List.forall_mem_cons.mp rest
      exact ⟨object', waiting', worldOver⟩
  | .element stage current pending done later goal :: waiting =>
      obtain ⟨⟨stage', current', pending', done', later'⟩, waiting'⟩ := List.forall_mem_cons.mp rest
      have stages := List.forall_mem_cons.mpr ⟨stage', later'⟩
      cases stage with
      | map mapper =>
          exact ⟨⟨pending', List.forall_mem_cons.mpr ⟨answer, done'⟩, stages⟩, waiting', worldOver⟩
      | filter predicate =>
          cases kept : value.toBool with
          | error mismatch =>
              simp only [deliver, kept]
              rfl
          | ok keep =>
              cases keep with
              | true =>
                  simp only [deliver, kept]
                  exact ⟨⟨pending', List.forall_mem_cons.mpr ⟨current', done'⟩, stages⟩,
                    waiting', worldOver⟩
              | false =>
                  simp only [deliver, kept]
                  exact ⟨⟨pending', done', stages⟩, waiting', worldOver⟩

end Steps

/-- A step of a verified program from a grounded state leads to a grounded state, or ends the run
without a complaint that something does not exist. -/
theorem step_grounded (verified : program.image.Verified)
    (linked : program.hosts.size = program.image.imports.size) {state : State}
    (grounded : state.Grounded program) : (step program state).Grounded program := by
  obtain ⟨control, rest, worldOver⟩ := grounded
  match state with
  | ⟨.run ⟨routine, position, locals, ⟨operands⟩⟩, waiting, world⟩ =>
      simp only [step, runFrame]
      split
      · exact ⟨ValueOver.over_unit, rest, worldOver⟩
      · rename_i op found
        have valid := verified.code routine control.routine op (Array.mem_of_getElem? found)
        exact proceed_grounded rest
          (execute_grounded linked (control.goOn control.stack) worldOver valid)
  | ⟨.call index arguments, waiting, world⟩ =>
      exact startCall_grounded control.1 control.2 rest worldOver
  | ⟨.construct type, waiting, world⟩ =>
      exact startConstruction_grounded verified control rest worldOver
  | ⟨.enumerate pending done stages goal, waiting, world⟩ =>
      exact enumerate_grounded control rest worldOver
  | ⟨.answer value, waiting, world⟩ => exact deliver_grounded control rest worldOver

/-- Every state that a verified program reaches from a grounded one is grounded. -/
theorem Reaches.grounded (verified : program.image.Verified)
    (linked : program.hosts.size = program.image.imports.size) {state last : State}
    (reached : Reaches program state last) (grounded : state.Grounded program) :
    last.Grounded program := by
  refine reached.preserves (fun taken before ↦ ?_) grounded
  have after := step_grounded verified linked before
  rw [taken] at after
  exact after

/-- A run of a verified program from a grounded state ends with a grounded value, or without a
complaint that something does not exist. -/
theorem run_grounded (verified : program.image.Verified)
    (linked : program.hosts.size = program.image.imports.size) {state : State}
    (grounded : state.Grounded program) {fuel : Nat} {ending : Ending}
    (ran : run program fuel state = some ending) : (Step.ended ending).Grounded program := by
  obtain ⟨count, last, -, taken, ended⟩ := run_eq_some_iff.mp ran
  have after := step_grounded verified linked (Reaches.grounded verified linked ⟨count, taken⟩
    grounded)
  rw [ended] at after
  exact after

end Machine

end GuestScript
