import GuestScript.Proofs.Bytecode.Shapes
import GuestScript.Proofs.Machine.Grounded

/-!
# Running shaped code

In a program whose routines are shaped, every frame is where some path through its routine leads,
and its operands and slots are as the shape there tells. `step_fits` says that each step keeps to
this. So no instruction lacks operands, every loop finds its cursor, and a call has the wrong number
of arguments only if it is that of a closure.
-/

namespace GuestScript

open Machine (Program)

/-- An instruction hands over as many values as are taken where it calls. -/
def Bytecode.Op.Supplies (program : Program) : Bytecode.Op → Prop
  | .call callee count => ∀ routine, program.image.routines[callee]? = some routine →
      count = routine.arity
  | .callHost imported count => ∀ host, program.hosts[imported]? = some host →
      count = host.action.arity
  | _ => True

namespace Machine

open Bytecode (Op Routine RoutineIndex Shape TypeIndex)

/-- Every routine of a program is shaped, and what gives fields their first values takes the new
object. -/
structure Program.Shaped (program : Program) : Prop where
  routine : ∀ routine ∈ program.image.routines,
    ∃ shapes, routine.Shaped (Op.Supplies program) shapes
  initializer : ∀ definition ∈ program.image.types, ∀ index ∈ definition.initializer,
    ∀ routine, program.image.routines[index]? = some routine → routine.arity = 1

/-! ## Shapes of frames -/

/-- A value is the cursor of a loop. -/
def IsCursor (value : Value) : Prop :=
  ∃ items next, value = .cursor items next

/-- What a shape tells is so, of the slots and the operands of a frame. -/
structure Describes (shape : Shape) (locals : Array Value) (operands : List Value) : Prop where
  height : operands.length = shape.height
  cursors : ∀ slot ∈ shape.cursors, ∃ value, locals[slot]? = some value ∧ IsCursor value
  onTop : shape.onTop = true → ∃ value rest, operands = value :: rest ∧ IsCursor value

namespace Describes

variable {shape wanted : Shape} {locals : Array Value} {operands rest : List Value} {slot : Nat}
  {value : Value}

theorem provided (described : Describes shape locals operands) (provides : shape.Provides wanted) :
    Describes wanted locals operands :=
  ⟨described.height.trans provides.height,
    fun slot held ↦ described.cursors slot (provides.cursors held),
    fun top ↦ described.onTop (provides.onTop top)⟩

/-- Other operands, in so far as they are counted only. -/
theorem plain (described : Describes shape locals operands) :
    Describes (.plain rest.length shape.cursors) locals rest :=
  ⟨rfl, described.cursors, nofun⟩

/-- A slot that held no cursor may be given any value. -/
theorem assign (described : Describes shape locals operands) (other : slot ∉ shape.cursors) :
    Describes (.plain rest.length shape.cursors) (locals.setIfInBounds slot value) rest := by
  refine ⟨rfl, fun held inside ↦ ?_, nofun⟩
  have apart : slot ≠ held := by
    rintro rfl
    exact other inside
  rw [Array.getElem?_setIfInBounds_ne apart]
  exact described.cursors held inside

/-- A slot is given a cursor. -/
theorem assignCursor {cursors : List Nat} (described : Describes shape locals operands)
    (inside : slot < locals.size) (cursor : IsCursor value)
    (subset : ∀ other ∈ cursors, other = slot ∨ other ∈ shape.cursors) :
    Describes (.plain rest.length cursors) (locals.setIfInBounds slot value) rest := by
  refine ⟨rfl, fun other held ↦ ?_, nofun⟩
  by_cases same : slot = other
  · subst same
    exact ⟨value, Array.getElem?_setIfInBounds_self_of_lt inside, cursor⟩
  · rw [Array.getElem?_setIfInBounds_ne same]
    exact described.cursors other ((subset other held).resolve_left (Ne.symm same))

end Describes

/-! ## Instructions -/

section Instructions

variable {program : Program} {op : Op} {routine : Routine} {position : Nat} {shape : Shape}
  {world : World} {locals : Array Value} {operands rest : List Value}

/-- A frame is where an instruction leads, with what the shape there tells. -/
def Frame.IsLed (frame : Frame) (op : Op) (routine : Routine) (position : Nat) (shape : Shape) :
    Prop :=
  frame.routine = routine ∧ ∃ after, (frame.position, after) ∈ op.leads position shape ∧
    Describes after frame.locals frame.stack.items

/-- What can be the answer to what the machine is doing. -/
def Control.MayAnswer : Control → Value → Prop
  | .enumerate _ _ _ goal, value => ∃ items, value = goal.deliver items
  | .answer given, value => value = given
  | _, _ => True

/-- A routine is called with as many arguments as it takes. -/
def Control.CallsExactly (program : Program) : Control → Prop
  | .call index arguments => ∀ routine, program.image.routines[index]? = some routine →
      arguments.length = routine.arity
  | _ => True

/-- A frame goes on where an instruction leads: at once or with any answer that it waits for. A call
that it waits for is that of a closure or has as many arguments as are taken. -/
def Effect.IsLed (program : Program) (op : Op) (routine : Routine) (position : Nat)
    (shape : Shape) : Effect → Prop
  | .next frame => frame.IsLed op routine position shape
  | .await frame control =>
      (∀ value, control.MayAnswer value → (frame.push value).IsLed op routine position shape) ∧
        (∀ frame, control ≠ .run frame) ∧
        (control.CallsExactly program ∨ ∃ count, op = .callClosure count)
  | .leave _ => True

/-- An instruction goes on where it leads, or fails because of the values that it is given. -/
def LedOutcome (program : Program) (op : Op) (routine : Routine) (position : Nat)
    (shape : Shape) : Except Fault Effect × World → Prop
  | (.ok effect, _) => effect.IsLed program op routine position shape
  | (.error fault, _) => fault.isFromData

/-- Behind an instruction that only takes operands and leaves its results. -/
theorem Describes.isLed (described : Describes shape locals operands) (isPlain : op.isPlain = true)
    (enough : op.operands ≤ operands.length)
    (count : rest.length + op.operands = operands.length + op.results) :
    Frame.IsLed ⟨routine, position + 1, locals, ⟨rest⟩⟩ op routine position shape := by
  refine ⟨rfl, _, ?_, described.plain⟩
  rw [op.leads_of_isPlain isPlain, List.mem_singleton, ← described.height]
  have same : rest.length = operands.length - op.operands + op.results := by omega
  rw [same]

/-- What is put in the place of operands by an operation on data. -/
theorem Describes.map (described : Describes shape locals operands) {result : Except Fault Value}
    (isPlain : op.isPlain = true) (enough : op.operands ≤ operands.length)
    (count : rest.length + 1 + op.operands = operands.length + op.results)
    (data : ∀ fault, result = .error fault → fault.isFromData) :
    LedOutcome program op routine position shape
      (result.map fun value ↦ .next ⟨routine, position + 1, locals, ⟨value :: rest⟩⟩, world) := by
  cases result with
  | ok value => exact described.isLed isPlain enough count
  | error fault => exact data fault rfl

/-- What a routine waits for leaves its answer on the stack. -/
theorem Describes.await (described : Describes shape locals operands) {control : Control}
    (isPlain : op.isPlain = true) (enough : op.operands ≤ operands.length)
    (count : rest.length + 1 + op.operands = operands.length + op.results)
    (waits : ∀ frame, control ≠ .run frame)
    (calls : control.CallsExactly program ∨ ∃ count, op = .callClosure count) :
    LedOutcome program op routine position shape
      (.ok (.await ⟨routine, position + 1, locals, ⟨rest⟩⟩ control), world) :=
  ⟨fun _ _ ↦ described.isLed isPlain enough count, waits, calls⟩

/-- What a host function replies goes on where its call leads. -/
theorem Describes.receive {action : HostAction} {values : List Value} {name : String}
    {imported : Bytecode.ImportIndex}
    (described : Describes shape locals (values.reverse ++ rest))
    (count : values.length = action.arity) :
    LedOutcome program (.callHost imported values.length) routine position shape
      (receive ⟨routine, position + 1, locals, ⟨rest⟩⟩ name world (action.reply values world)) := by
  have enough : (Op.callHost imported values.length).operands
      ≤ (values.reverse ++ rest).length := by
    simp [Op.operands]
  have left : rest.length + 1 + (Op.callHost imported values.length).operands
      = (values.reverse ++ rest).length + (Op.callHost imported values.length).results := by
    simp [Op.operands, Op.results]
    omega
  cases replied : action.reply values world with
  | value answer after => exact described.isLed rfl enough left
  | refuse error => exact HostAction.reply_refuse_isFromData count replied name
  | fault fault => exact HostAction.reply_fault_isFromData replied
  | enumerate source stages goal =>
      exact described.await rfl enough left (fun _ same ↦ by cases same) (.inl trivial)

/-- An instruction that finds what its shape tells goes on where it leads. -/
theorem execute_led (linked : program.hosts.size = program.image.imports.size)
    (slots : locals.size = routine.locals) (refers : op.Refers program.image routine)
    (supplies : op.Supplies program) (suits : op.Suits shape)
    (described : Describes shape locals operands) :
    LedOutcome program op routine position shape
      (execute program world ⟨routine, position + 1, locals, ⟨operands⟩⟩ op) := by
  have enough : op.operands ≤ operands.length := described.height ▸ suits.operands
  cases op with
  | push constant => exact described.isLed rfl enough rfl
  | load slot =>
      have inside : slot < locals.size := slots.symm ▸ refers
      rw [execute_load program world routine _ locals operands (Array.getElem?_eq_getElem inside)]
      exact described.isLed rfl enough rfl
  | store slot =>
      obtain ⟨value, rest, rfl⟩ := List.exists_cons_of_length_pos enough
      have inside : slot < locals.size := slots.symm ▸ refers
      rw [execute_store program world routine _ locals _ inside]
      refine ⟨rfl, _, List.mem_singleton.mpr rfl, ?_⟩
      have height : shape.height - 1 = rest.length := by
        rw [← described.height, List.length_cons, Nat.add_sub_cancel]
      rw [Op.behind, height]
      split
      · next top =>
          obtain ⟨_, _, same, cursor⟩ := described.onTop top
          obtain ⟨rfl, rfl⟩ := List.cons.inj same
          exact described.assignCursor inside cursor fun _ ↦ List.mem_cons.mp
      · next other => exact described.assign fun held ↦ other (suits.cursors held)
  | loadField field =>
      obtain ⟨target, rest, rfl⟩ := List.exists_cons_of_length_pos enough
      rw [execute_loadField]
      exact described.map rfl enough rfl fun _ ↦ WorldOver.readField_isFromData
  | storeField field =>
      obtain ⟨value, target, rest, rfl⟩ := exists_two_operands enough
      rw [execute_storeField]
      cases written : world.writeField target field value with
      | ok after => exact described.isLed rfl enough rfl
      | error fault => exact WorldOver.writeField_isFromData written
  | pop =>
      obtain ⟨value, rest, rfl⟩ := List.exists_cons_of_length_pos enough
      exact described.isLed rfl enough rfl
  | unary operator =>
      obtain ⟨operand, rest, rfl⟩ := List.exists_cons_of_length_pos enough
      rw [execute_unary]
      exact described.map rfl enough rfl fun _ ↦ applyUnary_isFromData
  | binary operator =>
      obtain ⟨right, left, rest, rfl⟩ := exists_two_operands enough
      rw [execute_binary]
      exact described.map rfl enough rfl fun _ ↦ applyBinary_isFromData
  | index =>
      obtain ⟨position', array, rest, rfl⟩ := exists_two_operands enough
      rw [execute_index]
      exact described.map rfl enough rfl fun _ ↦ itemOf_isFromData
  | makeArray count =>
      obtain ⟨values, rest, rfl, rfl⟩ := exists_operands enough
      rw [execute_makeArray]
      exact described.isLed rfl enough (by simp [Op.operands, Op.results]; omega)
  | makeClosure index count =>
      obtain ⟨values, rest, rfl, rfl⟩ := exists_operands enough
      rw [execute_makeClosure]
      exact described.isLed rfl enough (by simp [Op.operands, Op.results]; omega)
  | construct type =>
      exact described.await rfl enough rfl (fun _ same ↦ by cases same) (.inl trivial)
  | call index count =>
      obtain ⟨values, rest, rfl, rfl⟩ := exists_operands enough
      rw [execute_call]
      exact described.await rfl enough (by simp [Op.operands, Op.results]; omega)
        (fun _ same ↦ by cases same) (.inl supplies)
  | callClosure count =>
      obtain ⟨values, below, rfl, rfl⟩ := exists_operands (Nat.le_of_succ_le enough)
      have some : 0 < below.length := by
        simp only [Op.operands, List.length_append, List.length_reverse] at enough
        omega
      obtain ⟨callee, rest, rfl⟩ := List.exists_cons_of_length_pos some
      rw [execute_callClosure]
      cases callee.toClosure with
      | error mismatch => rfl
      | ok closure =>
          exact described.await rfl enough (by simp [Op.operands, Op.results]; omega)
            (fun _ same ↦ by cases same) (.inr ⟨_, rfl⟩)
  | callHost imported count =>
      obtain ⟨values, rest, rfl, rfl⟩ := exists_operands enough
      have inside : imported < program.hosts.size := linked.symm ▸ refers
      have found := Array.getElem?_eq_getElem inside
      rw [execute_callHost program world routine _ locals rest found]
      exact described.receive (supplies _ found)
  | iterStart =>
      obtain ⟨value, rest, rfl⟩ := List.exists_cons_of_length_pos enough
      have height : shape.height = rest.length + 1 := described.height.symm
      have behind (cursor : Value) (isCursor : IsCursor cursor) :
          Frame.IsLed ⟨routine, position + 1, locals, ⟨cursor :: rest⟩⟩ .iterStart routine position
            shape :=
        ⟨rfl, _, List.mem_singleton.mpr rfl,
          ⟨height.symm, described.cursors, fun _ ↦ ⟨cursor, rest, rfl, isCursor⟩⟩⟩
      cases value with
      | array items => exact behind _ ⟨items, 0, rfl⟩
      | seq identity source stages =>
          rw [execute_iterStart_seq]
          refine ⟨?_, (fun _ same ↦ by cases same), .inl trivial⟩
          rintro _ ⟨items, rfl⟩
          exact behind _ ⟨items, 0, rfl⟩
      | _ => rfl
  | iterNext slot exit =>
      obtain ⟨_, held, items, next, rfl⟩ := described.cursors slot suits.cursors
      have inside : slot < locals.size := (Array.getElem?_eq_some_iff.mp held).1
      rw [execute_iterNext program world routine _ locals operands held]
      split
      · next item _ =>
          refine ⟨rfl, .plain (item :: operands).length shape.cursors, ?_, ?_⟩
          · rw [List.length_cons, described.height]
            exact List.mem_cons_self
          · exact described.assignCursor inside ⟨items, next + 1, rfl⟩ fun _ ↦ .inr
      · refine ⟨rfl, _, List.mem_cons_of_mem _ List.mem_cons_self, ?_⟩
        rw [← described.height]
        exact described.plain
  | jump target =>
      refine ⟨rfl, _, List.mem_singleton.mpr rfl, ?_⟩
      rw [← described.height]
      exact described.plain
  | jumpUnless target =>
      obtain ⟨test, rest, rfl⟩ := List.exists_cons_of_length_pos enough
      rw [execute_jumpUnless]
      have height : shape.height - 1 = rest.length := by
        rw [← described.height, List.length_cons, Nat.add_sub_cancel]
      cases test.toBool with
      | error mismatch => rfl
      | ok holds =>
          refine ⟨rfl, .plain (shape.height - 1) shape.cursors, ?_, height ▸ described.plain⟩
          cases holds with
          | true => exact List.mem_cons_self
          | false => exact List.mem_cons_of_mem _ List.mem_cons_self
  | ret =>
      obtain ⟨value, rest, rfl⟩ := List.exists_cons_of_length_pos enough
      exact trivial

end Instructions

/-! ## Steps -/

variable {program : Program} {waiting : List Waiting} {world : World}

/-- A path through the routine of a frame comes to where the frame is with as many operands, and
what the shape there tells is so. -/
def Frame.Fits (program : Program) (frame : Frame) : Prop :=
  ∃ shapes, frame.routine.Shaped (Op.Supplies program) shapes ∧
    frame.routine.Path frame.position frame.stack.size ∧
    Describes (shapes frame.position) frame.locals frame.stack.items

/-- Something that waits may be given each of some answers. -/
def Waiting.Takes (program : Program) (answers : Value → Prop) : Waiting → Prop
  | .routine frame => ∀ value, answers value → (frame.push value).Fits program
  | _ => True

/-- What can be the answer of something that waits, once it has been given one. -/
def Waiting.MayAnswer : Waiting → Value → Prop
  | .element _ _ _ _ _ goal, value => ∃ items, value = goal.deliver items
  | _, _ => True

/-- What waits may be given each of some answers, and what waits for the answer of that may be given
its answer. -/
def Awaits (program : Program) : (Value → Prop) → List Waiting → Prop
  | _, [] => True
  | answers, first :: rest => first.Takes program answers ∧ Awaits program first.MayAnswer rest

/-- What waits may be given each of fewer answers. -/
theorem Awaits.mono {answers fewer : Value → Prop} (awaits : Awaits program answers waiting)
    (subset : ∀ value, fewer value → answers value) : Awaits program fewer waiting := by
  match waiting with
  | [] => exact trivial
  | .routine _ :: _ =>
      exact awaits.imp_left fun takes value given ↦ takes value (subset value given)
  | .object _ :: _ => exact awaits
  | .element .. :: _ => exact awaits

/-- What the machine is doing keeps to the shapes. -/
def Control.Fits (program : Program) : Control → Prop
  | .run frame => frame.Fits program
  | _ => True

/-- All that a state holds keeps to the shapes. -/
structure State.Fits (program : Program) (state : State) : Prop where
  control : state.control.Fits program
  waiting : Awaits program state.control.MayAnswer state.waiting

/-- The next step of the machine calls a closure: that of an instruction or of a stage. -/
inductive State.CallsClosure : State → Prop where
  | op {frame : Frame} {count : Nat} {waiting : List Waiting} {world : World} :
      frame.routine.code[frame.position]? = some (.callClosure count) →
      CallsClosure ⟨.run frame, waiting, world⟩
  | stage {first : Value} {pending done : List Value} {stage : Stage} {later : List Stage}
      {goal : Goal} {waiting : List Waiting} {world : World} :
      CallsClosure ⟨.enumerate (first :: pending) done (stage :: later) goal, waiting, world⟩

/-- A step keeps to the shapes, and calls with as many arguments as are taken if it does not call a
closure. A fault comes from data, or from a call with another number of arguments. -/
def Step.Fits (program : Program) (state : State) : Step → Prop
  | .running next =>
      next.Fits program ∧ (next.control.CallsExactly program ∨ state.CallsClosure)
  | .ended ⟨.ok _, _⟩ => True
  | .ended ⟨.error fault, _⟩ => fault.isFromData ∨
      (∃ name expected given, fault = .arity name expected given) ∧
        ¬ state.control.CallsExactly program

/-- A frame fits where an instruction leads. -/
theorem Frame.IsLed.fits {frame : Frame} {routine : Routine} {position : Nat} {op : Op}
    {shapes : Nat → Shape} (shaped : routine.Shaped (Op.Supplies program) shapes)
    (path : routine.Path position (shapes position).height)
    (found : routine.code[position]? = some op)
    (led : frame.IsLed op routine position (shapes position)) : frame.Fits program := by
  obtain ⟨rfl, after, target, described⟩ := led
  obtain ⟨-, suits, leads⟩ := shaped.2 found
  refine ⟨shapes, shaped, ?_, described.provided (leads _ after target).2⟩
  rw [OperandStack.size, described.height]
  exact path.step found (op.next_of_leads suits.operands target)

theorem runFrame_fits {frame : Frame} (linked : program.hosts.size = program.image.imports.size)
    (verified : program.image.Verified) (grounded : frame.Grounded program)
    (fits : frame.Fits program) (awaits : Awaits program (fun _ ↦ True) waiting) :
    (runFrame program frame waiting world).Fits program ⟨.run frame, waiting, world⟩ := by
  obtain ⟨routine, position, locals, ⟨operands⟩⟩ := frame
  obtain ⟨shapes, shaped, path, described⟩ := fits
  have path : routine.Path position (shapes position).height := described.height ▸ path
  simp only [runFrame]
  split
  · exact ⟨⟨trivial, awaits.mono fun _ _ ↦ trivial⟩, .inl trivial⟩
  · next op found =>
      obtain ⟨supplies, suits, -⟩ := shaped.2 found
      have refers := verified.code routine grounded.routine op (Array.mem_of_getElem? found)
      have led : LedOutcome program op routine position (shapes position)
          (execute program world ⟨routine, position + 1, locals, ⟨operands⟩⟩ op) :=
        execute_led linked grounded.slots refers supplies suits described
      simp only [Frame.goTo]
      generalize execute program world ⟨routine, position + 1, locals, ⟨operands⟩⟩ op = outcome
        at led
      rcases outcome with ⟨fault | ⟨next⟩ | ⟨held, control⟩ | value, after⟩
      · exact .inl led
      · exact ⟨⟨led.fits shaped path found, awaits⟩, .inl trivial⟩
      · obtain ⟨answered, waits, calls⟩ := led
        have fits : control.Fits program := by
          cases control with
          | run frame => exact absurd rfl (waits frame)
          | _ => exact trivial
        refine ⟨⟨fits, fun value given ↦ (answered value given).fits shaped path found, awaits⟩,
          calls.imp_right ?_⟩
        rintro ⟨count, rfl⟩
        exact .op found
      · exact ⟨⟨trivial, awaits.mono fun _ _ ↦ trivial⟩, .inl trivial⟩

/-- A routine starts without operands. -/
theorem Frame.enter_fits {routine : Routine} {arguments : List Value} (shaped : program.Shaped)
    (inside : routine ∈ program.image.routines) : (Frame.enter routine arguments).Fits program := by
  obtain ⟨shapes, shaped⟩ := shaped.routine routine inside
  refine ⟨shapes, shaped, .start, ?_⟩
  have first : shapes (Frame.enter routine arguments).position = .plain 0 [] := shaped.1
  rw [first]
  exact ⟨rfl, nofun, nofun⟩

theorem startCall_fits {index : RoutineIndex} {arguments : List Value} (shaped : program.Shaped)
    (inside : program.HasRoutine index) (awaits : Awaits program (fun _ ↦ True) waiting) :
    (startCall program index arguments waiting world).Fits program
      ⟨.call index arguments, waiting, world⟩ := by
  have found := Array.getElem?_eq_getElem inside
  simp only [startCall, found]
  split
  · next other => exact .inr ⟨⟨_, _, _, rfl⟩, fun exactly ↦ other (exactly _ found)⟩
  · split
    · exact .inl rfl
    · exact ⟨⟨Frame.enter_fits shaped (Array.getElem_mem inside), awaits⟩, .inl trivial⟩

theorem startConstruction_fits {type : TypeIndex} (shaped : program.Shaped)
    (inside : type < program.image.types.size) (awaits : Awaits program (fun _ ↦ True) waiting) :
    (startConstruction program type waiting world).Fits program
      ⟨.construct type, waiting, world⟩ := by
  simp only [startConstruction, Array.getElem?_eq_getElem inside]
  split
  · exact ⟨⟨trivial, awaits.mono fun _ _ ↦ trivial⟩, .inl trivial⟩
  · next initializer known =>
      have exactly := shaped.initializer _ (Array.getElem_mem inside) initializer known
      exact ⟨⟨trivial, trivial, awaits⟩, .inl fun routine found ↦ (exactly routine found).symm⟩

theorem enumerate_fits {pending done : List Value} {stages : List Stage} {goal : Goal}
    (awaits : Awaits program (Control.enumerate pending done stages goal).MayAnswer waiting) :
    (enumerate pending done stages goal waiting world).Fits program
      ⟨.enumerate pending done stages goal, waiting, world⟩ := by
  match stages, pending with
  | [], pending =>
      refine ⟨⟨trivial, awaits.mono ?_⟩, .inl trivial⟩
      rintro _ rfl
      exact ⟨pending, rfl⟩
  | _ :: later, [] => exact ⟨⟨trivial, awaits⟩, .inl trivial⟩
  | stage :: later, first :: pending => exact ⟨⟨trivial, trivial, awaits⟩, .inr .stage⟩

theorem deliver_fits {value : Value}
    (awaits : Awaits program (Control.answer value).MayAnswer waiting) :
    (deliver value waiting world).Fits program ⟨.answer value, waiting, world⟩ := by
  match waiting with
  | [] => exact trivial
  | .routine frame :: _ => exact ⟨⟨awaits.1 value rfl, awaits.2⟩, .inl trivial⟩
  | .object object :: _ => exact ⟨⟨trivial, awaits.2.mono fun _ _ ↦ trivial⟩, .inl trivial⟩
  | .element stage current pending done later goal :: _ =>
      cases stage with
      | map mapper => exact ⟨⟨trivial, awaits.2⟩, .inl trivial⟩
      | filter predicate =>
          simp only [deliver]
          cases value.toBool with
          | error mismatch => exact .inl rfl
          | ok keep => cases keep <;> exact ⟨⟨trivial, awaits.2⟩, .inl trivial⟩

/-- A step of a program with shaped routines keeps to the shapes. -/
theorem step_fits (shaped : program.Shaped) (verified : program.image.Verified)
    (linked : program.hosts.size = program.image.imports.size) {state : State}
    (grounded : state.Grounded program) (fits : state.Fits program) :
    (step program state).Fits program state := by
  obtain ⟨control, awaits⟩ := fits
  match state with
  | ⟨.run frame, waiting, world⟩ =>
      exact runFrame_fits linked verified grounded.control control awaits
  | ⟨.call index arguments, waiting, world⟩ =>
      exact startCall_fits shaped grounded.control.1 awaits
  | ⟨.construct type, waiting, world⟩ => exact startConstruction_fits shaped grounded.control awaits
  | ⟨.enumerate pending done stages goal, waiting, world⟩ => exact enumerate_fits awaits
  | ⟨.answer value, waiting, world⟩ => exact deliver_fits awaits

/-! ## Runs -/

/-- A program whose routines are shaped runs from a state that keeps to the shapes. -/
structure Steady (program : Program) (state : State) : Prop where
  grounded : state.Grounded program
  fits : state.Fits program

section Runs

variable {state last : State} {fault : Fault} (shaped : program.Shaped)
  (verified : program.image.Verified) (linked : program.hosts.size = program.image.imports.size)

include shaped verified linked

theorem Steady.step {next : State} (steady : Steady program state)
    (taken : step program state = .running next) :
    Steady program next ∧ (next.control.CallsExactly program ∨ state.CallsClosure) := by
  have grounded := step_grounded verified linked steady.grounded
  have fits := step_fits shaped verified linked steady.grounded steady.fits
  rw [taken] at grounded fits
  exact ⟨⟨grounded, fits.1⟩, fits.2⟩

/-- Every state that is reached keeps to the shapes. -/
theorem Reaches.steady (reached : Reaches program state last) (steady : Steady program state) :
    Steady program last :=
  reached.preserves (fun taken before ↦ (before.step shaped verified linked taken).1) steady

/-- A run comes to the call of a closure, which then ends it. -/
def EndsCallingClosure (program : Program) (state : State) (ending : Ending) : Prop :=
  ∃ before last, Reaches program state before ∧ before.CallsClosure ∧
    Machine.step program before = .running last ∧ Machine.step program last = .ended ending

/-- A run that ends with a fault does so because of the values that the program works on, or because
a closure is called with another number of arguments than it takes. -/
theorem Steady.fault_cases (steady : Steady program state)
    (exactly : state.control.CallsExactly program)
    (ended : Ends program state ⟨.error fault, world⟩) :
    fault.isFromData ∨ (∃ name expected given, fault = .arity name expected given) ∧
      EndsCallingClosure program state ⟨.error fault, world⟩ := by
  obtain ⟨fuel, ran⟩ := ended
  obtain ⟨count, last, -, taken, ended⟩ := run_eq_some_iff.mp ran
  have before := Reaches.steady shaped verified linked ⟨count, taken⟩ steady
  have fits := step_fits shaped verified linked before.grounded before.fits
  rw [ended] at fits
  refine fits.imp_right fun ⟨arity, wrong⟩ ↦ ⟨arity, ?_⟩
  -- the step before the last one made the call, since the run did not start with it
  cases count with
  | zero =>
      cases taken
      exact absurd exactly wrong
  | succ count =>
      obtain ⟨middle, first, one⟩ := taken.split
      cases one with
      | succ called rest =>
          cases rest
          have steady' := Reaches.steady shaped verified linked ⟨count, first⟩ steady
          have calls := (steady'.step shaped verified linked called).2
          exact ⟨middle, last, ⟨count, first⟩, calls.resolve_left wrong, called, ended⟩

end Runs

end Machine

end GuestScript
