import GuestScript.Proofs.Machine.Objects

/-!
# Well-formed values

What every value keeps to that a program can get at. A sequence has no more stages than it may have,
a closure holds as many values as its routine says that it captures, an object is of a type of the
image and has its fields, and there is no cursor, at any depth. The cursors of loops are in slots of
their own, which `Routine.IsLoopSlot` tells from the slots of variables, and for one instruction on
top of the operands. A program whose routines are `Tidy` never gets at these slots, so every state
that it reaches is well formed.
-/

namespace GuestScript

namespace Bytecode

/-- A slot is used by a loop for its cursor. -/
def Routine.IsLoopSlot (routine : Routine) (slot : Nat) : Prop :=
  ∃ exit, .iterNext slot exit ∈ routine.code

end Bytecode

namespace Machine

open Bytecode (Op Routine RoutineIndex TypeIndex)

/-! ## Values -/

/-- A value and all values in it are well formed. A cursor is not, nor is what holds one. -/
inductive ValueOver.IsWellFormed (program : Program) (world : World) : Value → Prop where
  | unit : IsWellFormed program world .unit
  | int {value : Int64} : IsWellFormed program world (.int value)
  | bool {value : Bool} : IsWellFormed program world (.bool value)
  | str {value : String} : IsWellFormed program world (.str value)
  | array {items : List Value} :
      (∀ item ∈ items, IsWellFormed program world item) →
      IsWellFormed program world (.array items)
  | seq {identity : Nat} {source : List Value} {stages : List Stage} :
      stages.length ≤ maxStages → (∀ item ∈ source, IsWellFormed program world item) →
      (∀ stage ∈ stages, IsWellFormed program world (.closure stage.closure)) →
      IsWellFormed program world (.seq identity source stages)
  | closure {identity : Nat} {index : RoutineIndex} {captures : List Value} {routine : Routine} :
      program.image.routines[index]? = some routine →
      routine.binding = .closure captures.length →
      (∀ captured ∈ captures, IsWellFormed program world captured) →
      IsWellFormed program world (.closure (.mk identity index captures))
  | object {reference : Reference} {definition : Bytecode.TypeDefinition} :
      Keeps program world reference definition →
      IsWellFormed program world (.object reference)

/-- A value is the cursor of a loop over well-formed items. -/
def IsLoopCursor (program : Program) (world : World) (value : Value) : Prop :=
  ∃ items position, value = .cursor items position ∧
    ∀ item ∈ items, item.IsWellFormed program world

variable {program : Program} {world after : World} {value : Value}

namespace ValueOver.IsWellFormed

/-- Objects never lose their type or a field, so values stay well formed. -/
theorem mono (wellFormed : value.IsWellFormed program world) (lasts : world.LastsTo after) :
    value.IsWellFormed program after := by
  induction wellFormed with
  | unit => exact .unit
  | int => exact .int
  | bool => exact .bool
  | str => exact .str
  | array _ items => exact .array items
  | seq few _ _ source stages => exact .seq few source stages
  | closure found binding _ captures => exact .closure found binding captures
  | object keeps => exact .object (keeps.mono lasts)

theorem ofConstant (constant : Bytecode.Constant) :
    (ValueOver.ofConstant constant).IsWellFormed program world := by
  cases constant
  · exact .unit
  · exact .int
  · exact .bool
  · exact .str

theorem items {items : List Value} (wellFormed : (Value.array items).IsWellFormed program world) :
    ∀ item ∈ items, item.IsWellFormed program world := by
  cases wellFormed with
  | array items => exact items

theorem captures {closure : Closure}
    (wellFormed : (Value.closure closure).IsWellFormed program world) :
    ∀ captured ∈ closure.captures, captured.IsWellFormed program world := by
  cases wellFormed with
  | closure _ _ captures => exact captures

end ValueOver.IsWellFormed

theorem IsLoopCursor.mono (cursor : IsLoopCursor program world value)
    (lasts : world.LastsTo after) : IsLoopCursor program after value := by
  obtain ⟨items, position, rfl, each⟩ := cursor
  exact ⟨items, position, rfl, fun item inside ↦ (each item inside).mono lasts⟩

/-! ## States -/

/-- All values in the fields of objects are well formed. -/
def WorldOver.IsWellFormed (program : Program) (world : World) : Prop :=
  ∀ fields ∈ world.objects, ∀ value ∈ fields, value.IsWellFormed program world

/-- The next instruction of a frame puts the newest operand into the slot of a loop. -/
def Frame.StoresCursor (frame : Frame) : Prop :=
  ∃ slot, frame.routine.code[frame.position]? = some (.store slot) ∧
    frame.routine.IsLoopSlot slot

/-- The operands of a frame are well formed, and so is what its slots hold, apart from the slots of
loops. -/
structure Frame.Holds (program : Program) (world : World) (frame : Frame) : Prop where
  routine : frame.routine ∈ program.image.routines
  locals : ∀ {slot : Nat} {value : Value}, frame.locals[slot]? = some value →
    value.IsWellFormed program world ∨
      frame.routine.IsLoopSlot slot ∧ IsLoopCursor program world value
  operands : ∀ value ∈ frame.stack.items, value.IsWellFormed program world

/-- A running frame has well-formed operands, apart from a cursor that is about to be put into the
slot of its loop. -/
inductive Frame.IsWellFormed (program : Program) (world : World) : Frame → Prop where
  | plain {frame : Frame} : frame.Holds program world → IsWellFormed program world frame
  | loop {frame : Frame} {cursor : Value} : frame.Holds program world →
      IsLoopCursor program world cursor → frame.StoresCursor →
      IsWellFormed program world (frame.push cursor)

/-- A cursor is only made for a frame that puts it into the slot of a loop. -/
def Goal.Fits (goal : Goal) (waiting : List Waiting) : Prop :=
  goal = .cursor → ∃ frame, waiting.head? = some (.routine frame) ∧ frame.StoresCursor

/-- The elements of a sequence that is being enumerated and its stages are well formed. -/
structure Elements (program : Program) (world : World) (pending done : List Value)
    (stages : List Stage) : Prop where
  pending : ∀ value ∈ pending, value.IsWellFormed program world
  done : ∀ value ∈ done, value.IsWellFormed program world
  stages : ∀ stage ∈ stages, (Value.closure stage.closure).IsWellFormed program world

/-- All values in what waits for an answer are well formed. -/
def AllWellFormed (program : Program) (world : World) : List Waiting → Prop
  | [] => True
  | .routine frame :: rest => frame.Holds program world ∧ AllWellFormed program world rest
  | .object value :: rest =>
      value.IsWellFormed program world ∧ AllWellFormed program world rest
  | .element stage element pending done later goal :: rest =>
      Elements program world (element :: pending) done (stage :: later) ∧ goal.Fits rest ∧
        AllWellFormed program world rest

/-- All values in what the machine is doing are well formed. An answer can be the cursor of a loop
that waits for it. -/
def Control.IsWellFormed (program : Program) (world : World) (waiting : List Waiting) :
    Control → Prop
  | .run frame => frame.IsWellFormed program world
  | .call _ arguments => ∀ argument ∈ arguments, argument.IsWellFormed program world
  | .construct _ => True
  | .enumerate pending done stages goal =>
      Elements program world pending done stages ∧ goal.Fits waiting
  | .answer value => value.IsWellFormed program world ∨
      IsLoopCursor program world value ∧ Goal.cursor.Fits waiting

/-- All values in a state are well formed. -/
structure State.IsWellFormed (program : Program) (state : State) : Prop where
  control : state.control.IsWellFormed program state.world state.waiting
  waiting : AllWellFormed program state.world state.waiting
  world : state.world.IsWellFormed program

/-- All values in what a step leads to are well formed. -/
def Step.IsWellFormed (program : Program) : Step → Prop
  | .running state => state.IsWellFormed program
  | .ended ⟨.ok value, world⟩ =>
      value.IsWellFormed program world ∧ world.IsWellFormed program
  | .ended ⟨.error _, _⟩ => True

/-- All values in what an instruction leads to are well formed. -/
def WellFormedOutcome (program : Program) : Except Fault Effect × World → Prop
  | (.ok (.next frame), after) =>
      frame.IsWellFormed program after ∧ after.IsWellFormed program
  | (.ok (.await frame control), after) =>
      frame.Holds program after ∧ after.IsWellFormed program ∧
        ∀ rest, control.IsWellFormed program after (.routine frame :: rest)
  | (.ok (.leave value), after) =>
      value.IsWellFormed program after ∧ after.IsWellFormed program
  | (.error _, _) => True

theorem Elements.mono {pending done : List Value} {stages : List Stage}
    (elements : Elements program world pending done stages) (lasts : world.LastsTo after) :
    Elements program after pending done stages :=
  ⟨fun value inside ↦ (elements.pending value inside).mono lasts,
    fun value inside ↦ (elements.done value inside).mono lasts,
    fun stage inside ↦ (elements.stages stage inside).mono lasts⟩

theorem Frame.Holds.mono {frame : Frame} (holds : frame.Holds program world)
    (lasts : world.LastsTo after) : frame.Holds program after where
  routine := holds.routine
  locals found := (holds.locals found).imp (·.mono lasts) (And.imp_right (·.mono lasts))
  operands value inside := (holds.operands value inside).mono lasts

theorem AllWellFormed.mono {waiting : List Waiting}
    (wellFormed : AllWellFormed program world waiting) (lasts : world.LastsTo after) :
    AllWellFormed program after waiting := by
  match waiting with
  | [] => exact trivial
  | .routine _ :: _ => exact ⟨wellFormed.1.mono lasts, AllWellFormed.mono wellFormed.2 lasts⟩
  | .object _ :: _ => exact ⟨wellFormed.1.mono lasts, AllWellFormed.mono wellFormed.2 lasts⟩
  | .element .. :: _ =>
      exact ⟨wellFormed.1.mono lasts, wellFormed.2.1, AllWellFormed.mono wellFormed.2.2 lasts⟩

/-! ## Operations on values -/

/-- The result of an operator that converts an operand first is that of what follows. -/
theorem of_orMismatch_bind {Target Result : Type} {converted : Except Mismatch Target}
    {next : Target → Except Fault Result} {result : Result} {holds : Result → Prop}
    (rest : ∀ target, next target = .ok result → holds result)
    (made : (orMismatch converted >>= next) = .ok result) : holds result := by
  cases converted with
  | ok target => exact rest target made
  | error mismatch => exact absurd made nofun

section Operators

variable {result left right operand : Value}

theorem isWellFormed_of_exact {symbol : String} {number : Int}
    (made : exact symbol number = .ok result) : result.IsWellFormed program world := by
  rw [exact] at made
  split at made
  · cases made
    exact .int
  · cases made

theorem isWellFormed_of_applyUnary {operator : UnaryOperator}
    (made : applyUnary operator operand = .ok result) : result.IsWellFormed program world := by
  cases operator with
  | not =>
      refine of_orMismatch_bind (fun _ made ↦ ?_) made
      cases made
      exact .bool
  | negate => exact of_orMismatch_bind (fun _ ↦ isWellFormed_of_exact) made

theorem isWellFormed_of_applyInts {operation : Int → Int → Except Fault Value}
    (each : ∀ first second, operation first second = .ok result →
      result.IsWellFormed program world)
    (made : applyInts operation left right = .ok result) : result.IsWellFormed program world :=
  of_orMismatch_bind (fun _ ↦ of_orMismatch_bind fun _ ↦ each _ _) made

theorem isWellFormed_of_applyOrder {wanted : Ordering → Bool}
    (made : applyOrder wanted left right = .ok result) : result.IsWellFormed program world := by
  rw [applyOrder] at made
  cases compared : compareValues left right with
  | error fault =>
      rw [compared] at made
      cases made
  | ok order =>
      rw [compared] at made
      cases made
      exact .bool

theorem isWellFormed_of_divideBy {symbol : String} {operation : Int → Int → Int}
    {first second : Int} (made : divideBy symbol operation first second = .ok result) :
    result.IsWellFormed program world := by
  rw [divideBy] at made
  split at made
  · cases made
  · exact isWellFormed_of_exact made

theorem isWellFormed_of_remainderBy {symbol : String} {first second : Int}
    (made : remainderBy symbol first second = .ok result) :
    result.IsWellFormed program world := by
  rw [remainderBy] at made
  split at made
  · cases made
  · split at made
    · cases made
    · exact isWellFormed_of_exact made

/-- Operators make plain data. -/
theorem isWellFormed_of_applyBinary {operator : BinaryOperator}
    (made : applyBinary operator left right = .ok result) :
    result.IsWellFormed program world := by
  have bool {value : Bool} (made : (pure (.bool value) : Except Fault Value) = .ok result) :
      result.IsWellFormed program world := by
    cases made
    exact .bool
  have ints {combine : Int → Int → Int}
      (made : applyInts (fun first second ↦ exact operator.symbol (combine first second))
        left right = .ok result) : result.IsWellFormed program world :=
    isWellFormed_of_applyInts (fun _ _ ↦ isWellFormed_of_exact) made
  cases operator with
  | equal | unequal => exact bool made
  | and =>
      refine of_orMismatch_bind (fun first made ↦ ?_) made
      cases first with
      | false => exact bool made
      | true => exact of_orMismatch_bind (fun _ ↦ bool) made
  | or =>
      refine of_orMismatch_bind (fun first made ↦ ?_) made
      cases first with
      | false => exact of_orMismatch_bind (fun _ ↦ bool) made
      | true => exact bool made
  | less | atMost | greater | atLeast => exact isWellFormed_of_applyOrder made
  | add =>
      cases left with
      | str first =>
          refine of_orMismatch_bind (fun second made ↦ ?_) made
          cases made
          exact .str
      | _ => exact ints made
  | subtract | multiply => exact ints made
  | divide =>
      have made : applyInts (divideBy _ Int.tdiv) left right = .ok result := made
      exact isWellFormed_of_applyInts (fun _ _ ↦ isWellFormed_of_divideBy) made
  | remainder =>
      have made : applyInts (remainderBy _) left right = .ok result := made
      exact isWellFormed_of_applyInts (fun _ _ ↦ isWellFormed_of_remainderBy) made

theorem isWellFormed_of_itemOf {array index : Value}
    (wellFormed : array.IsWellFormed program world) (made : itemOf array index = .ok result) :
    result.IsWellFormed program world := by
  refine of_orMismatch_bind (fun position made ↦ ?_) made
  cases array with
  | array items =>
      simp only [ValueOver.toItems, orMismatch, bind, Except.bind] at made
      split at made
      · next item found =>
          cases made
          rw [itemAt?] at found
          split at found
          · exact wellFormed.items _ (List.mem_of_getElem? found)
          · cases found
      · cases made
  | _ => cases made

end Operators

theorem isWellFormed_of_readField {target : Value} {field : Nat}
    (wellFormed : world.IsWellFormed program) (made : world.readField target field = .ok value) :
    value.IsWellFormed program world := by
  refine of_orMismatch_bind (fun reference made ↦ ?_) made
  split at made
  · next item found =>
      cases made
      rw [WorldOver.fields] at found
      cases object : world.objects[reference.address]? with
      | none =>
          rw [object] at found
          cases found
      | some fields =>
          rw [object] at found
          exact wellFormed fields (Array.mem_of_getElem? object) _ (List.mem_of_getElem? found)
  · cases made

namespace WorldOver.IsWellFormed

variable (wellFormed : world.IsWellFormed program)

include wellFormed

theorem of_objects (same : after.objects = world.objects) : after.IsWellFormed program := by
  intro fields inside value held
  rw [same] at inside
  exact (wellFormed fields inside value held).mono (.of_objects same)

/-- An assignment puts a well-formed value among well-formed ones. -/
theorem setField {reference : Reference} {field : Nat}
    (given : value.IsWellFormed program world) :
    (world.setField reference field value).IsWellFormed program := by
  intro fields inside held member
  obtain ⟨address, bound, rfl⟩ := Array.mem_iff_getElem.mp inside
  have lasts : LastsTo world (world.setField reference field value) :=
    .setField reference field value
  rw [WorldOver.setField, Array.size_modify] at bound
  have old {held : Value} (member : held ∈ world.objects[address]) :
      held.IsWellFormed program (world.setField reference field value) :=
    (wellFormed _ (Array.getElem_mem bound) held member).mono lasts
  simp only [WorldOver.setField, Array.getElem_modify] at member
  split at member
  · rcases List.mem_or_eq_of_mem_set member with member | rfl
    · exact old member
    · exact given.mono lasts
  · exact old member

theorem writeField {target : Value} {field : Nat} (given : value.IsWellFormed program world)
    (written : world.writeField target field value = .ok after) : after.IsWellFormed program := by
  have made : ∀ reference : Reference,
      (if field < (world.fields reference).length then
        (pure (world.setField reference field value) : Except Fault World)
      else .error (.missingField reference.typeName field)) = .ok after →
      after.IsWellFormed program := by
    intro reference written
    split at written
    · cases written
      exact wellFormed.setField given
    · cases written
  exact of_orMismatch_bind made written

/-- A new object has unit in its fields. -/
theorem allocate (type : TypeIndex) (typeName : String) (names : List String) :
    (world.allocate type typeName (names.map fun _ ↦ .unit)).2.IsWellFormed program := by
  intro fields inside value held
  rcases Array.mem_push.mp inside with inside | rfl
  · exact (wellFormed fields inside value held).mono (.allocate type typeName _)
  · obtain ⟨_, -, rfl⟩ := List.mem_map.mp held
    exact .unit

end WorldOver.IsWellFormed

/-! ## Host functions -/

/-- The elements and the stages of a sequence are well formed, and not too many. -/
theorem ValueOver.IsWellFormed.toSeq {source : List Value} {stages : List Stage}
    (wellFormed : value.IsWellFormed program world) (made : value.toSeq = .ok (source, stages)) :
    Elements program world source [] stages ∧ stages.length ≤ maxStages := by
  cases wellFormed with
  | array items =>
      cases made
      exact ⟨⟨items, nofun, nofun⟩, Nat.zero_le _⟩
  | seq few source stages =>
      cases made
      exact ⟨⟨source, nofun, stages⟩, few⟩
  | _ => cases made

theorem ValueOver.IsWellFormed.toClosure {closure : Closure}
    (wellFormed : value.IsWellFormed program world) (made : value.toClosure = .ok closure) :
    (Value.closure closure).IsWellFormed program world := by
  cases wellFormed with
  | closure found binding captures =>
      cases made
      exact .closure found binding captures
  | _ => cases made

/-- What a host function answers or asks for is well formed. None asks for a cursor. -/
def ReplyOver.IsWellFormed (program : Program) (world : World) : Reply → Prop
  | .value answer after =>
      after.objects = world.objects ∧ answer.IsWellFormed program world
  | .enumerate source stages goal => Elements program world source [] stages ∧ goal ≠ .cursor
  | .refuse _ | .fault _ => True

theorem ReplyOver.isWellFormed_withArgument {Target : Type} {index : Nat}
    {converted : Except Mismatch Target} {reply : Target → Reply}
    (each : ∀ target, converted = .ok target → (reply target).IsWellFormed program world) :
    (withArgument index converted reply).IsWellFormed program world := by
  cases converted with
  | ok target => exact each target rfl
  | error => trivial

theorem ReplyOver.isWellFormed_written (result : Except String Console) :
    (written world result : Reply).IsWellFormed program world := by
  cases result with
  | ok => exact ⟨rfl, .unit⟩
  | error => trivial

/-- A sequence only gets one more stage if it may have one. -/
theorem HostAction.isWellFormed_extend {sequence closure : Value} {stage : Closure → Stage}
    (same : ∀ closure, (stage closure).closure = closure)
    (sequence' : sequence.IsWellFormed program world)
    (closure' : closure.IsWellFormed program world) :
    (HostAction.extend world sequence closure stage).IsWellFormed program world := by
  refine ReplyOver.isWellFormed_withArgument fun (source, stages) made ↦
    ReplyOver.isWellFormed_withArgument fun mapper made' ↦ ?_
  obtain ⟨elements, -⟩ := sequence'.toSeq made
  have last := closure'.toClosure made'
  rw [ReplyOver.extend, appendStage?]
  split
  · next longer found =>
      split at found
      · next few =>
          cases found
          refine ⟨rfl, .seq ?_ elements.pending (List.forall_mem_append.mpr ⟨elements.stages, ?_⟩)⟩
          · rw [List.length_append]
            exact few
          · exact List.forall_mem_singleton.mpr ((same mapper).symm ▸ last)
      · cases found
  · trivial

/-- What a host function makes of well-formed arguments is well formed. -/
theorem HostAction.isWellFormed_reply (action : HostAction) {arguments : List Value}
    (each : ∀ argument ∈ arguments, argument.IsWellFormed program world) :
    (action.reply arguments world).IsWellFormed program world := by
  unfold HostAction.reply
  split
  case h_2 | h_3 => exact ReplyOver.isWellFormed_written _
  case h_7 | h_8 =>
    simp only [List.forall_mem_cons] at each
    exact HostAction.isWellFormed_extend (fun _ ↦ rfl) each.1 each.2.1
  case h_9 | h_10 =>
    refine ReplyOver.isWellFormed_withArgument fun (source, stages) made ↦ ?_
    have sequence := List.forall_mem_singleton.mp each
    exact ⟨(sequence.toSeq made).1, nofun⟩
  case h_12 => trivial
  all_goals
    refine ReplyOver.isWellFormed_withArgument fun _ _ ↦ ?_
    first | trivial | exact ⟨rfl, .bool⟩ | exact ⟨rfl, .int⟩ | exact ⟨rfl, .str⟩

/-! ## Instructions -/

/-- The code of a routine starts a loop by putting its cursor into a slot that is only used for this,
and makes closures that hold what their routines capture. -/
structure IsTidy (program : Program) (routine : Routine) : Prop where
  loads : ∀ {slot : Nat}, .load slot ∈ routine.code → ¬ routine.IsLoopSlot slot
  starts : ∀ {position : Nat}, routine.code[position]? = some .iterStart →
    ∃ slot, routine.code[position + 1]? = some (.store slot) ∧ routine.IsLoopSlot slot
  closures : ∀ {index : RoutineIndex} {count : Nat}, .makeClosure index count ∈ routine.code →
    ∃ target, program.image.routines[index]? = some target ∧ target.binding = .closure count

section Instructions

variable {routine : Routine} {position : Nat} {locals : Array Value} {operands rest : List Value}

/-- A frame goes on elsewhere with other well-formed operands. -/
theorem Frame.Holds.goOn (holds : Frame.Holds program world ⟨routine, position, locals, ⟨operands⟩⟩)
    {target : Nat} (others : ∀ value ∈ rest, value.IsWellFormed program world) :
    Frame.Holds program world ⟨routine, target, locals, ⟨rest⟩⟩ :=
  ⟨holds.routine, holds.locals, others⟩

/-- A slot gets a well-formed value, or the cursor of its loop. -/
theorem Frame.Holds.assign (holds : Frame.Holds program world ⟨routine, position, locals, ⟨rest⟩⟩)
    {slot : Nat} (given : value.IsWellFormed program world ∨
      routine.IsLoopSlot slot ∧ IsLoopCursor program world value) :
    Frame.Holds program world ⟨routine, position, locals.setIfInBounds slot value, ⟨rest⟩⟩ := by
  refine ⟨holds.routine, fun {other held} found ↦ ?_, holds.operands⟩
  simp only [Array.getElem?_setIfInBounds] at found
  split at found
  · next same =>
      subst same
      split at found
      · cases found
        exact given
      · cases found
  · exact holds.locals found

/-- What an operator makes is put in the place of its operands. -/
theorem wellFormedOutcome_of_map {result : Except Fault Value}
    (holds : Frame.Holds program world ⟨routine, position, locals, ⟨operands⟩⟩)
    (wellFormed : world.IsWellFormed program)
    (below : ∀ value ∈ rest, value.IsWellFormed program world)
    (made : ∀ value, result = .ok value → value.IsWellFormed program world) :
    WellFormedOutcome program
      (result.map fun value ↦ .next ⟨routine, position, locals, ⟨value :: rest⟩⟩, world) := by
  cases result with
  | ok result =>
      exact ⟨.plain (holds.goOn (List.forall_mem_cons.mpr ⟨made result rfl, below⟩)), wellFormed⟩
  | error => trivial

/-- A frame goes on with what a host function replies. -/
theorem wellFormedOutcome_receive {name : String} {reply : Reply}
    (holds : Frame.Holds program world ⟨routine, position, locals, ⟨rest⟩⟩)
    (wellFormed : world.IsWellFormed program) (replied : reply.IsWellFormed program world) :
    WellFormedOutcome program
      (receive ⟨routine, position, locals, ⟨rest⟩⟩ name world reply) := by
  cases reply with
  | value answer after =>
      obtain ⟨same, answer'⟩ := replied
      have lasts : world.LastsTo after := .of_objects same
      have operands := List.forall_mem_cons.mpr ⟨answer'.mono lasts, (holds.mono lasts).operands⟩
      exact ⟨.plain ((holds.mono lasts).goOn operands), wellFormed.of_objects same⟩
  | enumerate source stages goal =>
      exact ⟨holds, wellFormed, fun _ ↦ ⟨replied.1, fun cursor ↦ absurd cursor replied.2⟩⟩
  | refuse | fault => trivial

/-- An instruction of a tidy routine makes well-formed values of such values. -/
theorem execute_isWellFormed {op : Op} (tidy : IsTidy program routine)
    (holds : Frame.Holds program world ⟨routine, position + 1, locals, ⟨operands⟩⟩)
    (wellFormed : world.IsWellFormed program) (found : routine.code[position]? = some op) :
    WellFormedOutcome program
      (execute program world ⟨routine, position + 1, locals, ⟨operands⟩⟩ op) := by
  by_cases enough : op.operands ≤ operands.length
  case neg =>
    obtain short | ⟨mismatch, short⟩ := execute_of_short program world routine (position + 1)
        locals operands (Nat.lt_of_not_le enough)
    · rw [short]; trivial
    · rw [short]; trivial
  have stack := holds.operands
  have inside := Array.mem_of_getElem? found
  cases op with
  | push constant =>
      exact ⟨.plain (holds.goOn (List.forall_mem_cons.mpr ⟨.ofConstant constant, stack⟩)),
        wellFormed⟩
  | load slot =>
      cases held : locals[slot]? with
      | none =>
          simp only [execute, load, held]
          trivial
      | some value =>
          rw [execute_load program world routine _ locals operands held]
          have value' := (holds.locals held).resolve_right fun loop ↦ tidy.loads inside loop.1
          exact ⟨.plain (holds.goOn (List.forall_mem_cons.mpr ⟨value', stack⟩)), wellFormed⟩
  | store slot =>
      obtain ⟨value, rest, rfl⟩ := List.exists_cons_of_length_pos enough
      obtain ⟨value', rest'⟩ := List.forall_mem_cons.mp stack
      by_cases bound : slot < locals.size
      · rw [execute_store program world routine _ locals _ bound]
        exact ⟨.plain ((holds.goOn rest').assign (.inl value')), wellFormed⟩
      · simp only [execute, store, OperandStack.pop, bind, Except.bind, if_neg bound]
        trivial
  | loadField field =>
      obtain ⟨target, rest, rfl⟩ := List.exists_cons_of_length_pos enough
      rw [execute_loadField]
      exact wellFormedOutcome_of_map holds wellFormed (List.forall_mem_cons.mp stack).2
        fun _ ↦ isWellFormed_of_readField wellFormed
  | storeField field =>
      obtain ⟨value, target, rest, rfl⟩ := exists_two_operands enough
      simp only [List.forall_mem_cons] at stack
      rw [execute_storeField]
      cases written : world.writeField target field value with
      | ok after =>
          exact ⟨.plain ((holds.goOn stack.2.2).mono (.writeField written)),
            wellFormed.writeField stack.1 written⟩
      | error fault => trivial
  | pop =>
      obtain ⟨value, rest, rfl⟩ := List.exists_cons_of_length_pos enough
      exact ⟨.plain (holds.goOn (List.forall_mem_cons.mp stack).2), wellFormed⟩
  | unary operator =>
      obtain ⟨operand, rest, rfl⟩ := List.exists_cons_of_length_pos enough
      rw [execute_unary]
      exact wellFormedOutcome_of_map holds wellFormed (List.forall_mem_cons.mp stack).2
        fun _ ↦ isWellFormed_of_applyUnary
  | binary operator =>
      obtain ⟨right, left, rest, rfl⟩ := exists_two_operands enough
      simp only [List.forall_mem_cons] at stack
      rw [execute_binary]
      exact wellFormedOutcome_of_map holds wellFormed stack.2.2
        fun _ ↦ isWellFormed_of_applyBinary
  | index =>
      obtain ⟨position', array, rest, rfl⟩ := exists_two_operands enough
      simp only [List.forall_mem_cons] at stack
      rw [execute_index]
      exact wellFormedOutcome_of_map holds wellFormed stack.2.2
        fun _ ↦ isWellFormed_of_itemOf stack.2.1
  | makeArray count =>
      obtain ⟨values, rest, rfl, rfl⟩ := exists_operands enough
      simp only [List.forall_mem_append, List.mem_reverse] at stack
      rw [execute_makeArray]
      exact ⟨.plain (holds.goOn (List.forall_mem_cons.mpr ⟨.array stack.1, stack.2⟩)), wellFormed⟩
  | makeClosure index count =>
      obtain ⟨values, rest, rfl, rfl⟩ := exists_operands enough
      simp only [List.forall_mem_append, List.mem_reverse] at stack
      obtain ⟨target, found, binding⟩ := tidy.closures inside
      rw [execute_makeClosure]
      have made : (Value.closure (world.makeClosure index values).1).IsWellFormed program world :=
        .closure found binding stack.1
      have behind := List.forall_mem_cons.mpr ⟨made, stack.2⟩
      exact ⟨.plain ((holds.goOn behind).mono (.of_objects rfl)), wellFormed.of_objects rfl⟩
  | construct type => exact ⟨holds, wellFormed, fun _ ↦ trivial⟩
  | call index count =>
      obtain ⟨values, rest, rfl, rfl⟩ := exists_operands enough
      simp only [List.forall_mem_append, List.mem_reverse] at stack
      rw [execute_call]
      exact ⟨holds.goOn stack.2, wellFormed, fun _ ↦ stack.1⟩
  | callClosure count =>
      obtain ⟨values, below, rfl, rfl⟩ := exists_operands (Nat.le_of_succ_le enough)
      have some : 0 < below.length := by
        simp only [Op.operands, List.length_append, List.length_reverse] at enough
        omega
      obtain ⟨callee, rest, rfl⟩ := List.exists_cons_of_length_pos some
      simp only [List.forall_mem_append, List.mem_reverse, List.forall_mem_cons] at stack
      rw [execute_callClosure]
      cases converted : callee.toClosure with
      | error mismatch => trivial
      | ok closure =>
          have captures := (stack.2.1.toClosure converted).captures
          exact ⟨holds.goOn stack.2.2, wellFormed,
            fun _ ↦ List.forall_mem_append.mpr ⟨captures, stack.1⟩⟩
  | callHost imported count =>
      obtain ⟨values, rest, rfl, rfl⟩ := exists_operands enough
      simp only [List.forall_mem_append, List.mem_reverse] at stack
      cases bound : program.hosts[imported]? with
      | none =>
          simp only [execute, callHost, OperandStack.popMany_append, bound]
          trivial
      | some host =>
          rw [execute_callHost program world routine _ locals rest bound]
          exact wellFormedOutcome_receive (holds.goOn stack.2) wellFormed
            (HostAction.isWellFormed_reply host.action stack.1)
  | iterStart =>
      obtain ⟨iterable, rest, rfl⟩ := List.exists_cons_of_length_pos enough
      obtain ⟨iterable', rest'⟩ := List.forall_mem_cons.mp stack
      have behind : Frame.Holds program world ⟨routine, position + 1, locals, ⟨rest⟩⟩ :=
        holds.goOn rest'
      have stores : Frame.StoresCursor ⟨routine, position + 1, locals, ⟨rest⟩⟩ :=
        tidy.starts found
      cases iterable with
      | array items =>
          exact ⟨.loop behind ⟨items, 0, rfl, iterable'.items⟩ stores, wellFormed⟩
      | seq identity source stages =>
          obtain ⟨elements, -⟩ := iterable'.toSeq rfl
          exact ⟨behind, wellFormed, fun _ ↦ ⟨elements, fun _ ↦ ⟨_, rfl, stores⟩⟩⟩
      | _ => trivial
  | iterNext slot exit =>
      have loop : routine.IsLoopSlot slot := ⟨exit, inside⟩
      cases held : locals[slot]? with
      | none =>
          simp only [execute, iterNext, held]
          trivial
      | some value =>
          rcases holds.locals held with value' | ⟨-, items, next, rfl, each⟩
          · have other : ∀ items next, value ≠ .cursor items next := by
              rintro items next rfl
              cases value'
            cases value with
            | cursor items next => exact absurd rfl (other items next)
            | _ =>
                simp only [execute, iterNext, held]
                trivial
          · rw [execute_iterNext program world routine _ locals operands held]
            split
            · next item found =>
                have item' := each item (List.mem_of_getElem? found)
                have moved := holds.assign (.inr ⟨loop, items, next + 1, rfl, each⟩)
                exact ⟨.plain (moved.goOn (List.forall_mem_cons.mpr ⟨item', stack⟩)), wellFormed⟩
            · exact ⟨.plain (holds.goOn stack), wellFormed⟩
  | jump target => exact ⟨.plain (holds.goOn stack), wellFormed⟩
  | jumpUnless target =>
      obtain ⟨test, rest, rfl⟩ := List.exists_cons_of_length_pos enough
      rw [execute_jumpUnless]
      cases test.toBool with
      | error mismatch => trivial
      | ok holds' => exact ⟨.plain (holds.goOn (List.forall_mem_cons.mp stack).2), wellFormed⟩
  | ret =>
      obtain ⟨value, rest, rfl⟩ := List.exists_cons_of_length_pos enough
      exact ⟨(List.forall_mem_cons.mp stack).1, wellFormed⟩

end Instructions

/-! ## Steps -/

section Steps

variable {waiting : List Waiting}

theorem runFrame_isWellFormed {frame : Frame}
    (tidy : ∀ routine ∈ program.image.routines, IsTidy program routine)
    (running : frame.IsWellFormed program world) (rest : AllWellFormed program world waiting)
    (wellFormed : world.IsWellFormed program) :
    (runFrame program frame waiting world).IsWellFormed program := by
  cases running with
  | @plain frame holds =>
      obtain ⟨routine, position, locals, ⟨operands⟩⟩ := frame
      simp only [runFrame]
      split
      · exact ⟨.inl .unit, rest, wellFormed⟩
      · next op found =>
          have outcome : WellFormedOutcome program
              (execute program world ⟨routine, position + 1, locals, ⟨operands⟩⟩ op) :=
            execute_isWellFormed (tidy routine holds.routine) (holds.goOn holds.operands) wellFormed
              found
          simp only [Frame.goTo]
          cases executed : execute program world ⟨routine, position + 1, locals, ⟨operands⟩⟩ op with
          | mk result after =>
              have lasts := lastsTo_execute executed
              rw [executed] at outcome
              rcases result with fault | ⟨next⟩ | ⟨held, control⟩ | value
              · exact trivial
              · exact ⟨outcome.1, rest.mono lasts, outcome.2⟩
              · exact ⟨outcome.2.2 _, ⟨outcome.1, rest.mono lasts⟩, outcome.2.1⟩
              · exact ⟨.inl outcome.1, rest.mono lasts, outcome.2⟩
  | @loop frame cursor holds isCursor stores =>
      obtain ⟨routine, position, locals, ⟨operands⟩⟩ := frame
      obtain ⟨slot, found, loop⟩ := stores
      have found : routine.code[position]? = some (.store slot) := found
      simp only [runFrame, Frame.push, OperandStack.push, found, Frame.goTo]
      by_cases bound : slot < locals.size
      · rw [execute_store program world routine _ locals _ bound]
        have moved := holds.assign (.inr ⟨loop, isCursor⟩)
        exact ⟨.plain (moved.goOn holds.operands), rest, wellFormed⟩
      · simp only [execute, store, OperandStack.pop, bind, Except.bind, if_neg bound]
        trivial

theorem startCall_isWellFormed {index : RoutineIndex} {arguments : List Value}
    (each : ∀ argument ∈ arguments, argument.IsWellFormed program world)
    (rest : AllWellFormed program world waiting) (wellFormed : world.IsWellFormed program) :
    (startCall program index arguments waiting world).IsWellFormed program := by
  simp only [startCall]
  split
  · trivial
  · next routine found =>
      split
      · trivial
      split
      · trivial
      · have slots : ∀ value ∈ arguments.take routine.locals
            ++ List.replicate (routine.locals - arguments.length) Value.unit,
            value.IsWellFormed program world := by
          intro value inside
          rcases List.mem_append.mp inside with taken | unused
          · exact each value (List.mem_of_mem_take taken)
          · rw [List.eq_of_mem_replicate unused]
            exact .unit
        refine ⟨.plain ⟨Array.mem_of_getElem? found, fun {slot value} held ↦ .inl ?_,
          List.forall_mem_nil _⟩, rest, wellFormed⟩
        simp only [Frame.enter, List.getElem?_toArray] at held
        exact slots value (List.mem_of_getElem? held)

/-- A new object is of its type, with as many fields. -/
theorem keeps_allocate {type : TypeIndex} {definition : Bytecode.TypeDefinition}
    (found : program.image.types[type]? = some definition) :
    Keeps program
      (world.allocate type definition.fullName (definition.fields.map fun _ ↦ Value.unit)).2
      (world.allocate type definition.fullName (definition.fields.map fun _ ↦ Value.unit)).1
      definition :=
  ⟨found, rfl, _, Array.getElem?_push_size, List.length_map _⟩

theorem startConstruction_isWellFormed {type : TypeIndex}
    (rest : AllWellFormed program world waiting) (wellFormed : world.IsWellFormed program) :
    (startConstruction program type waiting world).IsWellFormed program := by
  simp only [startConstruction]
  split
  · trivial
  · next definition found =>
      have after := wellFormed.allocate type definition.fullName definition.fields
      have rest' := rest.mono (.allocate type definition.fullName
        (definition.fields.map fun _ ↦ Value.unit))
      have object := ValueOver.IsWellFormed.object (@keeps_allocate _ world _ _ found)
      split
      · exact ⟨.inl object, rest', after⟩
      · exact ⟨List.forall_mem_singleton.mpr object, ⟨object, rest'⟩, after⟩

theorem enumerate_isWellFormed {pending done : List Value} {stages : List Stage} {goal : Goal}
    (elements : Elements program world pending done stages) (fits : goal.Fits waiting)
    (rest : AllWellFormed program world waiting) (wellFormed : world.IsWellFormed program) :
    (enumerate pending done stages goal waiting world).IsWellFormed program := by
  match stages, pending with
  | [], pending =>
      refine ⟨?_, rest, wellFormed⟩
      cases goal with
      | cursor => exact .inr ⟨⟨pending, 0, rfl, elements.pending⟩, fits⟩
      | array => exact .inl (.array elements.pending)
      | count => exact .inl .int
  | _ :: later, [] =>
      have reversed : ∀ value ∈ done.reverse, value.IsWellFormed program world :=
        fun value inside ↦ elements.done value (List.mem_reverse.mp inside)
      exact ⟨⟨⟨reversed, nofun, (List.forall_mem_cons.mp elements.stages).2⟩, fits⟩, rest,
        wellFormed⟩
  | stage :: later, element :: pending =>
      have captures := (List.forall_mem_cons.mp elements.stages).1.captures
      have element' := (List.forall_mem_cons.mp elements.pending).1
      exact ⟨List.forall_mem_append.mpr ⟨captures, List.forall_mem_singleton.mpr element'⟩,
        ⟨elements, fits, rest⟩, wellFormed⟩

theorem deliver_isWellFormed
    (given : value.IsWellFormed program world ∨
      IsLoopCursor program world value ∧ Goal.cursor.Fits waiting)
    (rest : AllWellFormed program world waiting) (wellFormed : world.IsWellFormed program) :
    (deliver value waiting world).IsWellFormed program := by
  rcases given with value' | ⟨cursor, fits⟩
  case inr =>
    -- only a frame that starts a loop waits for a cursor
    obtain ⟨frame, first, stores⟩ := fits rfl
    obtain ⟨later, rfl⟩ := List.head?_eq_some_iff.mp first
    exact ⟨.loop rest.1 cursor stores, rest.2, wellFormed⟩
  match waiting with
  | [] => exact ⟨value', wellFormed⟩
  | .routine frame :: later =>
      have operands := List.forall_mem_cons.mpr ⟨value', rest.1.operands⟩
      exact ⟨.plain (rest.1.goOn operands), rest.2, wellFormed⟩
  | .object object :: later => exact ⟨.inl rest.1, rest.2, wellFormed⟩
  | .element stage element pending done later goal :: _ =>
      obtain ⟨elements, fits, rest⟩ := rest
      obtain ⟨element', pending'⟩ := List.forall_mem_cons.mp elements.pending
      have kept {done' : List Value}
          (each : ∀ value ∈ done', value.IsWellFormed program world) :
          Elements program world pending done' (stage :: later) :=
        ⟨pending', each, elements.stages⟩
      cases stage with
      | map mapper =>
          exact ⟨⟨kept (List.forall_mem_cons.mpr ⟨value', elements.done⟩), fits⟩, rest, wellFormed⟩
      | filter predicate =>
          simp only [deliver]
          cases value.toBool with
          | error mismatch => trivial
          | ok keep =>
              cases keep with
              | true =>
                  exact ⟨⟨kept (List.forall_mem_cons.mpr ⟨element', elements.done⟩), fits⟩, rest,
                    wellFormed⟩
              | false => exact ⟨⟨kept elements.done, fits⟩, rest, wellFormed⟩

end Steps

/-- A step of a program of tidy routines leads from well-formed values to such values. -/
theorem step_isWellFormed (tidy : ∀ routine ∈ program.image.routines, IsTidy program routine)
    {state : State} (wellFormed : state.IsWellFormed program) :
    (step program state).IsWellFormed program := by
  obtain ⟨control, rest, world'⟩ := wellFormed
  match state with
  | ⟨.run frame, waiting, world⟩ => exact runFrame_isWellFormed tidy control rest world'
  | ⟨.call index arguments, waiting, world⟩ => exact startCall_isWellFormed control rest world'
  | ⟨.construct type, waiting, world⟩ => exact startConstruction_isWellFormed rest world'
  | ⟨.enumerate pending done stages goal, waiting, world⟩ =>
      exact enumerate_isWellFormed control.1 control.2 rest world'
  | ⟨.answer value, waiting, world⟩ => exact deliver_isWellFormed control rest world'

/-- Every state that is reached from well-formed values has such values. -/
theorem Reaches.isWellFormed (tidy : ∀ routine ∈ program.image.routines, IsTidy program routine)
    {state last : State} (reached : Reaches program state last)
    (wellFormed : state.IsWellFormed program) : last.IsWellFormed program := by
  refine reached.preserves (fun taken before ↦ ?_) wellFormed
  have after := step_isWellFormed tidy before
  rw [taken] at after
  exact after

/-- A run from well-formed values ends with a well-formed value, if it ends with one. -/
theorem Ends.isWellFormed (tidy : ∀ routine ∈ program.image.routines, IsTidy program routine)
    {state : State} {ending : Ending} (ends : Ends program state ending)
    (wellFormed : state.IsWellFormed program) : (Step.ended ending).IsWellFormed program := by
  obtain ⟨fuel, ran⟩ := ends
  obtain ⟨count, last, -, taken, ended⟩ := run_eq_some_iff.mp ran
  have after := step_isWellFormed tidy (Reaches.isWellFormed tidy ⟨count, taken⟩ wellFormed)
  rw [ended] at after
  exact after

end Machine

end GuestScript
