import GuestScript.Proofs.Machine.Instructions
import GuestScript.Proofs.Machine.Runs

/-!
# What an access to a field checks

An object keeps for the whole run as many fields as its type declares. An access to a field names a
position, and checks that its target is an object with a field at that position; it does not look at
the type of the object. So an access succeeds exactly on the objects whose types declare more fields
than the position, whatever type the access was written for.
-/

namespace GuestScript.Machine

open Bytecode (Op Routine RoutineIndex TypeDefinition)

variable {program : Program} {world middle after : World} {state next last : State}

/-! ## Objects last -/

/-- Every object of a world is still there afterwards, with as many fields. -/
structure WorldOver.LastsTo (world after : World) : Prop where
  each : ∀ {address : Nat} {fields : List Value}, world.objects[address]? = some fields →
    ∃ others, after.objects[address]? = some others ∧ others.length = fields.length

namespace WorldOver.LastsTo

theorem of_objects (same : after.objects = world.objects) : world.LastsTo after :=
  ⟨fun found ↦ ⟨_, same ▸ found, rfl⟩⟩

theorem trans (first : world.LastsTo middle) (second : middle.LastsTo after) :
    world.LastsTo after := by
  refine ⟨fun found ↦ ?_⟩
  obtain ⟨others, found', length⟩ := first.each found
  obtain ⟨lasts, found'', length'⟩ := second.each found'
  exact ⟨lasts, found'', length'.trans length⟩

/-- Making an object leaves the others. -/
theorem allocate (type : Bytecode.TypeIndex) (typeName : String) (fields : List Value) :
    world.LastsTo (world.allocate type typeName fields).2 := by
  refine ⟨fun {address others} found ↦ ?_⟩
  have inside := (Array.getElem?_eq_some_iff.mp found).1
  refine ⟨others, ?_, rfl⟩
  rw [WorldOver.allocate, Array.getElem?_push, if_neg (Nat.ne_of_lt inside)]
  exact found

/-- Assigning to a field leaves all others. -/
theorem setField (reference : Reference) (field : Nat) (value : Value) :
    world.LastsTo (world.setField reference field value) := by
  refine ⟨fun {address fields} found ↦ ?_⟩
  rw [WorldOver.setField, Array.getElem?_modify]
  split
  · exact ⟨fields.set field value, by rw [found]; rfl, List.length_set⟩
  · exact ⟨fields, found, rfl⟩

theorem writeField {target value : Value} {field : Nat}
    (written : world.writeField target field value = .ok after) : world.LastsTo after := by
  rw [WorldOver.writeField] at written
  cases target with
  | object reference =>
      simp only [ValueOver.toReference, orMismatch, bind, Except.bind] at written
      split at written
      · cases written
        exact setField reference field value
      · cases written
  | _ => cases written

end WorldOver.LastsTo

/-- A reply of a host function leaves the objects as they are. -/
def ReplyOver.LeavesObjects (world : World) : Reply → Prop
  | .value _ after => after.objects = world.objects
  | _ => True

theorem ReplyOver.leavesObjects_withArgument {Target : Type} {index : Nat}
    {converted : Except Mismatch Target} {reply : Target → Reply}
    (leaves : ∀ target, (reply target).LeavesObjects world) :
    (withArgument index converted reply).LeavesObjects world := by
  cases converted with
  | ok target => exact leaves target
  | error => trivial

theorem ReplyOver.leavesObjects_written (result : Except String Console) :
    (written world result : Reply).LeavesObjects world := by
  cases result with
  | ok => rfl
  | error => trivial

theorem HostAction.leavesObjects_extend (sequence closure : Value) (stage : Closure → Stage) :
    (HostAction.extend world sequence closure stage).LeavesObjects world := by
  refine ReplyOver.leavesObjects_withArgument fun source ↦
    ReplyOver.leavesObjects_withArgument fun closure ↦ ?_
  rw [ReplyOver.extend]
  split
  · rfl
  · trivial

theorem HostAction.leavesObjects_reply (action : HostAction) (arguments : List Value)
    (world : World) :
    (action.reply arguments world).LeavesObjects world := by
  unfold HostAction.reply
  split
  case h_2 | h_3 => exact ReplyOver.leavesObjects_written _
  case h_7 | h_8 => exact HostAction.leavesObjects_extend _ _ _
  case h_12 => trivial
  all_goals exact ReplyOver.leavesObjects_withArgument fun _ ↦ by first | rfl | trivial

/-- An instruction leaves every object with as many fields. -/
theorem lastsTo_execute {frame : Frame} {op : Op} {outcome : Except Fault Effect}
    (executed : execute program world frame op = (outcome, after)) : world.LastsTo after := by
  cases op with
  | storeField field =>
      obtain ⟨routine, position, locals, ⟨operands⟩⟩ := frame
      match operands with
      | [] | [_] =>
          cases executed
          exact .of_objects rfl
      | value :: target :: rest =>
          rw [execute_storeField] at executed
          cases written : world.writeField target field value with
          | error fault =>
              rw [written] at executed
              cases executed
              exact .of_objects rfl
          | ok later =>
              rw [written] at executed
              cases executed
              exact .writeField written
  | makeClosure routine captures =>
      simp only [execute, makeClosure] at executed
      split at executed <;> cases executed <;> exact .of_objects rfl
  | callHost imported count =>
      simp only [execute, callHost] at executed
      split at executed
      · cases executed
        exact .of_objects rfl
      · next arguments stack popped =>
          split at executed
          · cases executed
            exact .of_objects rfl
          · next host found =>
              have leaves := HostAction.leavesObjects_reply host.action arguments world
              revert executed leaves
              cases host.action.reply arguments world <;> rintro ⟨⟩ leaves
              · exact .of_objects leaves
              all_goals exact .of_objects rfl
  | _ =>
      cases executed
      exact .of_objects rfl

/-- A step leaves every object with as many fields. -/
theorem lastsTo_step (taken : step program state = .running next) :
    state.world.LastsTo next.world := by
  obtain ⟨control, waiting, world⟩ := state
  cases control with
  | run frame =>
      simp only [step, runFrame] at taken
      split at taken
      · cases taken
        exact .of_objects rfl
      · next op found =>
          cases executed : execute program world (frame.goTo (frame.position + 1)) op with
          | mk outcome after =>
              have lasts := lastsTo_execute executed
              rw [executed] at taken
              cases outcome with
              | error fault => cases taken
              | ok effect => cases effect <;> cases taken <;> exact lasts
  | call index arguments =>
      simp only [step, startCall] at taken
      repeat' split at taken
      all_goals cases taken
      exact .of_objects rfl
  | construct type =>
      simp only [step, startConstruction] at taken
      split at taken
      · cases taken
      · next definition found =>
          split at taken <;> cases taken <;> exact .allocate type definition.fullName _
  | enumerate pending done stages goal =>
      simp only [step, enumerate.eq_def] at taken
      split at taken <;> cases taken <;> exact .of_objects rfl
  | answer value =>
      simp only [step, deliver.eq_def] at taken
      repeat' split at taken
      all_goals cases taken
      all_goals exact .of_objects rfl

theorem Reaches.lastsTo (reached : Reaches program state last) :
    state.world.LastsTo last.world := by
  obtain ⟨count, taken⟩ := reached
  induction taken with
  | zero => exact .of_objects rfl
  | succ first _ ih => exact (lastsTo_step first).trans ih

/-! ## Accesses -/

/-- A world has the object of a reference, with as many fields as its type declares. -/
structure Keeps (program : Program) (world : World) (reference : Reference)
    (definition : TypeDefinition) : Prop where
  type : program.image.types[reference.type]? = some definition
  name : reference.typeName = definition.fullName
  object : ∃ fields, world.objects[reference.address]? = some fields ∧
    fields.length = definition.fields.length

variable {reference : Reference} {definition : TypeDefinition} {routine callee : Routine}
  {position field : Nat} {locals : Array Value} {rest values : List Value} {waiting : List Waiting}
  {target value : Value} {mismatch : Mismatch} {index : RoutineIndex}

namespace Keeps

theorem mono (keeps : Keeps program world reference definition) (lasts : world.LastsTo after) :
    Keeps program after reference definition := by
  obtain ⟨fields, found, length⟩ := keeps.object
  obtain ⟨others, found', length'⟩ := lasts.each found
  exact ⟨keeps.type, keeps.name, others, found', length'.trans length⟩

theorem length_fields (keeps : Keeps program world reference definition) :
    (world.fields reference).length = definition.fields.length := by
  obtain ⟨fields, found, length⟩ := keeps.object
  rw [WorldOver.fields, found]
  exact length

/-- A field is read exactly if the type of the object declares more fields than its position. -/
theorem step_loadField (keeps : Keeps program world reference definition)
    (here : routine.code[position]? = some (.loadField field)) :
    (field < definition.fields.length ∧ ∃ value, (world.fields reference)[field]? = some value ∧
      step program ⟨.run ⟨routine, position, locals, ⟨.object reference :: rest⟩⟩, waiting, world⟩
        = .running ⟨.run ⟨routine, position + 1, locals, ⟨value :: rest⟩⟩, waiting, world⟩) ∨
    (definition.fields.length ≤ field ∧
      step program ⟨.run ⟨routine, position, locals, ⟨.object reference :: rest⟩⟩, waiting, world⟩
        = .ended ⟨.error (.missingField definition.fullName field), world⟩) := by
  rw [step, runFrame, here, ← keeps.name, ← keeps.length_fields]
  simp only [Frame.goTo, execute_loadField, WorldOver.readField, ValueOver.toReference, orMismatch,
    bind, Except.bind]
  cases found : (world.fields reference)[field]? with
  | some value => exact .inl ⟨(List.getElem?_eq_some_iff.mp found).1, value, rfl, rfl⟩
  | none => exact .inr ⟨List.getElem?_eq_none_iff.mp found, rfl⟩

/-- A field is written exactly if the type of the object declares more fields than its position. -/
theorem step_storeField (keeps : Keeps program world reference definition)
    (here : routine.code[position]? = some (.storeField field)) :
    step program
        ⟨.run ⟨routine, position, locals, ⟨value :: .object reference :: rest⟩⟩, waiting, world⟩
      = if field < definition.fields.length then
          .running ⟨.run ⟨routine, position + 1, locals, ⟨rest⟩⟩, waiting,
            world.setField reference field value⟩
        else .ended ⟨.error (.missingField definition.fullName field), world⟩ := by
  rw [step, runFrame, here, ← keeps.name, ← keeps.length_fields]
  simp only [Frame.goTo, execute_storeField, WorldOver.writeField, ValueOver.toReference, orMismatch,
    bind, Except.bind]
  by_cases inside : field < (world.fields reference).length
  · rw [if_pos inside, if_pos inside]
    rfl
  · rw [if_neg inside, if_neg inside]
    rfl

end Keeps

/-- What is not an object has no field to read. -/
theorem step_loadField_of_mismatch (here : routine.code[position]? = some (.loadField field))
    (other : target.toReference = .error mismatch) :
    step program ⟨.run ⟨routine, position, locals, ⟨target :: rest⟩⟩, waiting, world⟩
      = .ended ⟨.error (.typeMismatch mismatch), world⟩ := by
  rw [step, runFrame, here]
  simp only [Frame.goTo, execute_loadField, WorldOver.readField, other]
  rfl

/-- What is not an object has no field to write. -/
theorem step_storeField_of_mismatch (here : routine.code[position]? = some (.storeField field))
    (other : target.toReference = .error mismatch) :
    step program ⟨.run ⟨routine, position, locals, ⟨value :: target :: rest⟩⟩, waiting, world⟩
      = .ended ⟨.error (.typeMismatch mismatch), world⟩ := by
  rw [step, runFrame, here]
  simp only [Frame.goTo, execute_storeField, WorldOver.writeField, other]
  rfl

/-- A call hands over its arguments, the receiver of a method among them, whatever they are. -/
theorem takes_call (here : routine.code[position]? = some (.call index values.length))
    (found : program.image.routines[index]? = some callee) (fits : values.length = callee.arity)
    (shallow : callDepth waiting + 1 < maxCallDepth) :
    Takes program 2
      ⟨.run ⟨routine, position, locals, ⟨values.reverse ++ rest⟩⟩, waiting, world⟩
      ⟨.run (.enter callee values), .routine ⟨routine, position + 1, locals, ⟨rest⟩⟩ :: waiting,
        world⟩ := by
  have called : step program
      ⟨.run ⟨routine, position, locals, ⟨values.reverse ++ rest⟩⟩, waiting, world⟩
        = .running ⟨.call index values, .routine ⟨routine, position + 1, locals, ⟨rest⟩⟩ :: waiting,
            world⟩ := by
    rw [step, runFrame, here]
    simp only [Frame.goTo, execute_call, proceed]
  refine .succ called (.succ ?_ (.zero _))
  simp only [step, startCall, found]
  rw [if_neg (not_not.mpr fits)]
  exact if_neg (Nat.not_le.mpr shallow)

/-- A new object has as many fields as its type declares. -/
theorem exists_keeps_of_construct {type : Bytecode.TypeIndex}
    (taken : step program ⟨.construct type, waiting, world⟩ = .running next) :
    ∃ reference definition, reference.type = type ∧
      Keeps program next.world reference definition ∧
      (next.control = .answer (.object reference) ∨
        ∃ index, next.control = .call index [.object reference]) := by
  simp only [step, startConstruction] at taken
  split at taken
  · cases taken
  · next definition found =>
      refine ⟨⟨world.objects.size, type, definition.fullName⟩, definition, rfl, ?_⟩
      have made (after : World)
          (same : after = (world.allocate type definition.fullName
            (definition.fields.map fun _ ↦ .unit)).2) :
          Keeps program after ⟨world.objects.size, type, definition.fullName⟩ definition := by
        refine ⟨found, rfl, definition.fields.map fun _ ↦ .unit, ?_, List.length_map _⟩
        rw [same, WorldOver.allocate]
        exact Array.getElem?_push_size
      split at taken
      · cases taken
        exact ⟨made _ rfl, .inl rfl⟩
      · cases taken
        exact ⟨made _ rfl, .inr ⟨_, rfl⟩⟩

end GuestScript.Machine
