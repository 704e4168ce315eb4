import GuestScript.Machine.Step
import GuestScript.Proofs.Machine.Recoding
import Mathlib.Data.List.Basic

/-!
# Worlds do not depend on what closures run

The objects of a world, the identities it gives out and the replies of host functions are the same
whatever code closures hold: each operation on a recoded world gives the recoded result.
-/

namespace GuestScript

namespace Machine

variable {Code Other : Type} (change : Code → Other)

namespace WorldOver

/-- Change the code of every closure in a world. -/
def recode (world : WorldOver Code) : WorldOver Other :=
  ⟨world.objects.map fun fields ↦ fields.map (ValueOver.recode change), world.nextIdentity,
    world.console⟩

@[simp]
theorem console_recode (world : WorldOver Code) : (world.recode change).console = world.console :=
  rfl

@[simp]
theorem recode_fresh (console : Console) :
    (fresh console : WorldOver Code).recode change = fresh console := by
  simp [recode, fresh]

@[simp]
theorem fields_recode (world : WorldOver Code) (reference : Reference) :
    (world.recode change).fields reference
      = (world.fields reference).map (ValueOver.recode change) := by
  simp only [recode, fields, Array.getElem?_map]
  cases world.objects[reference.address]? <;> simp

/-! ## Making things -/

/-- Making an object looks at no code. -/
theorem allocate_recode (world : WorldOver Code) (type : Bytecode.TypeIndex) (typeName : String)
    (fields : List (ValueOver Code)) :
    (world.recode change).allocate type typeName (fields.map (ValueOver.recode change))
      = ((world.allocate type typeName fields).1,
          (world.allocate type typeName fields).2.recode change) := by
  simp [recode, allocate]

/-- Making a closure looks at no code but its own. -/
theorem makeClosure_recode (world : WorldOver Code) (code : Code)
    (captures : List (ValueOver Code)) :
    (world.recode change).makeClosure (change code) (captures.map (ValueOver.recode change))
      = ((world.makeClosure code captures).1.recode change,
          (world.makeClosure code captures).2.recode change) := by
  simp only [recode, makeClosure, ClosureOver.recode, recodeAll_eq_map]

/-- Making a sequence looks at no code. -/
theorem makeSeq_recode (world : WorldOver Code) (source : List (ValueOver Code))
    (stages : List (StageOver Code)) :
    (world.recode change).makeSeq (source.map (ValueOver.recode change))
        (stages.map (StageOver.recode change))
      = ((world.makeSeq source stages).1.recode change,
          (world.makeSeq source stages).2.recode change) := by
  simp only [recode, makeSeq, ValueOver.recode, recodeAll_eq_map, recodeStages_eq_map]

/-! ## Fields -/

@[simp]
theorem setField_recode (world : WorldOver Code) (reference : Reference) (field : Nat)
    (value : ValueOver Code) :
    (world.recode change).setField reference field (value.recode change)
      = (world.setField reference field value).recode change := by
  simp only [recode, setField]
  congr 1
  apply Array.ext
  · simp
  · intro position _ _
    simp only [Array.getElem_modify, Array.getElem_map]
    split <;> simp [List.map_set]

/-- Reading a field looks at no code. -/
theorem readField_recode (world : WorldOver Code) (target : ValueOver Code) (field : Nat) :
    (world.recode change).readField (target.recode change) field
      = (world.readField target field).map (ValueOver.recode change) := by
  simp only [readField, ValueOver.toReference_recode]
  cases target.toReference with
  | error mismatch => rfl
  | ok reference =>
      simp only [orMismatch, bind, Except.bind, fields_recode, List.getElem?_map]
      cases (world.fields reference)[field]? <;> rfl

/-- Assigning to a field looks at no code. -/
theorem writeField_recode (world : WorldOver Code) (target : ValueOver Code) (field : Nat)
    (value : ValueOver Code) :
    (world.recode change).writeField (target.recode change) field (value.recode change)
      = (world.writeField target field value).map (WorldOver.recode change) := by
  simp only [writeField, ValueOver.toReference_recode]
  cases target.toReference with
  | error mismatch => rfl
  | ok reference =>
      simp only [orMismatch, bind, Except.bind, fields_recode, List.length_map, setField_recode]
      split <;> rfl

end WorldOver

/-! ## Host functions -/

namespace ReplyOver

/-- Change the code of every closure in a reply. -/
def recode : ReplyOver Code → ReplyOver Other
  | .value answer world => .value (answer.recode change) (world.recode change)
  | .refuse error => .refuse error
  | .fault reason => .fault reason
  | .enumerate source stages goal =>
      .enumerate (source.map (ValueOver.recode change)) (stages.map (StageOver.recode change)) goal

@[simp]
theorem recode_value (answer : ValueOver Code) (world : WorldOver Code) :
    (value answer world).recode change
      = value (answer.recode change) (world.recode change) :=
  rfl

@[simp]
theorem recode_refuse (error : HostError) :
    (refuse error : ReplyOver Code).recode change = refuse error :=
  rfl

@[simp]
theorem recode_fault (reason : Fault) :
    (fault reason : ReplyOver Code).recode change = fault reason :=
  rfl

@[simp]
theorem recode_enumerate (source : List (ValueOver Code)) (stages : List (StageOver Code))
    (goal : Goal) :
    (enumerate source stages goal).recode change
      = enumerate (source.map (ValueOver.recode change)) (stages.map (StageOver.recode change))
          goal :=
  rfl

theorem recode_withArgument {Target : Type} (index : Nat) (converted : Except Mismatch Target)
    (next : Target → ReplyOver Code) :
    (withArgument index converted next).recode change
      = withArgument index converted fun target ↦ (next target).recode change := by
  cases converted <;> rfl

theorem withArgument_map {Source Target : Type} (index : Nat)
    (converted : Except Mismatch Source) (convert : Source → Target)
    (next : Target → ReplyOver Code) :
    withArgument index (converted.map convert) next
      = withArgument index converted fun source ↦ next (convert source) := by
  cases converted <;> rfl

theorem written_recode (world : WorldOver Code) (outcome : Except String Console) :
    written (world.recode change) outcome = (written world outcome).recode change := by
  cases outcome <;> rfl

theorem appendStage?_recode (stages : List (StageOver Code)) (stage : StageOver Code)
    (limit : Nat) :
    appendStage? (stages.map (StageOver.recode change)) (stage.recode change) limit
      = (appendStage? stages stage limit).map (List.map (StageOver.recode change)) := by
  simp only [appendStage?, List.length_map]
  split <;> simp

theorem extend_recode (world : WorldOver Code) (source : List (ValueOver Code))
    (stages : List (StageOver Code)) (stage : StageOver Code) :
    extend (world.recode change) (source.map (ValueOver.recode change))
        (stages.map (StageOver.recode change)) (stage.recode change)
      = (extend world source stages stage).recode change := by
  simp only [extend, appendStage?_recode]
  cases appendStage? stages stage maxStages with
  | none => rfl
  | some longer => simp only [Option.map_some, WorldOver.makeSeq_recode, recode]

end ReplyOver

@[simp]
theorem Goal.deliver_recode (goal : Goal) (items : List (ValueOver Code)) :
    goal.deliver (items.map (ValueOver.recode change)) = (goal.deliver items).recode change := by
  cases goal <;> simp [Goal.deliver]

end Machine

namespace HostAction

open Machine

variable {Code Other : Type} (change : Code → Other)

theorem extend_recode (world : WorldOver Code) (sequence closure : ValueOver Code)
    (stage : ClosureOver Code → StageOver Code) (stage' : ClosureOver Other → StageOver Other)
    (agrees : ∀ closure, stage' (closure.recode change) = (stage closure).recode change) :
    extend (world.recode change) (sequence.recode change) (closure.recode change) stage'
      = (extend world sequence closure stage).recode change := by
  simp only [extend, ValueOver.toSeq_recode, ValueOver.toClosure_recode,
    ReplyOver.withArgument_map, ReplyOver.recode_withArgument, agrees, ReplyOver.extend_recode]

/-- A host function refuses any other number of arguments than its own. -/
theorem reply_of_length_ne {action : HostAction} {arguments : List (ValueOver Code)}
    (wrong : arguments.length ≠ action.arity) (world : WorldOver Code) :
    action.reply arguments world = .refuse (.arity action.arity arguments.length) := by
  match arguments with
  | [] => cases action <;> rfl
  | [_] => cases action <;> first | rfl | exact absurd rfl wrong
  | [_, _] => cases action <;> first | rfl | exact absurd rfl wrong
  | _ :: _ :: _ :: _ => cases action <;> rfl

/-- What a host function does depends on no code. -/
theorem reply_recode (action : HostAction) (arguments : List (ValueOver Code))
    (world : WorldOver Code) :
    action.reply (arguments.map (ValueOver.recode change)) (world.recode change)
      = (action.reply arguments world).recode change := by
  by_cases count : arguments.length = action.arity
  · cases action with
    | seqFilter | seqMap =>
        obtain ⟨sequence, closure, rfl⟩ := List.length_eq_two.mp count
        exact extend_recode change world sequence closure _ _ fun _ ↦ rfl
    | _ =>
        obtain ⟨value, rfl⟩ := List.length_eq_one_iff.mp count
        simp [reply, ReplyOver.withArgument_map, ReplyOver.recode_withArgument,
          ReplyOver.written_recode]
  · have count' : (arguments.map (ValueOver.recode change)).length ≠ action.arity := by
      simpa only [List.length_map] using count
    rw [reply_of_length_ne count, reply_of_length_ne count', List.length_map]
    rfl

end HostAction

end GuestScript
