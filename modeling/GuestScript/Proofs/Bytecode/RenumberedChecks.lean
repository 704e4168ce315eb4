import GuestScript.Bytecode.Verify
import GuestScript.Proofs.Bytecode.Renumbering

/-!
# Checks of renumbered images

The check of an image asks whether positions exist, and a renumbering moves what exists to what
exists. So of two images that differ in their numbers alone, both pass or neither does.
-/

namespace GuestScript.Bytecode

/-- An image passes the check if there is nothing to complain of. -/
theorem Image.verify_eq_ok_iff {image : Image} :
    image.verify = .ok () ↔ (∀ entry ∈ image.entry, entry < image.routines.size) ∧
      (∀ type ∈ image.types, ∀ member ∈ type.initializer.toList ++ type.methods,
        member < image.routines.size) ∧
      ∀ routine ∈ image.routines, routine.defect? image = none := by
  have passes : image.verify = .ok () ↔ image.invalid? = none := by
    rw [Image.verify]
    cases image.invalid? with
    | none => exact ⟨fun _ ↦ rfl, fun _ ↦ rfl⟩
    | some invalid => exact ⟨nofun, nofun⟩
  have exists' {Defect : Type} {defect : Defect} {position size : Nat} :
      (if size ≤ position then some defect else none) = none ↔ position < size := by
    simp only [ite_eq_right_iff, reduceCtorEq, imp_false, Nat.not_le]
  rw [passes]
  simp only [Image.invalid?, Image.memberDefect?, Option.orElse_eq_orElse, Option.orElse_eq_or,
    Option.or_eq_none_iff, List.findSome?_eq_none_iff, Option.map_eq_none_iff, Array.mem_toList_iff,
    Option.bind_eq_none_iff, exists', Option.mem_def]

/-- What is related is on both sides or on neither. -/
theorem size_lt_iff_of_rel {Value Other : Type} {related : Value → Other → Prop}
    {values : Array Value} {others : Array Other} {old new : Nat}
    (here : Option.Rel related values[old]? others[new]?) :
    new < others.size ↔ old < values.size := by
  rw [← Nat.not_le, ← Nat.not_le, ← Array.getElem?_eq_none_iff, ← Array.getElem?_eq_none_iff]
  generalize values[old]? = value, others[new]? = other at here ⊢
  cases here <;> simp

/-- What holds of everything in one list holds of everything in the other one. -/
theorem forall_iff_of_rel {Value Other : Type} {related : Value → Other → Prop}
    {values : Array Value} {others : Array Other} {move : Equiv.Perm Nat}
    (here : ∀ index, Option.Rel related values[index]? others[move index]?)
    {holds : Value → Prop} {holds' : Other → Prop}
    (same : ∀ {value other}, related value other → (holds' other ↔ holds value)) :
    (∀ other ∈ others, holds' other) ↔ ∀ value ∈ values, holds value := by
  constructor
  · intro all value inside
    obtain ⟨index, found⟩ := Array.mem_iff_getElem?.mp inside
    have moved := here index
    rw [found] at moved
    generalize found' : others[move index]? = other at moved
    cases moved with
    | some related => exact (same related).mp (all _ (Array.mem_of_getElem? found'))
  · intro all other inside
    obtain ⟨index, found'⟩ := Array.mem_iff_getElem?.mp inside
    have moved := here (move.symm index)
    rw [Equiv.apply_symm_apply, found'] at moved
    generalize found : values[move.symm index]? = value at moved
    cases moved with
    | some related => exact (same related).mpr (all _ (Array.mem_of_getElem? found))

namespace Image.Renumbered

variable {renumbering : Renumbering} {image image' : Image}
  (renumbered : image.Renumbered renumbering image')

include renumbered

theorem routines_lt_iff (index : RoutineIndex) :
    renumbering.routines index < image'.routines.size ↔ index < image.routines.size :=
  size_lt_iff_of_rel (renumbered.routines index)

theorem types_lt_iff (index : TypeIndex) :
    renumbering.types index < image'.types.size ↔ index < image.types.size :=
  size_lt_iff_of_rel (renumbered.types index)

theorem imports_lt_iff (index : ImportIndex) :
    renumbering.imports index < image'.imports.size ↔ index < image.imports.size := by
  rw [← Nat.not_le, ← Nat.not_le, ← Array.getElem?_eq_none_iff, ← Array.getElem?_eq_none_iff,
    renumbered.imports index]

variable {routine routine' : Routine} (same : routine.Renumbered renumbering routine')

include same

/-- An instruction finds what it refers to in both images, or in neither. -/
theorem op_defect_iff (op : Op) :
    (renumbering.op op).defect? image' routine' = none ↔ op.defect? image routine = none := by
  have size : routine'.code.size = routine.code.size := by
    rw [← Array.length_toList, same.code, Renumbering.length_code, Array.length_toList]
  have moved {Defect : Type} {defect defect' : Defect} {old new size size' : Nat}
      (inside : new < size' ↔ old < size) :
      (if size' ≤ new then some defect' else none) = none
        ↔ (if size ≤ old then some defect else none) = none := by
    simp only [ite_eq_right_iff, reduceCtorEq, imp_false, Nat.not_le, inside]
  cases op with
  | makeClosure callee _ | call callee _ => exact moved (renumbered.routines_lt_iff callee)
  | construct type => exact moved (renumbered.types_lt_iff type)
  | callHost imported _ => exact moved (renumbered.imports_lt_iff imported)
  | _ => simp only [Renumbering.op, Op.defect?, same.locals, size]

/-- A routine is right in both images, or in neither. -/
theorem defect_iff : routine'.defect? image' = none ↔ routine.defect? image = none := by
  have arguments : routine'.argumentsDefect? = routine.argumentsDefect? := by
    rw [Routine.argumentsDefect?, Routine.argumentsDefect?, same.locals, same.arity, same.binding]
  have owner : routine'.ownerDefect? image' = none ↔ routine.ownerDefect? image = none := by
    rw [Routine.ownerDefect?, Routine.ownerDefect?, same.owner]
    cases routine.owner with
    | none => exact Iff.rfl
    | some owner =>
        simp only [Option.map_some, ite_eq_right_iff, reduceCtorEq, imp_false, Nat.not_le,
          renumbered.types_lt_iff]
  have needed (op : Op) : (renumbering.op op).slotsNeeded = op.slotsNeeded := by
    cases op <;> rfl
  have addressed : routine'.slotsAddressed = routine.slotsAddressed := by
    rw [Routine.slotsAddressed, Routine.slotsAddressed, ← Array.foldl_toList, ← Array.foldl_toList,
      same.code, Renumbering.code, List.foldl_map]
    simp only [needed]
  have locals : routine'.localsDefect? = routine.localsDefect? := by
    rw [Routine.localsDefect?, Routine.localsDefect?, addressed, same.locals, same.arity]
  have code : routine'.code.toList.findSome? (Op.defect? image' routine') = none
      ↔ routine.code.toList.findSome? (Op.defect? image routine) = none := by
    rw [List.findSome?_eq_none_iff, List.findSome?_eq_none_iff, same.code, Renumbering.code,
      List.forall_mem_map]
    exact forall₂_congr fun op _ ↦ renumbered.op_defect_iff same op
  simp only [Routine.defect?, Option.orElse_eq_orElse, Option.orElse_eq_or, Option.or_eq_none_iff,
    arguments, owner, locals, code]

omit same in
/-- Of two images that differ in their numbers alone, both pass the check or neither does. -/
theorem verify_iff : image'.verify = .ok () ↔ image.verify = .ok () := by
  have entry : (∀ entry ∈ image'.entry, entry < image'.routines.size)
      ↔ ∀ entry ∈ image.entry, entry < image.routines.size := by
    rw [renumbered.entry]
    cases image.entry with
    | none => exact ⟨fun _ ↦ nofun, fun _ ↦ nofun⟩
    | some entry => simp [renumbered.routines_lt_iff]
  have members : (∀ type ∈ image'.types, ∀ member ∈ type.initializer.toList ++ type.methods,
        member < image'.routines.size)
      ↔ ∀ type ∈ image.types, ∀ member ∈ type.initializer.toList ++ type.methods,
        member < image.routines.size := by
    refine forall_iff_of_rel renumbered.types fun {type type'} same ↦ ?_
    have moved : (type'.initializer.toList ++ type'.methods).Perm
        ((type.initializer.toList ++ type.methods).map renumbering.routines) := by
      rw [List.map_append, same.initializer, Option.toList_map]
      exact same.methods.append_left _
    simp only [moved.mem_iff, List.forall_mem_map, renumbered.routines_lt_iff]
  have routines := forall_iff_of_rel renumbered.routines renumbered.defect_iff
  rw [Image.verify_eq_ok_iff, Image.verify_eq_ok_iff, entry, members, routines]

end Image.Renumbered

end GuestScript.Bytecode
