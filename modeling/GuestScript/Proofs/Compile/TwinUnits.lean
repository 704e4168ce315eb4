import GuestScript.Proofs.Compile.TwinParts

/-!
# Units in step

An `Outline` has the types of a unit and the draft in which they were declared: all that is known
of the unit before its bodies are compiled. Two outlines may have the same types in another order.
`Outline.Reordered` says so, and that a renumbering moves everything from its place in the one unit
to its place in the other one: types, routines and lambdas by the labels that the ledgers of the
units give them, and imports as they are in the end. Every part of the one unit then stays in step
with its twin in the other one, although the drafts that they start from have little in common. At
the end of the units this comes together: they have the same findings, imports, routines and types
up to the order.
-/

namespace GuestScript.Compile

open Bytecode (Import ImportIndex Renumbering Routine RoutineIndex TypeDefinition TypeIndex
  getElem?_of_perm position_unique)
open Lowering
open Meaning (settingOf)

/-- The types of a unit, and the draft in which they have been declared. -/
structure Outline where
  types : List TypeInfo
  start : Draft

namespace Outline

/-- The parts that are to be compiled. -/
def parts (outline : Outline) : List Part :=
  partsFrom 0 outline.types

/-- The draft before the part at a position is compiled. -/
def stage (references : ReferenceSet) (outline : Outline) (position : Nat) : Draft :=
  runParts references outline.types (outline.parts.take position) outline.start

/-- The draft after all parts have been compiled. -/
def final (references : ReferenceSet) (outline : Outline) : Draft :=
  runParts references outline.types outline.parts outline.start

/-- What routines are known by: reserved ones by their functions, and others by what has added
them. -/
def routineLabels (outline : Outline) : List (PartKey × Option Nat) :=
  ((outline.parts.flatMap Part.reserved).map Prod.fst).map (fun key ↦ (key, none))
    ++ (ledger Part.added outline.parts).map fun entry ↦ (entry.1, some entry.2)

/-- What lambdas are known by. No lambda has the number zero. -/
def lambdaLabels (outline : Outline) : List (Option (PartKey × Nat)) :=
  none :: (ledger Part.lambdas outline.parts).map some

/-- Types are declared in a draft: their parts can be told apart, and routines are reserved for the
functions in order, and nothing else is there. -/
structure IsDeclared (outline : Outline) : Prop where
  keys : (outline.parts.map Part.key).Nodup
  numbers : outline.parts.flatMap Part.filled = List.range outline.start.routines.size
  routines : ∀ part ∈ outline.parts, ∀ method ∈ part.member,
    outline.start.routines[method.routine]?
      = some (routineOf part.owner method.declaration method.parameters)
  imports : outline.start.imports = #[]
  lambdas : outline.start.lambdas = 0

theorem keys_reserved : (parts : List Part) →
    (parts.flatMap Part.reserved).map Prod.fst
      = (parts.map Part.key).filter fun key ↦ key.2.isSome
  | [] => rfl
  | ⟨_, _, member⟩ :: rest => by
      rw [List.flatMap_cons, List.map_append, keys_reserved rest, List.map_cons, List.filter_cons]
      cases member <;> rfl

/-! ## From stage to stage -/

section Stages

variable {references : ReferenceSet} {outline : Outline} {position : Nat} {part : Part}

theorem stage_succ (found : outline.parts[position]? = some part) :
    outline.stage references (position + 1)
      = (part.define references outline.types (outline.stage references position)).2 :=
  runParts_take_succ found outline.start

theorem stage_length (references : ReferenceSet) (outline : Outline) :
    outline.stage references outline.parts.length = outline.final references := by
  rw [stage, List.take_length]
  rfl

namespace IsDeclared

variable (declared : outline.IsDeclared)

include declared

theorem grown (references : ReferenceSet) (position : Nat) :
    outline.start.Grown references ((outline.parts.take position).flatMap Part.filled)
      ((outline.parts.take position).map Part.added).sum
      ((outline.parts.take position).map Part.lambdas).sum (outline.stage references position) :=
  adds_runParts _ (declared.imports ▸ importsFrom_empty references)

theorem grown_final (references : ReferenceSet) (position : Nat) :
    (outline.stage references position).Grown references
      ((outline.parts.drop position).flatMap Part.filled)
      ((outline.parts.drop position).map Part.added).sum
      ((outline.parts.drop position).map Part.lambdas).sum (outline.final references) := by
  rw [final, ← runParts_drop outline.parts position]
  exact adds_runParts _ (declared.grown references position).imports

theorem grown_succ (references : ReferenceSet) (found : outline.parts[position]? = some part) :
    (outline.stage references position).Grown references part.filled part.added part.lambdas
      (outline.stage references (position + 1)) := by
  rw [stage_succ found]
  exact part.adds_define (declared.grown references position).imports

theorem size_le (references : ReferenceSet) (position : Nat) :
    outline.start.routines.size ≤ (outline.stage references position).routines.size :=
  (declared.grown references position).fills.size

/-- The routine of a function has been reserved. -/
theorem inside (member : part ∈ outline.parts) {method : MethodInfo} (own : method ∈ part.member) :
    method.routine < outline.start.routines.size :=
  (Array.getElem?_eq_some_iff.mp (declared.routines part member method own)).1

/-- Only reserved routines are completed. -/
theorem filled_lt {parts : List Part} (within : parts ⊆ outline.parts) {index : RoutineIndex}
    (filled : index ∈ parts.flatMap Part.filled) : index < outline.start.routines.size := by
  obtain ⟨part, inside, filled⟩ := List.mem_flatMap.mp filled
  have listed : index ∈ outline.parts.flatMap Part.filled :=
    List.mem_flatMap.mpr ⟨part, within inside, filled⟩
  rw [declared.numbers] at listed
  exact List.mem_range.mp listed

/-- Every reserved routine is that of a function. -/
theorem exists_function {index : RoutineIndex} (inside : index < outline.start.routines.size) :
    ∃ part ∈ outline.parts, ∃ method ∈ part.member, method.routine = index := by
  have filled := List.mem_range.mpr inside
  rw [← declared.numbers, List.mem_flatMap] at filled
  obtain ⟨part, member, filled⟩ := filled
  obtain ⟨entry, listed, rfl⟩ := List.mem_map.mp filled
  obtain ⟨method, own, rfl⟩ := Option.map_eq_some_iff.mp (Option.mem_toList.mp listed)
  exact ⟨part, member, method, own, rfl⟩

/-- The routine of a function is completed with the function, and neither before nor afterwards. -/
theorem apart (found : outline.parts[position]? = some part) {method : MethodInfo}
    (own : method ∈ part.member) :
    method.routine ∉ (outline.parts.take position).flatMap Part.filled ∧
      method.routine ∉ (outline.parts.drop (position + 1)).flatMap Part.filled := by
  obtain ⟨within, rfl⟩ := List.getElem?_eq_some_iff.mp found
  have here : method.routine ∈ outline.parts[position].filled := by
    rw [Part.filled, Part.reserved, Option.mem_def.mp own]
    exact List.mem_singleton_self _
  have nodup : (outline.parts.flatMap Part.filled).Nodup := declared.numbers ▸ List.nodup_range
  rw [← List.take_append_drop position outline.parts, ← List.getElem_cons_drop within,
    List.flatMap_append, List.flatMap_cons, List.nodup_append] at nodup
  obtain ⟨-, later, earlier⟩ := nodup
  refine ⟨fun inside ↦ earlier _ inside _ (List.mem_append_left _ here) rfl, fun inside ↦ ?_⟩
  exact (List.nodup_append.mp later).2.2 _ here _ inside rfl

/-- What a part leads to has no more than there is afterwards, with all imports that there are in
the end. -/
theorem within_define (references : ReferenceSet)
    (found : outline.parts[position]? = some part) :
    (part.define references outline.types (outline.stage references position)).2.Within
      { outline.stage references (position + 1) with
        imports := (outline.final references).imports } := by
  rw [stage_succ found]
  refine ⟨?_, Nat.le_refl _, Nat.le_refl _⟩
  rw [← stage_succ found]
  exact (declared.grown_final references (position + 1)).fills.imports

/-- What is imported in the end is imported for some part. -/
theorem exists_importer {imported : Import} : (position : Nat) →
    imported ∈ (outline.stage references position).imports →
    ∃ (earlier : Nat) (part : Part), outline.parts[earlier]? = some part ∧
      imported ∉ (outline.stage references earlier).imports ∧
      imported ∈ (outline.stage references (earlier + 1)).imports
  | 0, inside => by
      change imported ∈ outline.start.imports at inside
      rw [declared.imports] at inside
      exact absurd inside (Array.not_mem_empty imported)
  | position + 1, inside => by
      by_cases before : imported ∈ (outline.stage references position).imports
      · exact exists_importer position before
      · cases found : outline.parts[position]? with
        | some part => exact ⟨position, part, found, before, inside⟩
        | none =>
            rw [stage, List.take_add_one, found, Option.toList_none, List.append_nil] at inside
            exact absurd inside before

/-- In the end every function is imported once. -/
theorem nodup_imports (references : ReferenceSet) :
    (outline.final references).imports.toList.Nodup := by
  have imports := (declared.grown references outline.parts.length).imports
  rw [stage_length] at imports
  exact imports.once.of_map

/-- Routines that come after what has been reserved stay as they are once they have been added. -/
theorem routine_final (references : ReferenceSet) {index : RoutineIndex}
    (inside : index < (outline.stage references position).routines.size)
    (apart : index ∉ (outline.parts.drop position).flatMap Part.filled) :
    (outline.final references).routines[index]?
      = (outline.stage references position).routines[index]? :=
  (declared.grown_final references position).fills.routines inside apart

/-! ### Labels -/

theorem nodup_routineLabels : outline.routineLabels.Nodup := by
  have reserved : (((outline.parts.flatMap Part.reserved).map Prod.fst).map fun key ↦
      ((key, none) : PartKey × Option Nat)).Nodup := by
    rw [keys_reserved]
    exact (declared.keys.filter _).map fun _ _ same ↦ (Prod.mk.inj same).1
  have added : ((ledger Part.added outline.parts).map fun entry ↦
      ((entry.1, some entry.2) : PartKey × Option Nat)).Nodup := by
    refine (nodup_ledger declared.keys).map fun entry other same ↦ ?_
    obtain ⟨key, number⟩ := Prod.mk.inj same
    exact Prod.ext key (Option.some.inj number)
  refine List.nodup_append.mpr ⟨reserved, added, fun label here other there same ↦ ?_⟩
  obtain ⟨_, -, rfl⟩ := List.mem_map.mp here
  obtain ⟨_, -, rfl⟩ := List.mem_map.mp there
  exact absurd (Prod.mk.inj same).2 nofun

theorem nodup_lambdaLabels : outline.lambdaLabels.Nodup := by
  refine List.nodup_cons.mpr ⟨by simp, ?_⟩
  exact (nodup_ledger declared.keys).map fun _ _ ↦ Option.some.inj

theorem length_reserved :
    (outline.parts.flatMap Part.reserved).length = outline.start.routines.size := by
  have numbers := congrArg List.length declared.numbers
  rwa [List.length_range, ← List.map_flatMap, List.length_map] at numbers

/-- There are as many labels as routines. -/
theorem length_routineLabels (references : ReferenceSet) :
    outline.routineLabels.length = (outline.final references).routines.size := by
  have size := (declared.grown references outline.parts.length).size
  rw [stage_length, List.take_length] at size
  rw [routineLabels, List.length_append, List.length_map, List.length_map, List.length_map,
    length_ledger, declared.length_reserved, size]

/-- The routine of a function has the label of the function. -/
theorem label_reserved (member : part ∈ outline.parts) {method : MethodInfo}
    (own : method ∈ part.member) :
    outline.routineLabels[method.routine]? = some (part.key, none) := by
  have listed : (part.key, method.routine) ∈ outline.parts.flatMap Part.reserved := by
    refine List.mem_flatMap.mpr ⟨part, member, ?_⟩
    rw [Part.reserved, Option.mem_def.mp own]
    exact List.mem_singleton_self _
  obtain ⟨place, found⟩ := List.mem_iff_getElem?.mp listed
  -- Routines are reserved in order, so it is at this place in the list, too.
  have numbers : (List.range outline.start.routines.size)[place]? = some method.routine := by
    rw [← declared.numbers, ← List.map_flatMap, List.getElem?_map, found]
    rfl
  have inside := (List.getElem?_eq_some_iff.mp numbers).1
  rw [List.length_range] at inside
  rw [List.getElem?_range inside] at numbers
  obtain rfl := Option.some.inj numbers
  have within := (List.getElem?_eq_some_iff.mp found).1
  rw [routineLabels, List.getElem?_append_left (by simpa using within), List.getElem?_map,
    List.getElem?_map, found]
  rfl

/-- The routines that a part adds are labelled with its key. -/
theorem label_added (references : ReferenceSet) (found : outline.parts[position]? = some part)
    {number : Nat} (inside : number < part.added) :
    outline.routineLabels[(outline.stage references position).routines.size + number]?
      = some (part.key, some number) := by
  have here := ledger_at found inside
  rw [routineLabels, (declared.grown references position).size,
    List.getElem?_append_right (by
      rw [List.length_map, List.length_map, declared.length_reserved]
      omega),
    List.length_map, List.length_map, declared.length_reserved, List.getElem?_map, Nat.add_assoc,
    Nat.add_sub_cancel_left, here]
  rfl

/-- The lambdas of a part are labelled with its key. -/
theorem label_lambda (references : ReferenceSet) (found : outline.parts[position]? = some part)
    {number : Nat} (inside : number < part.lambdas) :
    outline.lambdaLabels[(outline.stage references position).lambdas + number + 1]?
      = some (some (part.key, number)) := by
  have here := ledger_at found inside
  rw [(declared.grown references position).lambdas, declared.lambdas, Nat.zero_add, lambdaLabels,
    List.getElem?_cons_succ, List.getElem?_map, here]
  rfl

end IsDeclared

end Stages

/-! ## Two units -/

/-- The types of one unit are those of another one, and a renumbering moves everything from its
place in the one unit to its place in the other one. -/
structure Reordered (references : ReferenceSet) (renumbering : Renumbering)
    (outline outline' : Outline) : Prop where
  declared : outline.IsDeclared
  declared' : outline'.IsDeclared
  types : TypesReordered renumbering outline.types outline'.types
  routines : ∀ {label : PartKey × Option Nat} {old new : RoutineIndex},
    outline.routineLabels[old]? = some label → outline'.routineLabels[new]? = some label →
    renumbering.routines old = new
  lambdas : ∀ {label : Option (PartKey × Nat)} {old new : Nat},
    outline.lambdaLabels[old]? = some label → outline'.lambdaLabels[new]? = some label →
    renumbering.lambdas old = new
  imports : ∀ {imported : Import} {old new : ImportIndex},
    (outline.final references).imports[old]? = some imported →
    (outline'.final references).imports[new]? = some imported → renumbering.imports old = new

namespace Reordered

variable {references : ReferenceSet} {renumbering : Renumbering} {outline outline' : Outline}
  (reordered : Reordered references renumbering outline outline')

include reordered

/-- Every part has a twin. -/
theorem exists_twin {position : Nat} {part : Part} (found : outline.parts[position]? = some part) :
    ∃ (position' : Nat) (part' : Part), outline'.parts[position']? = some part' ∧
      part.Twin renumbering part' := by
  obtain ⟨place, owner, here, members⟩ :=
    (mem_partsFrom outline.types 0).mp (List.mem_of_getElem? found)
  rw [Nat.zero_add] at owner
  obtain ⟨none, -⟩ | ⟨info, info', there, there', same⟩ := reordered.types.cases place
  · exact absurd (none.symm.trans here) nofun
  · obtain rfl := Option.some.inj (here.symm.trans there)
    let part' : Part := ⟨renumbering.types part.owner, info',
      part.member.map (MethodInfo.renumber renumbering)⟩
    have inside : part' ∈ outline'.parts := by
      refine (mem_partsFrom outline'.types 0).mpr
        ⟨renumbering.types place, by rw [Nat.zero_add, ← owner], there', ?_⟩
      intro method own
      obtain ⟨source, listed, rfl⟩ := Option.map_eq_some_iff.mp own
      exact same.methods.mem_iff.mpr (List.mem_map_of_mem (members source listed))
    obtain ⟨position', found'⟩ := List.mem_iff_getElem?.mp inside
    exact ⟨position', part', found', ⟨rfl, same, rfl⟩⟩

/-- Every part of the other unit is a twin. -/
theorem exists_source {position' : Nat} {part' : Part}
    (found' : outline'.parts[position']? = some part') :
    ∃ (position : Nat) (part : Part), outline.parts[position]? = some part ∧
      part.Twin renumbering part' := by
  obtain ⟨place, owner, here, members⟩ :=
    (mem_partsFrom outline'.types 0).mp (List.mem_of_getElem? found')
  rw [Nat.zero_add] at owner
  have moved := reordered.types.cases (renumbering.types.symm place)
  rw [Equiv.apply_symm_apply] at moved
  obtain ⟨-, none⟩ | ⟨info, info', there, there', same⟩ := moved
  · exact absurd (none.symm.trans here) nofun
  · obtain rfl := Option.some.inj (here.symm.trans there')
    have source : ∃ member : Option MethodInfo,
        part'.member = member.map (MethodInfo.renumber renumbering) ∧
        ∀ method ∈ member, method ∈ info.methods := by
      cases own : part'.member with
      | none => exact ⟨none, rfl, nofun⟩
      | some method' =>
          obtain ⟨method, listed, rfl⟩ :=
            List.mem_map.mp (same.methods.mem_iff.mp (members method' own))
          exact ⟨some method, rfl, fun _ same ↦ Option.some.inj same ▸ listed⟩
    obtain ⟨member, own, inside⟩ := source
    let part : Part := ⟨renumbering.types.symm place, info, member⟩
    have listed : part ∈ outline.parts :=
      (mem_partsFrom outline.types 0).mpr ⟨_, (Nat.zero_add _).symm, there, inside⟩
    obtain ⟨position, found⟩ := List.mem_iff_getElem?.mp listed
    refine ⟨position, part, found, ⟨?_, same, own⟩⟩
    rw [owner, Equiv.apply_symm_apply]

/-- What is the same for parts and their twins is the same for both units, up to the order. -/
theorem perm_counted {Counted : Type} {count count' : Part → Counted}
    (same : ∀ {part part' : Part}, part.Twin renumbering part' → count' part' = count part) :
    (outline'.parts.map fun part ↦ (part.key, count' part)).Perm
      (outline.parts.map fun part ↦ (part.key, count part)) := by
  have nodup {outline : Outline} (declared : outline.IsDeclared) (count : Part → Counted) :
      (outline.parts.map fun part ↦ (part.key, count part)).Nodup := by
    refine List.Nodup.of_map Prod.fst ?_
    rw [List.map_map]
    exact declared.keys
  refine (List.perm_ext_iff_of_nodup (nodup reordered.declared' count')
    (nodup reordered.declared count)).mpr fun counted ↦ ?_
  constructor
  · intro inside
    obtain ⟨part', listed, rfl⟩ := List.mem_map.mp inside
    obtain ⟨_, found'⟩ := List.mem_iff_getElem?.mp listed
    obtain ⟨_, part, found, twin⟩ := reordered.exists_source found'
    rw [twin.key, same twin]
    exact List.mem_map_of_mem (List.mem_of_getElem? found)
  · intro inside
    obtain ⟨part, listed, rfl⟩ := List.mem_map.mp inside
    obtain ⟨_, found⟩ := List.mem_iff_getElem?.mp listed
    obtain ⟨_, part', found', twin⟩ := reordered.exists_twin found
    rw [← twin.key, ← same twin]
    exact List.mem_map_of_mem (List.mem_of_getElem? found')

/-- What is the same for parts and their twins, without their keys. -/
theorem perm_read {Counted : Type} {read read' : Part → Counted}
    (same : ∀ {part part' : Part}, part.Twin renumbering part' → read' part' = read part) :
    (outline'.parts.map read').Perm (outline.parts.map read) := by
  have perm := (reordered.perm_counted same).map Prod.snd
  rwa [List.map_map, List.map_map] at perm

theorem perm_keys : (outline'.parts.map Part.key).Perm (outline.parts.map Part.key) :=
  reordered.perm_read Part.Twin.key

theorem perm_routineLabels : outline'.routineLabels.Perm outline.routineLabels := by
  refine List.Perm.append (List.Perm.map _ ?_) (List.Perm.map _ ?_)
  · rw [keys_reserved, keys_reserved]
    exact reordered.perm_keys.filter _
  · exact perm_ledger (reordered.perm_counted Part.Twin.added)

/-! ### Frames of parts -/

variable {position position' : Nat} {part part' : Part}

omit reordered in
/-- What a part and its twin start from and lead to. All imports count that there are in the end. -/
def frameAt (references : ReferenceSet) (renumbering : Renumbering) (outline outline' : Outline)
    (position position' : Nat) : Frame where
  references
  renumbering
  first := outline.stage references position
  first' := outline'.stage references position'
  last := { outline.stage references (position + 1) with
    imports := (outline.final references).imports }
  last' := { outline'.stage references (position' + 1) with
    imports := (outline'.final references).imports }

/-- The renumbering moves what a part adds to what its twin adds. -/
theorem sound_frameAt (found : outline.parts[position]? = some part)
    (found' : outline'.parts[position']? = some part') (twin : part.Twin renumbering part') :
    (frameAt references renumbering outline outline' position position').Sound where
  routines count inside inside' := by
    have size := (reordered.declared.grown_succ references found).size
    have size' := (reordered.declared'.grown_succ references found').size
    have within : count < part.added := by
      change (outline.stage references position).routines.size + count
        < (outline.stage references (position + 1)).routines.size at inside
      rw [size] at inside
      exact Nat.lt_of_add_lt_add_left inside
    have label' := reordered.declared'.label_added references found' (twin.added ▸ within)
    rw [twin.key] at label'
    exact reordered.routines (reordered.declared.label_added references found within) label'
  lambdas count inside inside' := by
    have numbered := (reordered.declared.grown_succ references found).lambdas
    have within : count < part.lambdas := by
      change (outline.stage references position).lambdas + count
        < (outline.stage references (position + 1)).lambdas at inside
      rw [numbered] at inside
      exact Nat.lt_of_add_lt_add_left inside
    have label' := reordered.declared'.label_lambda references found' (twin.lambdas ▸ within)
    rw [twin.key] at label'
    exact reordered.lambdas (reordered.declared.label_lambda references found within) label'
  imports := reordered.imports

theorem alike_frameAt (found : outline.parts[position]? = some part)
    (found' : outline'.parts[position']? = some part') (twin : part.Twin renumbering part') :
    (frameAt references renumbering outline outline' position position').Alike
      (outline.stage references (position + 1)) (outline'.stage references (position' + 1)) := by
  let frame := frameAt references renumbering outline outline' position position'
  have older : ∀ method ∈ part.member, method.routine < frame.first.routines.size ∧
      renumbering.routines method.routine < frame.first'.routines.size := by
    intro method own
    have own' : method.renumber renumbering ∈ part'.member := by
      rw [twin.member, Option.mem_def.mp own]
      rfl
    exact ⟨Nat.lt_of_lt_of_le (reordered.declared.inside (List.mem_of_getElem? found) own)
        (reordered.declared.size_le references position),
      Nat.lt_of_lt_of_le (reordered.declared'.inside (List.mem_of_getElem? found') own')
        (reordered.declared'.size_le references position')⟩
  have sound : frame.Sound := reordered.sound_frameAt found found' twin
  have start : frame.Alike frame.first frame.first' := Frame.alike_start
    (reordered.declared.grown references position).imports
    (reordered.declared'.grown references position').imports
  rw [stage_succ found, stage_succ found']
  exact ((twin.define sound reordered.types older).alike start
    (reordered.declared.within_define references found)
    (reordered.declared'.within_define references found')).2

/-! ### The end of the units -/

/-- Both units import the same. -/
theorem perm_imports : (outline'.final references).imports.toList.Perm
    (outline.final references).imports.toList := by
  refine (List.perm_ext_iff_of_nodup (reordered.declared'.nodup_imports references)
    (reordered.declared.nodup_imports references)).mpr ?_
  intro imported
  rw [Array.mem_toList_iff, Array.mem_toList_iff]
  have kept {outline : Outline} (declared : outline.IsDeclared) {position : Nat}
      (inside : imported ∈ (outline.stage references position).imports) :
      imported ∈ (outline.final references).imports := by
    obtain ⟨index, found⟩ := Array.mem_iff_getElem?.mp inside
    exact Array.mem_of_getElem? ((declared.grown_final references position).fills.imports found)
  constructor
  · intro inside
    rw [← stage_length] at inside
    obtain ⟨position', part', found', before, after⟩ := reordered.declared'.exists_importer _ inside
    obtain ⟨position, part, found, twin⟩ := reordered.exists_source found'
    obtain old | new := (reordered.alike_frameAt found found' twin).gained' imported after
    · exact absurd old before
    · exact kept reordered.declared new
  · intro inside
    rw [← stage_length] at inside
    obtain ⟨position, part, found, before, after⟩ := reordered.declared.exists_importer _ inside
    obtain ⟨position', part', found', twin⟩ := reordered.exists_twin found
    obtain old | new := (reordered.alike_frameAt found found' twin).gained imported after
    · exact absurd old before
    · exact kept reordered.declared' new

/-- What is found in a part can be told from the key of the part. -/
theorem exists_noted : ∃ noted : PartKey → List (Diagnostic Span),
    (∀ {position : Nat} {part : Part}, outline.parts[position]? = some part →
      (outline.stage references (position + 1)).findings
        = noted part.key ++ (outline.stage references position).findings) ∧
    ∀ {position : Nat} {part : Part}, outline'.parts[position]? = some part →
      (outline'.stage references (position + 1)).findings
        = noted part.key ++ (outline'.stage references position).findings := by
  have unique {outline : Outline} (declared : outline.IsDeclared) {position other : Nat}
      {part part' : Part} (found : outline.parts[position]? = some part)
      (found' : outline.parts[other]? = some part') (same : part'.key = part.key) :
      position = other := by
    refine @position_unique _ _ declared.keys part.key _ _ ?_ ?_
    · rw [List.getElem?_map, found]
      rfl
    · rw [List.getElem?_map, found', ← same]
      rfl
  have each (key : PartKey) : ∃ added : List (Diagnostic Span),
      (∀ {position : Nat} {part : Part}, outline.parts[position]? = some part → part.key = key →
        (outline.stage references (position + 1)).findings
          = added ++ (outline.stage references position).findings) ∧
      ∀ {position : Nat} {part : Part}, outline'.parts[position]? = some part → part.key = key →
        (outline'.stage references (position + 1)).findings
          = added ++ (outline'.stage references position).findings := by
    by_cases known : ∃ (position : Nat) (part : Part), outline.parts[position]? = some part ∧
        part.key = key
    · obtain ⟨position, part, found, rfl⟩ := known
      obtain ⟨position', part', found', twin⟩ := reordered.exists_twin found
      obtain ⟨added, same, same'⟩ := (reordered.alike_frameAt found found' twin).findings
      refine ⟨added, fun here key ↦ ?_, fun there key ↦ ?_⟩
      · obtain rfl := unique reordered.declared found here key
        exact same
      · obtain rfl := unique reordered.declared' found' there (key.trans twin.key.symm)
        exact same'
    · refine ⟨[], fun here key ↦ absurd ⟨_, _, here, key⟩ known, fun there key ↦ ?_⟩
      obtain ⟨position, part, found, twin⟩ := reordered.exists_source there
      exact absurd ⟨position, part, found, twin.key.symm.trans key⟩ known
  choose noted here there using each
  exact ⟨noted, fun found ↦ here _ found rfl, fun found ↦ there _ found rfl⟩

omit reordered in
/-- Findings pile up part by part. -/
theorem findings_stage {noted : PartKey → List (Diagnostic Span)}
    (each : ∀ {position : Nat} {part : Part}, outline.parts[position]? = some part →
      (outline.stage references (position + 1)).findings
        = noted part.key ++ (outline.stage references position).findings) :
    (position : Nat) → (outline.stage references position).findings
      = (((outline.parts.take position).map Part.key).map noted).reverse.flatten
        ++ outline.start.findings
  | 0 => rfl
  | position + 1 => by
      have before := findings_stage each position
      cases found : outline.parts[position]? with
      | some part =>
          rw [each found, before, List.take_add_one, found]
          simp
      | none =>
          rw [stage, List.take_add_one, found, Option.toList_none, List.append_nil]
          exact before

/-- Both units have the same findings, if their declarations have. -/
theorem perm_findings (declared : outline'.start.findings.Perm outline.start.findings) :
    (outline'.final references).findings.Perm (outline.final references).findings := by
  obtain ⟨noted, here, there⟩ := reordered.exists_noted
  rw [← stage_length, ← stage_length, findings_stage here, findings_stage there, List.take_length,
    List.take_length]
  refine List.Perm.append (List.Perm.flatten ?_) declared
  exact (List.reverse_perm _).trans
    ((reordered.perm_keys.map noted).trans (List.reverse_perm _).symm)

omit reordered in
/-- A reserved routine is there until its function is compiled. -/
theorem reserved_stage (declared : outline.IsDeclared)
    (found : outline.parts[position]? = some part) {method : MethodInfo}
    (own : method ∈ part.member) :
    (outline.stage references position).routines[method.routine]?
      = some (routineOf part.owner method.declaration method.parameters) := by
  have member := List.mem_of_getElem? found
  rw [(declared.grown references position).fills.routines (declared.inside member own)
    (declared.apart found own).1]
  exact declared.routines part member method own

/-- The routine of a function is in its place in the other unit. -/
theorem function_routine (found : outline.parts[position]? = some part) {method : MethodInfo}
    (own : method ∈ part.member) :
    Option.Rel (Routine.Renumbered renumbering)
      (outline.final references).routines[method.routine]?
      (outline'.final references).routines[renumbering.routines method.routine]? := by
  obtain ⟨position', part', found', twin⟩ := reordered.exists_twin found
  have own' : method.renumber renumbering ∈ part'.member := by
    rw [twin.member, Option.mem_def.mp own]
    rfl
  have inside := reordered.declared.inside (List.mem_of_getElem? found) own
  have inside' : renumbering.routines method.routine < outline'.start.routines.size :=
    reordered.declared'.inside (List.mem_of_getElem? found') own'
  have reserved : (outline.stage references position).routines[method.routine]?
      = some (routineOf part.owner method.declaration method.parameters) :=
    reserved_stage reordered.declared found own
  have reserved' : (outline'.stage references position').routines[renumbering.routines
      method.routine]? = some (routineOf part'.owner method.declaration method.parameters) :=
    reserved_stage reordered.declared' found' own'
  have same : (routineOf part.owner method.declaration method.parameters).Renumbered renumbering
      (routineOf part'.owner method.declaration method.parameters) :=
    { name := renumbering.renames_self _
      named := fun _ ↦ rfl
      owner := congrArg some twin.owner
      visibility := rfl
      binding := rfl
      arity := rfl
      locals := rfl
      code := rfl }
  -- Nothing is completed twice, so what counts is the draft behind the function.
  rw [reordered.declared.routine_final references
      (Nat.lt_of_lt_of_le inside (reordered.declared.size_le references (position + 1)))
      (reordered.declared.apart found own).2,
    reordered.declared'.routine_final references
      (Nat.lt_of_lt_of_le inside' (reordered.declared'.size_le references (position' + 1)))
      (reordered.declared'.apart found' own').2,
    stage_succ found, stage_succ found']
  let frame := frameAt references renumbering outline outline' position position'
  have sound : frame.Sound := reordered.sound_frameAt found found' twin
  have ended := reordered.declared.within_define references found
  have ended' := reordered.declared'.within_define references found'
  obtain ⟨owner, info, member⟩ := part
  obtain ⟨_, info', _⟩ := part'
  obtain ⟨rfl, like, rfl⟩ := twin
  obtain rfl : member = some method := own
  have settings := settingsReordered_settingOf references reordered.types like owner
  exact routines_defineMethod sound
    { settings with routineName := renumbering.renames_self _, result := rfl }
    (reordered.declared.grown references position).imports
    (reordered.declared'.grown references position').imports ended ended' reserved reserved' same

/-- A routine that a part adds is in its place in the other unit. -/
theorem added_routine (found : outline.parts[position]? = some part) {number : Nat}
    (inside : number < part.added) :
    Option.Rel (Routine.Renumbered renumbering)
      (outline.final references).routines[
        (outline.stage references position).routines.size + number]?
      (outline'.final references).routines[renumbering.routines
        ((outline.stage references position).routines.size + number)]? := by
  obtain ⟨position', part', found', twin⟩ := reordered.exists_twin found
  have behind {outline : Outline} (declared : outline.IsDeclared) {position : Nat} {part : Part}
      (found : outline.parts[position]? = some part) (inside : number < part.added) :
      (outline.final references).routines[
          (outline.stage references position).routines.size + number]?
        = (outline.stage references (position + 1)).routines[
          (outline.stage references position).routines.size + number]? := by
    refine declared.routine_final references ?_ fun filled ↦ ?_
    · rw [(declared.grown_succ references found).size]
      exact Nat.add_lt_add_left inside _
    · have older := declared.filled_lt (List.drop_subset _ _) filled
      have later := declared.size_le references position
      exact Nat.not_lt.mpr (Nat.le_trans later (Nat.le_add_right _ number)) older
  have label' := reordered.declared'.label_added references found' (twin.added ▸ inside)
  rw [twin.key] at label'
  rw [reordered.routines (reordered.declared.label_added references found inside) label',
    behind reordered.declared found inside, behind reordered.declared' found' (twin.added ▸ inside)]
  exact (reordered.alike_frameAt found found' twin).routines number

/-- All routines are in their places in the other unit. -/
theorem renumbered_routines (index : RoutineIndex) :
    Option.Rel (Routine.Renumbered renumbering) (outline.final references).routines[index]?
      (outline'.final references).routines[renumbering.routines index]? := by
  have moved := getElem?_of_perm reordered.perm_routineLabels reordered.routines index
  cases known : outline.routineLabels[index]? with
  | none =>
      rw [known] at moved
      have beyond := List.getElem?_eq_none_iff.mp known
      have beyond' := List.getElem?_eq_none_iff.mp moved
      rw [reordered.declared.length_routineLabels references] at beyond
      rw [reordered.declared'.length_routineLabels references] at beyond'
      rw [Array.getElem?_eq_none beyond, Array.getElem?_eq_none beyond']
      exact .none
  | some label =>
      by_cases reserved : index < outline.start.routines.size
      · obtain ⟨part, member, method, own, rfl⟩ := reordered.declared.exists_function reserved
        obtain ⟨position, found⟩ := List.mem_iff_getElem?.mp member
        exact reordered.function_routine found own
      · -- The label is that of something that a part has added, and stands there only once.
        have later := known
        rw [routineLabels, List.getElem?_append_right (by
          simpa [reordered.declared.length_reserved] using reserved)] at later
        obtain ⟨entry, listed, rfl⟩ := List.mem_map.mp (List.mem_of_getElem? later)
        obtain ⟨part, member, numbered⟩ := List.mem_flatMap.mp listed
        obtain ⟨number, inside, rfl⟩ := List.mem_map.mp numbered
        rw [List.mem_range] at inside
        obtain ⟨position, found⟩ := List.mem_iff_getElem?.mp member
        obtain rfl := position_unique reordered.declared.nodup_routineLabels known
          (reordered.declared.label_added references found inside)
        exact reordered.added_routine found inside

/-- All types are in their places in the other unit. -/
theorem renumbered_definitions (index : TypeIndex) :
    Option.Rel (TypeDefinition.Renumbered renumbering)
      (defineTypes references outline.types 0 outline.types outline.start).1[index]?
      (defineTypes references outline'.types 0 outline'.types
        outline'.start).1[renumbering.types index]? := by
  obtain ⟨none, none'⟩ | ⟨info, info', there, there', same⟩ := reordered.types.cases index
  · have beyond := List.getElem?_eq_none_iff.mp none
    have beyond' := List.getElem?_eq_none_iff.mp none'
    rw [List.getElem?_eq_none (by rwa [length_defineTypes]),
      List.getElem?_eq_none (by rwa [length_defineTypes])]
    exact .none
  · obtain ⟨position, found, defined⟩ := definition_at references outline.types outline.types 0
      index info outline.start there
    obtain ⟨position', found', defined'⟩ := definition_at references outline'.types outline'.types 0
      (renumbering.types index) info' outline'.start there'
    rw [Nat.zero_add] at found defined found' defined'
    let frame := frameAt references renumbering outline outline' position position'
    have sound : frame.Sound := reordered.sound_frameAt found found' ⟨rfl, same, rfl⟩
    have settings := settingsReordered_settingOf references reordered.types same
      index
    have start : frame.Alike frame.first frame.first' := Frame.alike_start
      (reordered.declared.grown references position).imports
      (reordered.declared'.grown references position').imports
    have compiled : Twinned frame.drafts (Option.map renumbering.routines)
        (defineInitializer (settingOf references outline.types index info) info.fields)
        (defineInitializer (settingOf references outline'.types (renumbering.types index) info')
          info'.fields) := by
      rw [same.fields]
      exact twins_defineInitializer sound settings info.fields
    rw [defined, defined']
    refine .some { namespaceName := ?_, name := ?_, fields := ?_, initializer := ?_, methods := ?_ }
    · exact congrArg TypeName.namespaceName same.name
    · exact congrArg TypeName.name same.name
    · exact congrArg (List.map FieldInfo.name) same.fields
    · exact (compiled.alike start (reordered.declared.within_define references found)
        (reordered.declared'.within_define references found')).1
    · have methods := same.methods.map MethodInfo.routine
      rw [List.map_map] at methods
      rw [definitionOf, definitionOf, List.map_map]
      exact methods

end Reordered

end Outline

end GuestScript.Compile
