import GuestScript.Compile.Unit
import GuestScript.Proofs.Bytecode.Renumbering

/-!
# Types in another order

The bodies of a unit look up types, fields and functions by their names. Where names are distinct,
the order of the types and that of the functions of each type only shows in the positions that are
found: `TypesReordered` says that the types of one unit are those of another one under a
renumbering, and the lemmas here say for each way of looking something up that it finds the same,
renumbered. `SettingsReordered` says it of all that stays the same throughout a body.
-/

namespace GuestScript.Compile

open Bytecode (Renumbering position_unique)
open Syntax

/-! ## Looking up in lists -/

/-- What is related is nothing on both sides, or something. -/
theorem rel_cases {Value Other : Type} {related : Value → Other → Prop} {found : Option Value}
    {found' : Option Other} (here : Option.Rel related found found') :
    found = none ∧ found' = none ∨
      ∃ value value', found = some value ∧ found' = some value' ∧ related value value' := by
  cases here with
  | none => exact .inl ⟨rfl, rfl⟩
  | some same => exact .inr ⟨_, _, rfl, rfl, same⟩

section Lists

variable {Value Key : Type} [DecidableEq Key]

/-- Where keys are distinct, what is found in a list is found where it has moved. -/
theorem findIdx?_of_move {values values' : List Value} {move : Equiv.Perm Nat}
    (moved : ∀ index, values'[move index]? = values[index]?) (key : Value → Key)
    (nodup : (values.map key).Nodup) (wanted : Key) :
    values'.findIdx? (fun value ↦ key value = wanted)
      = (values.findIdx? fun value ↦ key value = wanted).map move := by
  have unique {old old' : Nat} {value value' : Value} (here : values[old]? = some value)
      (there : values[old']? = some value') (same : key value = key value') : old = old' := by
    refine @position_unique _ _ nodup (key value) _ _ ?_ ?_
    · rw [List.getElem?_map, here, Option.map_some]
    · rw [List.getElem?_map, there, Option.map_some, same]
  cases found : values.findIdx? fun value ↦ key value = wanted with
  | some old =>
      obtain ⟨inside, suits, -⟩ := List.findIdx?_eq_some_iff_getElem.mp found
      have here := moved old
      rw [List.getElem?_eq_getElem inside] at here
      obtain ⟨inside', same⟩ := List.getElem?_eq_some_iff.mp here
      refine List.findIdx?_eq_some_iff_getElem.mpr ⟨inside', by rw [same]; exact suits, ?_⟩
      -- An earlier value with this key would be the same one.
      intro earlier before suits'
      have there := moved (move.symm earlier)
      rw [Equiv.apply_symm_apply, List.getElem?_eq_getElem (Nat.lt_trans before inside')] at there
      have old' := unique (List.getElem?_eq_getElem inside) there.symm
        ((of_decide_eq_true suits).trans (of_decide_eq_true suits').symm)
      rw [old', Equiv.apply_symm_apply] at before
      exact Nat.lt_irrefl _ before
  | none =>
      rw [Option.map_none, List.findIdx?_eq_none_iff]
      intro value inside
      obtain ⟨new, there⟩ := List.mem_iff_getElem?.mp inside
      have here := moved (move.symm new)
      rw [Equiv.apply_symm_apply, there] at here
      exact List.findIdx?_eq_none_iff.mp found value (List.mem_of_getElem? here.symm)

/-- Where keys are distinct, what is found in a list does not depend on its order. -/
theorem find?_of_perm {values values' : List Value} (perm : values'.Perm values)
    (key : Value → Key) (nodup : (values.map key).Nodup) (wanted : Key) :
    values'.find? (fun value ↦ key value = wanted)
      = values.find? fun value ↦ key value = wanted := by
  cases found : values.find? fun value ↦ key value = wanted with
  | some value =>
      have inside := perm.mem_iff.mpr (List.mem_of_find?_eq_some found)
      have suits := List.find?_some found
      cases found' : values'.find? fun value ↦ key value = wanted with
      | some value' =>
          have inside' := perm.mem_iff.mp (List.mem_of_find?_eq_some found')
          have suits' := List.find?_some found'
          have same := (of_decide_eq_true suits').trans (of_decide_eq_true suits).symm
          exact congrArg some (List.inj_on_of_nodup_map nodup inside'
            (List.mem_of_find?_eq_some found) same)
      | none => exact absurd suits (List.find?_eq_none.mp found' value inside)
  | none =>
      refine List.find?_eq_none.mpr fun value inside ↦ ?_
      exact List.find?_eq_none.mp found value (perm.mem_iff.mp inside)

end Lists

/-! ## Names -/

/-- Names of types are distinct if neither two simple names nor two full names are the same. -/
structure DistinctNames (names : List TypeName) : Prop where
  simple : (names.map TypeName.name).Nodup
  full : (names.map TypeName.full).Nodup

/-- Names of types that are there under a renumbering. -/
def NamesMoved (move : Equiv.Perm Nat) (names names' : List TypeName) : Prop :=
  ∀ index, names'[move index]? = names[index]?

section Names

variable {move : Equiv.Perm Nat} {names names' : List TypeName}

/-- A simple name means the type of that name, wherever it is. -/
theorem find?_of_move (moved : NamesMoved move names names') (distinct : DistinctNames names)
    (name namespaceName : String) :
    TypeName.find? names' name namespaceName
      = (TypeName.find? names name namespaceName).map move := by
  have exactly := findIdx?_of_move moved (fun candidate ↦ candidate)
    (by rw [List.map_id']; exact distinct.simple.of_map) ⟨namespaceName, name⟩
  have anywhere := findIdx?_of_move moved TypeName.name distinct.simple name
  unfold TypeName.find?
  rw [exactly, anywhere]
  cases names.findIdx? (· = ⟨namespaceName, name⟩) <;> rfl

mutual

/-- A written type means the same, wherever the types are. -/
theorem resolveType_of_move (moved : NamesMoved move names names') (distinct : DistinctNames names)
    (references : ReferenceSet) (namespaceName : String) : (written : TypeExpression) →
    resolveType references names' namespaceName written
      = resolveType references names namespaceName written
  | .int _ | .str _ | .bool _ | .unit _ | .dyn _ => rfl
  | .array element _ | .seq element _ => by
      rw [resolveType, resolveType,
        resolveType_of_move moved distinct references namespaceName element]
  | .function parameters result _ => by
      rw [resolveType, resolveType,
        resolveTypes_of_move moved distinct references namespaceName parameters,
        resolveType_of_move moved distinct references namespaceName result]
  | .named name span => by
      have found := find?_of_move moved distinct name namespaceName
      rw [resolveType, resolveType, found]
      cases TypeName.find? names name namespaceName with
      | some index => simp only [Option.map_some, moved index]
      | none => rfl

/-- Written types mean the same, wherever the types are. -/
theorem resolveTypes_of_move (moved : NamesMoved move names names')
    (distinct : DistinctNames names) (references : ReferenceSet) (namespaceName : String) :
    (written : List TypeExpression) → resolveTypes references names' namespaceName written
      = resolveTypes references names namespaceName written
  | [] => rfl
  | first :: rest => by
      rw [resolveTypes, resolveTypes,
        resolveType_of_move moved distinct references namespaceName first,
        resolveTypes_of_move moved distinct references namespaceName rest]

end

end Names

/-! ## Types with their members -/

/-- A function whose routine has moved. -/
def MethodInfo.renumber (renumbering : Renumbering) (method : MethodInfo) : MethodInfo :=
  { method with routine := renumbering.routines method.routine }

/-- One type is another one under a renumbering, with its functions in any order. -/
structure TypeInfo.Reordered (renumbering : Renumbering) (info info' : TypeInfo) : Prop where
  name : info'.name = info.name
  fields : info'.fields = info.fields
  methods : info'.methods.Perm (info.methods.map (MethodInfo.renumber renumbering))
  distinct : (info.methods.map MethodInfo.name).Nodup

/-- The types of one unit are those of another one under a renumbering. -/
structure TypesReordered (renumbering : Renumbering) (types types' : List TypeInfo) : Prop where
  moved : ∀ index, Option.Rel (TypeInfo.Reordered renumbering) types[index]?
    types'[renumbering.types index]?
  distinct : DistinctNames (types.map TypeInfo.name)

namespace TypesReordered

variable {renumbering : Renumbering} {types types' : List TypeInfo}

/-- A type is at its new position if there is one at the old position. -/
theorem cases (reordered : TypesReordered renumbering types types')
    (index : Bytecode.TypeIndex) :
    types[index]? = none ∧ types'[renumbering.types index]? = none ∨
      ∃ info info', types[index]? = some info ∧ types'[renumbering.types index]? = some info' ∧
        info.Reordered renumbering info' :=
  rel_cases (reordered.moved index)

theorem names (reordered : TypesReordered renumbering types types') :
    NamesMoved renumbering.types (types.map TypeInfo.name) (types'.map TypeInfo.name) := by
  intro index
  rw [List.getElem?_map, List.getElem?_map]
  obtain ⟨old, new⟩ | ⟨info, info', old, new, same⟩ := reordered.cases index
  · rw [old, new]
  · rw [old, new]
    exact congrArg some same.name

theorem find? (reordered : TypesReordered renumbering types types')
    (name namespaceName : String) :
    TypeName.find? (types'.map TypeInfo.name) name namespaceName
      = (TypeName.find? (types.map TypeInfo.name) name namespaceName).map renumbering.types :=
  find?_of_move reordered.names reordered.distinct name namespaceName

theorem typeNamed? (reordered : TypesReordered renumbering types types') (fullName : String) :
    Compile.typeNamed? types' fullName
      = (Compile.typeNamed? types fullName).map renumbering.types := by
  have found := findIdx?_of_move reordered.names TypeName.full reordered.distinct.full fullName
  rw [List.findIdx?_map, List.findIdx?_map] at found
  exact found

theorem fullNameOf (reordered : TypesReordered renumbering types types')
    (index : Bytecode.TypeIndex) :
    Compile.fullNameOf types' (renumbering.types index) = Compile.fullNameOf types index := by
  unfold Compile.fullNameOf
  obtain ⟨old, new⟩ | ⟨info, info', old, new, same⟩ := reordered.cases index
  · rw [old, new]
  · rw [old, new]
    exact congrArg TypeName.full same.name

theorem methodOf? (reordered : TypesReordered renumbering types types')
    (owner : Bytecode.TypeIndex) (name : String) :
    Compile.methodOf? types' (renumbering.types owner) name
      = (Compile.methodOf? types owner name).map (MethodInfo.renumber renumbering) := by
  unfold Compile.methodOf?
  obtain ⟨old, new⟩ | ⟨info, info', old, new, same⟩ := reordered.cases owner
  · rw [old, new]
    rfl
  · have names : (info.methods.map (MethodInfo.renumber renumbering)).map MethodInfo.name
        = info.methods.map MethodInfo.name := List.map_map
    have found := find?_of_perm same.methods MethodInfo.name (names ▸ same.distinct) name
    rw [List.find?_map] at found
    rw [old, new]
    exact found

theorem fieldOf? (reordered : TypesReordered renumbering types types') (fullName name : String) :
    Compile.fieldOf? types' fullName name = Compile.fieldOf? types fullName name := by
  unfold Compile.fieldOf?
  rw [reordered.typeNamed? fullName]
  cases Compile.typeNamed? types fullName with
  | none => rfl
  | some index =>
      simp only [Option.map_some, Option.bind_eq_bind, Option.bind_some]
      obtain ⟨old, new⟩ | ⟨info, info', old, new, same⟩ := reordered.cases index
      · rw [old, new]
      · rw [old, new]
        simp only [Option.bind_some, same.fields]

end TypesReordered

/-! ## Settings -/

/-- What stays the same throughout a body is the same under a renumbering. -/
structure SettingsReordered (known : ReferenceSet) (renumbering : Renumbering)
    (setting setting' : Setting) : Prop where
  references : setting.references = known
  references' : setting'.references = known
  types : TypesReordered renumbering setting.types setting'.types
  owner : setting'.owner = renumbering.types setting.owner
  ownerName : setting'.ownerName = setting.ownerName
  routineName : renumbering.Renames setting.routineName setting'.routineName
  receiver : setting'.receiver = setting.receiver
  result : setting'.result = setting.result

theorem SettingsReordered.withReceiver {known : ReferenceSet} {renumbering : Renumbering}
    {setting setting' : Setting}
    (reordered : SettingsReordered known renumbering setting setting') (receiver : Option Nat) :
    SettingsReordered known renumbering { setting with receiver } { setting' with receiver } :=
  { reordered with receiver := rfl }

/-- The inside of a lambda is the same under a renumbering if its surroundings are. -/
theorem SettingsReordered.inside {known : ReferenceSet} {renumbering : Renumbering}
    {setting setting' : Setting}
    (reordered : SettingsReordered known renumbering setting setting') (number : Nat)
    (captures : List Capture) (result : Ty) :
    SettingsReordered known renumbering (setting.inside number captures result)
      (setting'.inside (renumbering.lambdas number) captures result) :=
  { reordered with
    routineName := reordered.routineName.inside number
    receiver := rfl
    result := rfl }

end GuestScript.Compile
