import GuestScript.Meaning.Static

/-!
# What holds the values does not matter

What a name or a call refers to and which variables a lambda copies depends on the names and the
types of the variables in scope, and not on what holds their values. So the checker, the machine
and the evaluator agree on it, whether variables are in slots, have values, or have neither. What a
call refers to is one of the functions of a type, or one that a module offers.
-/

namespace GuestScript.Meaning

open Compile
open Syntax

variable {Holder Other : Type}

section

variable (change : Holder → Other)

@[simp]
theorem Variable.hold_name (held : Variable Holder) : (held.hold change).name = held.name :=
  rfl

@[simp]
theorem Variable.hold_type (held : Variable Holder) : (held.hold change).type = held.type :=
  rfl

@[simp]
theorem Variable.hold_holder (held : Variable Holder) :
    (held.hold change).holder = change held.holder :=
  rfl

@[simp]
theorem Variable.hold_hold {Last : Type} (next : Other → Last) (held : Variable Holder) :
    (held.hold change).hold next = held.hold fun holder ↦ next (change holder) :=
  rfl

namespace Scope

theorem named?_hold (scope : Scope Holder) (name : String) :
    Scope.named? (scope.map (Variable.hold change)) name
      = (scope.named? name).map (Variable.hold change) := by
  rw [named?, named?, List.find?_map]
  rfl

theorem oldest?_hold (scope : Scope Holder) (name : String) :
    Scope.oldest? (scope.map (Variable.hold change)) name
      = (scope.oldest? name).map (Variable.hold change) := by
  rw [oldest?, ← List.map_reverse, named?_hold, oldest?]

@[simp]
theorem typing_hold (scope : Scope Holder) :
    Scope.typing (scope.map (Variable.hold change)) = scope.typing := by
  rw [typing, List.map_map, typing]
  rfl

/-- A variable that is found under a name is in scope and has the name. -/
theorem mem_of_named? {scope : Scope Holder} {name : String} {held : Variable Holder}
    (found : scope.named? name = some held) : held ∈ scope ∧ held.name = name :=
  ⟨List.mem_of_find?_eq_some found, by simpa using List.find?_some found⟩

end Scope

end

/-- What a call refers to, with something else to hold the value if it is a variable. -/
def Callable.hold (change : Holder → Other) : Callable Holder → Callable Other
  | .value held => .value (held.hold change)
  | .function owner method => .function owner method
  | .host name offered => .host name offered

section

variable (change : Holder → Other)

theorem callable?_hold (site : Site) (scope : Scope Holder) (segments : List Identifier) :
    callable? site (scope.map (Variable.hold change)) segments
      = (callable? site scope segments).map (Callable.hold change) := by
  match segments with
  | [] => rfl
  | [name] =>
      rw [callable?, callable?, Scope.named?_hold]
      cases scope.named? name.name with
      | some held => rfl
      | none => cases methodOf? site.types site.owner name.name <;> rfl
  | [qualifier, function] =>
      rw [callable?, callable?]
      cases site.typeNamed? qualifier.name with
      | some type =>
          simp only
          cases methodOf? site.types type function.name <;> rfl
      | none =>
          simp only
          cases site.references.lookup? qualifier.name with
          | none => rfl
          | some binding =>
              simp only [Option.bind_eq_bind, Option.bind_some]
              cases binding.host.function? function.name <;> rfl
  | _ :: _ :: _ :: _ => rfl

theorem capture?_hold (ownerType : Ty) (receiver : Option Holder) (parameters : List Identifier)
    (scope : Scope Holder) (name : String) :
    capture? ownerType (receiver.map change) parameters (scope.map (Variable.hold change)) name
      = (capture? ownerType receiver parameters scope name).map (Variable.hold change) := by
  rw [capture?, capture?]
  split
  · cases receiver <;> rfl
  · split
    · rfl
    · exact Scope.named?_hold change scope name

theorem captures_hold (ownerType : Ty) (receiver : Option Holder) (parameters : List Identifier)
    (scope : Scope Holder) (body : LambdaBody) :
    captures ownerType (receiver.map change) parameters (scope.map (Variable.hold change)) body
      = (captures ownerType receiver parameters scope body).map (Variable.hold change) := by
  rw [captures, captures, List.map_filterMap]
  congr 1
  funext name
  exact capture?_hold change ownerType receiver parameters scope name

end

/-! ## What is found -/

/-- A function is one of those of a type. -/
def IsMember (types : List TypeInfo) (owner : Bytecode.TypeIndex) (method : MethodInfo) : Prop :=
  ∃ info, types[owner]? = some info ∧ method ∈ info.methods

section

variable {types : List TypeInfo} {owner : Bytecode.TypeIndex} {method : MethodInfo} {name : String}
  {site : Site} {scope : Scope Holder} {segments : List Identifier}

theorem isMember_of_methodOf (found : methodOf? types owner name = some method) :
    IsMember types owner method := by
  rw [methodOf?, Option.bind_eq_bind, Option.bind_eq_some_iff] at found
  obtain ⟨info, here, found⟩ := found
  exact ⟨info, here, List.mem_of_find?_eq_some found⟩

theorem isMember_of_methodOn {target : Ty}
    (found : methodOn? types target name = some (owner, method)) :
    IsMember types owner method := by
  unfold methodOn? at found
  split at found
  · simp only [Option.bind_eq_bind, Option.bind_eq_some_iff, Option.pure_def,
      Option.some.injEq, Prod.mk.injEq] at found
    obtain ⟨type, -, other, found, rfl, rfl⟩ := found
    exact isMember_of_methodOf found
  · exact absurd found nofun

theorem isMember_of_callable
    (found : callable? site scope segments = some (.function owner method)) :
    IsMember site.types owner method := by
  unfold callable? at found
  split at found
  · split at found
    · cases found
    · rw [Option.map_eq_some_iff] at found
      obtain ⟨other, found, same⟩ := found
      obtain ⟨rfl, rfl⟩ := Callable.function.inj same
      exact isMember_of_methodOf found
  · split at found
    · rw [Option.map_eq_some_iff] at found
      obtain ⟨other, found, same⟩ := found
      obtain ⟨rfl, rfl⟩ := Callable.function.inj same
      exact isMember_of_methodOf found
    · simp only [Option.bind_eq_bind, Option.bind_eq_some_iff, Option.pure_def,
        Option.some.injEq, reduceCtorEq, and_false, exists_false] at found
  · cases found

/-- A variable that is called is in scope. -/
theorem mem_of_callable {held : Variable Holder}
    (found : callable? site scope segments = some (.value held)) : held ∈ scope := by
  unfold callable? at found
  split at found
  · split at found
    · next held' named =>
        cases found
        exact (Scope.mem_of_named? named).1
    · rw [Option.map_eq_some_iff] at found
      obtain ⟨_, -, same⟩ := found
      cases same
  · split at found
    · rw [Option.map_eq_some_iff] at found
      obtain ⟨_, -, same⟩ := found
      cases same
    · simp only [Option.bind_eq_bind, Option.bind_eq_some_iff, Option.pure_def,
        Option.some.injEq, reduceCtorEq, and_false, exists_false] at found
  · cases found

/-- Some module offers a host function. -/
def Offered (references : ReferenceSet) (function : HostFunction) : Prop :=
  ∃ qualifier binding name, references.lookup? qualifier = some binding ∧
    binding.host.function? name = some function

theorem offered_of_callable {function : HostFunction}
    (found : callable? site scope segments = some (.host name function)) :
    Offered site.references function := by
  unfold callable? at found
  split at found
  · split at found
    · cases found
    · rw [Option.map_eq_some_iff] at found
      obtain ⟨_, -, same⟩ := found
      cases same
  · split at found
    · rw [Option.map_eq_some_iff] at found
      obtain ⟨_, -, same⟩ := found
      cases same
    · simp only [Option.bind_eq_bind, Option.bind_eq_some_iff, Option.pure_def,
        Option.some.injEq, Callable.host.injEq] at found
      obtain ⟨binding, known, host, offered, -, rfl⟩ := found
      exact ⟨_, binding, _, known, offered⟩
  · cases found

end

end GuestScript.Meaning
