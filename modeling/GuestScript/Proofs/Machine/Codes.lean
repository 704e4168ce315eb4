import GuestScript.Proofs.Machine.RecodedWorld

/-!
# The codes in a value

`value.Over allowed` says that every closure in a value, however deep, has code that satisfies
`allowed`. It is stated as being recoded from a value whose codes carry the proof, so that every
operation that commutes with `recode` leads from such values to such values.
-/

namespace GuestScript

namespace Machine

variable {Code : Type} {allowed : Code → Prop}

/-- Every closure in a value has a code that is allowed. -/
def ValueOver.Over (allowed : Code → Prop) (value : ValueOver Code) : Prop :=
  ∃ proven : ValueOver { code // allowed code }, proven.recode Subtype.val = value

/-- A closure and every closure in what it captured have codes that are allowed. -/
def ClosureOver.Over (allowed : Code → Prop) (closure : ClosureOver Code) : Prop :=
  ∃ proven : ClosureOver { code // allowed code }, proven.recode Subtype.val = closure

/-- The closure of a stage, and every closure in what it captured, has a code that is allowed. -/
def StageOver.Over (allowed : Code → Prop) (stage : StageOver Code) : Prop :=
  ∃ proven : StageOver { code // allowed code }, proven.recode Subtype.val = stage

/-- Every closure in a world has a code that is allowed. -/
def WorldOver.Over (allowed : Code → Prop) (world : WorldOver Code) : Prop :=
  ∃ proven : WorldOver { code // allowed code }, proven.recode Subtype.val = world

/-- What holds of every member of a list because each is made from something is so for the list. -/
theorem exists_map_eq {Source Target : Type} {make : Source → Target} {list : List Target}
    (each : ∀ member ∈ list, ∃ source, make source = member) :
    ∃ sources : List Source, sources.map make = list := by
  induction list with
  | nil => exact ⟨[], rfl⟩
  | cons first rest ih =>
      obtain ⟨source, made⟩ := each first List.mem_cons_self
      obtain ⟨sources, all⟩ := ih fun member inside ↦ each member (List.mem_cons_of_mem first inside)
      exact ⟨source :: sources, by rw [List.map_cons, made, all]⟩

theorem exists_map_eq_iff {Source Target : Type} {make : Source → Target} {list : List Target} :
    (∃ sources : List Source, sources.map make = list) ↔
      ∀ member ∈ list, ∃ source, make source = member := by
  refine ⟨?_, exists_map_eq⟩
  rintro ⟨sources, rfl⟩ member inside
  obtain ⟨source, _, made⟩ := List.mem_map.mp inside
  exact ⟨source, made⟩

/-! ## Values by their form -/

namespace ValueOver

@[simp]
theorem over_unit : (unit : ValueOver Code).Over allowed :=
  ⟨unit, rfl⟩

@[simp]
theorem over_int (value : Int64) : (int value : ValueOver Code).Over allowed :=
  ⟨int value, rfl⟩

@[simp]
theorem over_bool (value : Bool) : (bool value : ValueOver Code).Over allowed :=
  ⟨bool value, rfl⟩

@[simp]
theorem over_str (value : String) : (str value : ValueOver Code).Over allowed :=
  ⟨str value, rfl⟩

@[simp]
theorem over_object (reference : Reference) :
    (object reference : ValueOver Code).Over allowed :=
  ⟨object reference, rfl⟩

@[simp]
theorem over_ofConstant (constant : Bytecode.Constant) :
    (ofConstant constant : ValueOver Code).Over allowed :=
  ⟨ofConstant constant, recode_ofConstant _ constant⟩

@[simp]
theorem over_array {items : List (ValueOver Code)} :
    (array items).Over allowed ↔ ∀ item ∈ items, item.Over allowed := by
  simp only [Over]
  rw [← exists_map_eq_iff]
  constructor
  · rintro ⟨proven, same⟩
    cases proven <;> simp only [recode, reduceCtorEq, array.injEq, recodeAll_eq_map] at same
    exact ⟨_, same⟩
  · rintro ⟨proven, rfl⟩
    exact ⟨array proven, by simp only [recode, recodeAll_eq_map]⟩

@[simp]
theorem over_cursor {items : List (ValueOver Code)} {position : Nat} :
    (cursor items position).Over allowed ↔ ∀ item ∈ items, item.Over allowed := by
  simp only [Over]
  rw [← exists_map_eq_iff]
  constructor
  · rintro ⟨proven, same⟩
    cases proven <;> simp only [recode, reduceCtorEq, cursor.injEq, recodeAll_eq_map] at same
    exact ⟨_, same.1⟩
  · rintro ⟨proven, rfl⟩
    exact ⟨cursor proven position, by simp only [recode, recodeAll_eq_map]⟩

@[simp]
theorem over_closure {value : ClosureOver Code} :
    (closure value).Over allowed ↔ value.Over allowed := by
  constructor
  · rintro ⟨proven, same⟩
    cases proven <;> simp only [recode, reduceCtorEq, closure.injEq] at same
    exact ⟨_, same⟩
  · rintro ⟨proven, rfl⟩
    exact ⟨closure proven, rfl⟩

@[simp]
theorem over_seq {identity : Nat} {source : List (ValueOver Code)}
    {stages : List (StageOver Code)} :
    (seq identity source stages).Over allowed ↔
      (∀ item ∈ source, item.Over allowed) ∧ ∀ stage ∈ stages, stage.Over allowed := by
  simp only [Over, StageOver.Over]
  rw [← exists_map_eq_iff, ← exists_map_eq_iff]
  constructor
  · rintro ⟨proven, same⟩
    cases proven <;> simp only [recode, reduceCtorEq, seq.injEq, recodeAll_eq_map,
      recodeStages_eq_map] at same
    exact ⟨⟨_, same.2.1⟩, ⟨_, same.2.2⟩⟩
  · rintro ⟨⟨proven, rfl⟩, ⟨provenStages, rfl⟩⟩
    exact ⟨seq identity proven provenStages, by
      simp only [recode, recodeAll_eq_map, recodeStages_eq_map]⟩

end ValueOver

/-- A closure by its code and what it captured. -/
theorem ClosureOver.over_iff {closure : ClosureOver Code} :
    closure.Over allowed ↔
      allowed closure.code ∧ ∀ captured ∈ closure.captures, captured.Over allowed := by
  simp only [ClosureOver.Over, ValueOver.Over]
  rw [← exists_map_eq_iff]
  obtain ⟨identity, code, captures⟩ := closure
  constructor
  · rintro ⟨⟨_, proven, values⟩, same⟩
    simp only [ClosureOver.recode, ClosureOver.mk.injEq, recodeAll_eq_map] at same
    obtain ⟨-, rfl, captured⟩ := same
    exact ⟨proven.property, values, captured⟩
  · rintro ⟨permitted, proven, captured⟩
    refine ⟨.mk identity ⟨code, permitted⟩ proven, ?_⟩
    simpa only [ClosureOver.recode, ClosureOver.mk.injEq, recodeAll_eq_map, true_and,
      ClosureOver.captures] using captured

theorem StageOver.over_iff {stage : StageOver Code} :
    stage.Over allowed ↔ stage.closure.Over allowed := by
  cases stage with
  | filter predicate =>
      constructor
      · rintro ⟨proven, same⟩
        cases proven <;> simp only [recode, reduceCtorEq, filter.injEq] at same
        exact ⟨_, same⟩
      · rintro ⟨proven, same⟩
        exact ⟨.filter proven, by rw [recode, same]; rfl⟩
  | map mapper =>
      constructor
      · rintro ⟨proven, same⟩
        cases proven <;> simp only [recode, reduceCtorEq, map.injEq] at same
        exact ⟨_, same⟩
      · rintro ⟨proven, same⟩
        exact ⟨.map proven, by rw [recode, same]; rfl⟩

/-! ## Operations -/

/-- A result that is recoded is over the codes of what it is recoded from. -/
theorem over_of_map {proven : Except Fault (ValueOver { code // allowed code })}
    {result : ValueOver Code}
    (made : proven.map (ValueOver.recode Subtype.val) = .ok result) : result.Over allowed := by
  cases proven with
  | error fault => exact absurd made nofun
  | ok value => exact ⟨value, Except.ok.inj made⟩

theorem applyUnary_over {operator : UnaryOperator} {operand result : ValueOver Code}
    (operandOver : operand.Over allowed) (applied : applyUnary operator operand = .ok result) :
    result.Over allowed := by
  obtain ⟨operand, rfl⟩ := operandOver
  exact over_of_map ((applyUnary_recode _ operator operand).symm.trans applied)

theorem applyBinary_over {operator : BinaryOperator} {left right result : ValueOver Code}
    (first : left.Over allowed) (second : right.Over allowed)
    (applied : applyBinary operator left right = .ok result) : result.Over allowed := by
  obtain ⟨left, rfl⟩ := first
  obtain ⟨right, rfl⟩ := second
  exact over_of_map ((applyBinary_recode _ operator left right).symm.trans applied)

theorem itemOf_over {array index result : ValueOver Code} (items : array.Over allowed)
    (position : index.Over allowed) (found : itemOf array index = .ok result) :
    result.Over allowed := by
  obtain ⟨array, rfl⟩ := items
  obtain ⟨index, rfl⟩ := position
  exact over_of_map ((itemOf_recode _ array index).symm.trans found)

theorem toClosure_over {value : ValueOver Code} {closure : ClosureOver Code}
    (valueOver : value.Over allowed) (converted : value.toClosure = .ok closure) :
    closure.Over allowed := by
  cases value <;> simp only [ValueOver.toClosure, reduceCtorEq, Except.ok.injEq] at converted
  subst converted
  exact ValueOver.over_closure.mp valueOver

namespace WorldOver

@[simp]
theorem over_fresh (console : Console) : (fresh console : WorldOver Code).Over allowed :=
  ⟨fresh console, recode_fresh _ console⟩

variable {world after : WorldOver Code}

theorem readField_over {target result : ValueOver Code} {field : Nat}
    (worldOver : world.Over allowed)
    (object : target.Over allowed) (read : world.readField target field = .ok result) :
    result.Over allowed := by
  obtain ⟨world, rfl⟩ := worldOver
  obtain ⟨target, rfl⟩ := object
  exact over_of_map ((world.readField_recode _ target field).symm.trans read)

theorem writeField_over {target value : ValueOver Code} {field : Nat}
    (worldOver : world.Over allowed)
    (object : target.Over allowed) (written : value.Over allowed)
    (wrote : world.writeField target field value = .ok after) : after.Over allowed := by
  obtain ⟨world, rfl⟩ := worldOver
  obtain ⟨target, rfl⟩ := object
  obtain ⟨value, rfl⟩ := written
  rw [writeField_recode] at wrote
  cases assigned : world.writeField target field value with
  | error fault => rw [assigned] at wrote; exact absurd wrote nofun
  | ok proven =>
      rw [assigned] at wrote
      exact ⟨proven, Except.ok.inj wrote⟩

theorem allocate_over {type : Bytecode.TypeIndex} {typeName : String}
    {fields : List (ValueOver Code)} (worldOver : world.Over allowed)
    (values : ∀ value ∈ fields, value.Over allowed) :
    (world.allocate type typeName fields).2.Over allowed := by
  obtain ⟨world, rfl⟩ := worldOver
  obtain ⟨fields, rfl⟩ := exists_map_eq values
  rw [allocate_recode]
  exact ⟨_, rfl⟩

theorem makeClosure_over {code : Code} {captures : List (ValueOver Code)}
    (worldOver : world.Over allowed) (permitted : allowed code)
    (values : ∀ value ∈ captures, value.Over allowed) :
    (world.makeClosure code captures).1.Over allowed ∧
      (world.makeClosure code captures).2.Over allowed := by
  obtain ⟨world, rfl⟩ := worldOver
  obtain ⟨captures, rfl⟩ := exists_map_eq values
  have made := world.makeClosure_recode Subtype.val ⟨code, permitted⟩ captures
  rw [made]
  exact ⟨⟨_, rfl⟩, ⟨_, rfl⟩⟩

end WorldOver

/-- Every closure in a reply has a code that is allowed. -/
def ReplyOver.Over (allowed : Code → Prop) : ReplyOver Code → Prop
  | .value answer world => answer.Over allowed ∧ world.Over allowed
  | .refuse _ | .fault _ => True
  | .enumerate source stages _ =>
      (∀ item ∈ source, item.Over allowed) ∧ ∀ stage ∈ stages, stage.Over allowed

theorem ReplyOver.over_recode (reply : ReplyOver { code // allowed code }) :
    (reply.recode Subtype.val).Over allowed := by
  cases reply with
  | value answer world => exact ⟨⟨answer, rfl⟩, ⟨world, rfl⟩⟩
  | refuse | fault => exact trivial
  | enumerate source stages =>
      exact ⟨exists_map_eq_iff.mp ⟨source, rfl⟩, exists_map_eq_iff.mp ⟨stages, rfl⟩⟩

theorem Goal.deliver_over {goal : Goal} {items : List (ValueOver Code)}
    (values : ∀ item ∈ items, item.Over allowed) : (goal.deliver items).Over allowed := by
  obtain ⟨items, rfl⟩ := exists_map_eq values
  exact ⟨goal.deliver items, (goal.deliver_recode _ items).symm⟩

end Machine

namespace HostAction

open Machine

theorem reply_over {Code : Type} {allowed : Code → Prop} {arguments : List (ValueOver Code)}
    {world : WorldOver Code} (action : HostAction)
    (values : ∀ argument ∈ arguments, argument.Over allowed) (worldOver : world.Over allowed) :
    (action.reply arguments world).Over allowed := by
  obtain ⟨arguments, rfl⟩ := exists_map_eq values
  obtain ⟨world, rfl⟩ := worldOver
  rw [reply_recode]
  exact ReplyOver.over_recode _

end HostAction

end GuestScript
