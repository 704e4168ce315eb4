import Mathlib.Data.List.Forall2
import GuestScript.Ty

/-!
# What the comparison of types comes to

`Ty.accepts` is one function on pairs of types with a binding that goes through it. Here it is
taken apart by the form of the required type: `accepts_array`, `accepts_seq`, `accepts_function`
and the rest say what one step does. A required type is ground if no part of it is open; comparing
with it leaves the binding alone, which is `accepts_of_isGround`.

Function types are compared from their parts (`admits_function_iff`): the parameters in the
direction of the comparison itself, each as its result is. A function that is passed where another
type of function is required is therefore not always one that takes what its callers may pass;
`not_passesFunctionsSafely` has two types that show it.
-/

namespace GuestScript.Ty

/-! ## One step -/

/-- Whether a type agrees with every other: it is poison or only known when the program runs. -/
def isLax : Ty → Bool
  | .dyn | .poison => true
  | _ => false

section Steps

variable (actual : Ty) (binding : Option Ty)

/-- What agrees with everything is accepted everywhere. -/
theorem accepts_of_lax (expected : Ty) {actual : Ty} (lax : actual.isLax) :
    accepts expected actual binding = (true, binding) := by
  cases actual <;> simp only [isLax, Bool.false_eq_true] at lax
  all_goals
    unfold accepts
    cases expected with
    | parameter =>
        cases binding with
        | none => rfl
        | some bound => cases bound <;> rfl
    | _ => rfl

/-- The open type is bound to the first type that meets it, unless that agrees with everything. -/
theorem accepts_parameter_none {actual : Ty} (strict : actual.isLax = false) :
    accepts .parameter actual none = (true, some actual) := by
  unfold accepts
  cases actual <;> first | rfl | simp [isLax] at strict

/-- The open type is compared as what it is bound to, and stays bound to it. -/
theorem accepts_parameter_some (bound : Ty) :
    accepts .parameter actual (some bound) = ((accepts bound actual none).1, some bound) := by
  rw [accepts.eq_def .parameter, accepts.eq_def bound]
  cases bound <;> rfl

/-- An array is compared with an array by their elements. -/
theorem accepts_array (wanted found : Ty) :
    accepts (.array wanted) (.array found) binding = accepts wanted found binding :=
  accepts.eq_def (.array wanted) (.array found) binding

/-- A sequence is compared with an array by their elements. -/
theorem accepts_seq_array (wanted found : Ty) :
    accepts (.seq wanted) (.array found) binding = accepts wanted found binding :=
  accepts.eq_def (.seq wanted) (.array found) binding

/-- A sequence is compared with a sequence by their elements. -/
theorem accepts_seq (wanted found : Ty) :
    accepts (.seq wanted) (.seq found) binding = accepts wanted found binding :=
  accepts.eq_def (.seq wanted) (.seq found) binding

/-- Functions are compared parameter by parameter and then by their results. -/
theorem accepts_function (wanteds founds : List Ty) (wanted found : Ty) :
    accepts (.function wanteds wanted) (.function founds found) binding =
      if wanteds.length = founds.length then
        match acceptsAll wanteds founds binding with
        | (true, after) => accepts wanted found after
        | (false, after) => (false, after)
      else (false, binding) :=
  accepts.eq_def (.function wanteds wanted) (.function founds found) binding

/-- The first types of two lists are compared first. -/
theorem acceptsAll_cons (wanted found : Ty) (wanteds founds : List Ty) :
    acceptsAll (wanted :: wanteds) (found :: founds) binding =
      match accepts wanted found binding with
      | (true, after) => acceptsAll wanteds founds after
      | (false, after) => (false, after) :=
  acceptsAll.eq_def (wanted :: wanteds) (found :: founds) binding

end Steps

/-! ## Required types without an open part -/

mutual

/-- Whether no part of a type is open. -/
def isGround : Ty → Bool
  | .unit | .int | .bool | .str | .dyn | .object _ | .poison => true
  | .array element | .seq element => isGround element
  | .function parameters result => areGround parameters && isGround result
  | .parameter => false

/-- Whether no part of any type of a list is open. -/
def areGround : List Ty → Bool
  | [] => true
  | first :: rest => isGround first && areGround rest

end

theorem substituteAll_eq_map (binding : Option Ty) (types : List Ty) :
    substituteAll binding types = types.map (substitute binding) := by
  induction types with
  | nil => rfl
  | cons first rest ih => rw [substituteAll, ih, List.map_cons]

@[simp]
theorem length_substituteAll (binding : Option Ty) (types : List Ty) :
    (substituteAll binding types).length = types.length := by
  rw [substituteAll_eq_map, List.length_map]

mutual

/-- Where no part of a type is open there is nothing to put a type in the place of. -/
theorem substitute_of_isGround (binding : Option Ty) :
    {type : Ty} → type.isGround = true → substitute binding type = type
  | .unit, _ | .int, _ | .bool, _ | .str, _ | .dyn, _ | .object _, _ | .poison, _ => rfl
  | .array element, ground | .seq element, ground => by
      rw [isGround] at ground
      rw [substitute, substitute_of_isGround binding ground]
  | .function parameters result, ground => by
      rw [isGround, Bool.and_eq_true] at ground
      rw [substitute, substituteAll_of_areGround binding ground.1,
        substitute_of_isGround binding ground.2]

/-- Where no part of the types is open there is nothing to put a type in the place of. -/
theorem substituteAll_of_areGround (binding : Option Ty) :
    {types : List Ty} → areGround types = true → substituteAll binding types = types
  | [], _ => rfl
  | first :: rest, ground => by
      rw [areGround, Bool.and_eq_true] at ground
      rw [substituteAll, substitute_of_isGround binding ground.1,
        substituteAll_of_areGround binding ground.2]

end

/-- Whether what an open type is bound to, if it is, has no open part. -/
def IsGroundBinding (binding : Option Ty) : Prop :=
  ∀ bound ∈ binding, bound.isGround = true

mutual

/-- Putting a type without an open part in the place of the open type leaves no part open. -/
theorem isGround_substitute {binding : Option Ty} (ground : IsGroundBinding binding) :
    (type : Ty) → (substitute binding type).isGround = true
  | .unit | .int | .bool | .str | .dyn | .object _ | .poison => rfl
  | .parameter => by
      cases binding with
      | none => rfl
      | some bound => exact ground bound rfl
  | .array element | .seq element => by
      rw [substitute, isGround]
      exact isGround_substitute ground element
  | .function parameters result => by
      rw [substitute, isGround, Bool.and_eq_true]
      exact ⟨areGround_substituteAll ground parameters, isGround_substitute ground result⟩

/-- Putting a type without an open part in the place of the open type leaves no part open. -/
theorem areGround_substituteAll {binding : Option Ty} (ground : IsGroundBinding binding) :
    (types : List Ty) → areGround (substituteAll binding types) = true
  | [] => rfl
  | first :: rest => by
      rw [substituteAll, areGround, Bool.and_eq_true]
      exact ⟨isGround_substitute ground first, areGround_substituteAll ground rest⟩

end

/-- A required type is settled if no part of it is open, or if what its open parts are bound to
has no open part. -/
def IsSettled (isGround : Bool) (binding : Option Ty) : Prop :=
  isGround = true ∨ ∃ bound, binding = some bound ∧ bound.isGround = true

theorem IsSettled.isGroundBinding_or {isGround : Bool} {binding : Option Ty}
    (settled : IsSettled isGround binding) : isGround = true ∨ IsGroundBinding binding :=
  settled.imp id fun ⟨_, same, ground⟩ _ found ↦
    Option.some.inj (same.symm.trans found) ▸ ground

/-- What a settled type comes down to has no open part. -/
theorem isGround_substitute_of_isSettled {type : Ty} {binding : Option Ty}
    (settled : IsSettled type.isGround binding) : (substitute binding type).isGround = true := by
  obtain ground | ground := settled.isGroundBinding_or
  · rwa [substitute_of_isGround binding ground]
  · exact isGround_substitute ground type

/-- What settled types come down to have no open part. -/
theorem areGround_substituteAll_of_isSettled {types : List Ty} {binding : Option Ty}
    (settled : IsSettled (areGround types) binding) :
    areGround (substituteAll binding types) = true := by
  obtain ground | ground := settled.isGroundBinding_or
  · rwa [substituteAll_of_areGround binding ground]
  · exact areGround_substituteAll ground types

/-- The parts of a settled type are settled. -/
theorem IsSettled.parts {first second : Bool} {binding : Option Ty}
    (settled : IsSettled (first && second) binding) :
    IsSettled first binding ∧ IsSettled second binding := by
  obtain ground | bound := settled
  · rw [Bool.and_eq_true] at ground
    exact ⟨.inl ground.1, .inl ground.2⟩
  · exact ⟨.inr bound, .inr bound⟩

/-- The open type is settled if it is bound. -/
theorem accepts_parameter_of_isSettled (actual : Ty) {binding : Option Ty}
    (settled : IsSettled parameter.isGround binding) :
    accepts .parameter actual binding =
      ((substitute binding .parameter).admits actual, binding) := by
  obtain impossible | ⟨bound, rfl, -⟩ := settled
  · cases impossible
  · exact accepts_parameter_some actual bound

mutual

/-- Comparing with a settled type is comparing with what it comes down to, and leaves the binding
alone. -/
theorem accepts_of_isSettled : (actual expected : Ty) → (binding : Option Ty) →
    IsSettled expected.isGround binding →
    accepts expected actual binding = ((substitute binding expected).admits actual, binding)
  | .dyn, expected, binding, _ | .poison, expected, binding, _ => by
      rw [admits, accepts_of_lax _ _ rfl, accepts_of_lax _ _ rfl]
  | .array found, expected, binding, settled => by
      cases expected with
      | parameter => exact accepts_parameter_of_isSettled _ settled
      | array wanted =>
          rw [accepts_array, substitute, admits, accepts_array]
          exact accepts_of_isSettled found wanted binding settled
      | seq wanted =>
          rw [accepts_seq_array, substitute, admits, accepts_seq_array]
          exact accepts_of_isSettled found wanted binding settled
      | _ =>
          simp only [admits, substitute]
          rw [accepts, accepts]
          rfl
  | .seq found, expected, binding, settled => by
      cases expected with
      | parameter => exact accepts_parameter_of_isSettled _ settled
      | seq wanted =>
          rw [accepts_seq, substitute, admits, accepts_seq]
          exact accepts_of_isSettled found wanted binding settled
      | _ =>
          simp only [admits, substitute]
          rw [accepts, accepts]
          rfl
  | .function founds found, expected, binding, settled => by
      cases expected with
      | parameter => exact accepts_parameter_of_isSettled _ settled
      | function wanteds wanted =>
          obtain ⟨parameters, result⟩ := settled.parts
          have ground := areGround_substituteAll_of_isSettled parameters
          have first := acceptsAll_of_isSettled founds wanteds binding parameters
          -- What the parameters come down to binds nothing, so the result is compared with the
          -- binding that the parameters have been compared with.
          have again := acceptsAll_of_isSettled founds (substituteAll binding wanteds) none
            (.inl ground)
          have last := accepts_of_isSettled found wanted binding result
          rw [accepts_function, substitute, admits, accepts_function, length_substituteAll, first,
            again, substituteAll_of_areGround none ground]
          by_cases long : wanteds.length = founds.length
          · simp only [if_pos long]
            cases (acceptsAll (substituteAll binding wanteds) founds none).1 with
            | true => exact last
            | false => rfl
          · simp only [if_neg long]
      | _ =>
          simp only [admits, substitute]
          rw [accepts, accepts]
          rfl
  | .unit, expected, binding, settled | .int, expected, binding, settled
  | .bool, expected, binding, settled | .str, expected, binding, settled
  | .parameter, expected, binding, settled | .object _, expected, binding, settled => by
      cases expected with
      | parameter => exact accepts_parameter_of_isSettled _ settled
      | _ =>
          simp only [admits, substitute]
          rw [accepts, accepts]
          rfl

/-- Comparing with settled types is comparing with what they come down to, and leaves the binding
alone. -/
theorem acceptsAll_of_isSettled : (actual expected : List Ty) → (binding : Option Ty) →
    IsSettled (areGround expected) binding →
    acceptsAll expected actual binding =
      ((acceptsAll (substituteAll binding expected) actual none).1, binding)
  | [], _, _, _ => by rw [acceptsAll, acceptsAll]
  | _ :: _, [], _, _ => by
      rw [substituteAll]
      simp only [acceptsAll]
  | found :: founds, wanted :: wanteds, binding, settled => by
      obtain ⟨first, rest⟩ := settled.parts
      have head := accepts_of_isSettled found wanted binding first
      have again := accepts_of_isSettled found (substitute binding wanted) none
        (.inl (isGround_substitute_of_isSettled first))
      have tail := acceptsAll_of_isSettled founds wanteds binding rest
      rw [substituteAll, acceptsAll_cons, acceptsAll_cons, head, again,
        substitute_of_isGround none (isGround_substitute_of_isSettled first)]
      cases (substitute binding wanted).admits found with
      | true => exact tail
      | false => rfl

end

/-- Comparing with a type that has no open part leaves the binding alone. -/
theorem accepts_of_isGround {expected : Ty} (ground : expected.isGround = true) (actual : Ty)
    (binding : Option Ty) :
    accepts expected actual binding = (expected.admits actual, binding) := by
  rw [accepts_of_isSettled actual expected binding (.inl ground),
    substitute_of_isGround binding ground]

/-- Types without an open part are compared one by one. -/
theorem acceptsAll_of_areGround (binding : Option Ty) {expected : List Ty}
    (ground : areGround expected = true) {actual : List Ty}
    (long : expected.length = actual.length) :
    (acceptsAll expected actual binding).1 = true ↔
      List.Forall₂ (fun wanted found ↦ wanted.admits found = true) expected actual := by
  induction expected generalizing actual with
  | nil =>
      obtain rfl : actual = [] := List.length_eq_zero_iff.mp long.symm
      simp [acceptsAll]
  | cons wanted wanteds ih =>
      obtain ⟨found, founds, rfl⟩ := List.exists_cons_of_length_eq_add_one long.symm
      rw [areGround, Bool.and_eq_true] at ground
      rw [acceptsAll_cons, accepts_of_isGround ground.1, List.forall₂_cons,
        ← ih ground.2 (Nat.succ.inj long)]
      cases wanted.admits found <;> simp

/-! ## Functions -/

/-- Function types without an open part are compared from their parts: one admits another that
takes as many parameters exactly if each of its parameters admits the one at its place in the
other, and its result the result. -/
theorem admits_function_iff {wanteds founds : List Ty} {wanted found : Ty}
    (ground : (function wanteds wanted).isGround = true) :
    (function wanteds wanted).admits (function founds found) = true ↔
      List.Forall₂ (fun wanted found ↦ wanted.admits found = true) wanteds founds ∧
        wanted.admits found = true := by
  rw [isGround, Bool.and_eq_true] at ground
  rw [admits, accepts_function]
  by_cases long : wanteds.length = founds.length
  · rw [if_pos long, ← acceptsAll_of_areGround none ground.1 long]
    obtain ⟨accepted, after⟩ := acceptsAll wanteds founds none
    cases accepted with
    | true => simp [accepts_of_isGround ground.2]
    | false => simp
  · rw [if_neg long]
    exact ⟨nofun, fun parts ↦ absurd parts.1.length_eq long⟩

mutual

/-- Whether a type says all there is to say: no part of it is open, poison or only known when the
program runs. -/
def isConcrete : Ty → Bool
  | .unit | .int | .bool | .str | .object _ => true
  | .array element | .seq element => isConcrete element
  | .function parameters result => areConcrete parameters && isConcrete result
  | .dyn | .parameter | .poison => false

/-- Whether every type of a list says all there is to say. -/
def areConcrete : List Ty → Bool
  | [] => true
  | first :: rest => isConcrete first && areConcrete rest

end

mutual

/-- No part of a concrete type is open. -/
theorem isGround_of_isConcrete : {type : Ty} → type.isConcrete = true → type.isGround = true
  | .unit, _ | .int, _ | .bool, _ | .str, _ | .object _, _ => rfl
  | .array element, concrete | .seq element, concrete => by
      rw [isConcrete] at concrete
      rw [isGround]
      exact isGround_of_isConcrete concrete
  | .function parameters result, concrete => by
      rw [isConcrete, Bool.and_eq_true] at concrete
      rw [isGround, Bool.and_eq_true]
      exact ⟨areGround_of_areConcrete concrete.1, isGround_of_isConcrete concrete.2⟩

/-- No part of concrete types is open. -/
theorem areGround_of_areConcrete : {types : List Ty} → areConcrete types = true →
    areGround types = true
  | [], _ => rfl
  | first :: rest, concrete => by
      rw [areConcrete, Bool.and_eq_true] at concrete
      rw [areGround, Bool.and_eq_true]
      exact ⟨isGround_of_isConcrete concrete.1, areGround_of_areConcrete concrete.2⟩

end

/-- A type of functions is accepted where a concrete one is required exactly if it takes as many
parameters, each parameter that is required accepts the one at its place, and the result that is
required accepts the result. The binding is left alone. -/
theorem accepts_functions_iff (wanteds founds : List Ty) (wanted found : Ty)
    (concrete : (function wanteds wanted).isConcrete = true) (binding after : Option Ty) :
    accepts (function wanteds wanted) (function founds found) binding = (true, after) ↔
      List.Forall₂ (fun wanted found ↦ wanted.admits found = true) wanteds founds ∧
        wanted.admits found = true ∧ after = binding := by
  have ground := isGround_of_isConcrete concrete
  rw [accepts_of_isGround ground, Prod.mk.injEq, admits_function_iff ground, and_assoc,
    eq_comm (a := binding)]

/-- A function that gives an array may stand for one that gives a sequence. -/
theorem accepts_functions_result :
    accepts (function [.int] (.seq .str)) (function [.int] (.array .str)) none = (true, none) :=
  (accepts_functions_iff [.int] [.int] (.seq .str) (.array .str) rfl none none).mpr
    ⟨.cons rfl .nil, rfl, rfl⟩

/-- Concrete function types are only accepted for each other where that is safe: what is passed
takes everything that callers of what is required may pass. -/
def PassesFunctionsSafely : Prop :=
  ∀ (wanteds founds : List Ty) (wanted found : Ty),
    (function wanteds wanted).isConcrete = true → (function founds found).isConcrete = true →
    (function wanteds wanted).admits (function founds found) = true →
    List.Forall₂ (fun wanted found ↦ found.admits wanted = true) wanteds founds ∧
      wanted.admits found = true

/-- A function on arrays is accepted where one on sequences is required, and a sequence is not
accepted where an array is required. -/
theorem not_passesFunctionsSafely : ¬PassesFunctionsSafely := by
  intro safely
  obtain ⟨parameters, -⟩ := safely [.seq .int] [.array .int] .int .int rfl rfl rfl
  rw [List.forall₂_cons] at parameters
  exact Bool.false_ne_true parameters.1

end GuestScript.Ty
