import GuestScript.Compile.Typing
import GuestScript.Proofs.Types.Instantiation

/-!
# Compatibility orders the concrete types

A type is below another one if it may stand where the other is required. On types that say all there
is to say this is a partial order: every type fits itself, what fits goes on fitting through a type in
between, and two types that fit each other are the same. An array is the only type that is strictly
below one of another form, and only one step of the comparison, from an array to a sequence, changes
the form; `admits_trans` and `eq_of_admits` follow the required type down to where that happens.

The comparison of values asks for types one of which fits the other, so of concrete types it takes
exactly those that the order compares: `compatibility_isOrder`.
-/

namespace GuestScript.Ty

/-! ## What a concrete type accepts -/

section Forms

variable {wanted found : Ty} {wanteds founds : List Ty}

theorem areConcrete_iff : areConcrete founds = true ↔ ∀ type ∈ founds, type.isConcrete = true := by
  induction founds with
  | nil => exact ⟨fun _ ↦ nofun, fun _ ↦ rfl⟩
  | cons first rest ih => rw [areConcrete, Bool.and_eq_true, ih, List.forall_mem_cons]

theorem isConcrete_function_iff : (function founds found).isConcrete = true ↔
    (∀ type ∈ founds, type.isConcrete = true) ∧ found.isConcrete = true := by
  rw [isConcrete, Bool.and_eq_true, areConcrete_iff]

/-- Of concrete types, only an array stands where an array is required. -/
theorem exists_of_admits_array (concrete : found.isConcrete = true)
    (admitted : (array wanted).admits found = true) :
    ∃ element, found = array element ∧ element.isConcrete = true ∧ wanted.admits element = true := by
  cases found with
  | array element => exact ⟨element, rfl, concrete, by rwa [admits, accepts_array] at admitted⟩
  | dyn | poison => exact absurd concrete nofun
  | _ => rw [admits, accepts] at admitted; exact absurd admitted nofun

/-- Of concrete types, only an array or a sequence stands where a sequence is required. -/
theorem exists_of_admits_seq (concrete : found.isConcrete = true)
    (admitted : (seq wanted).admits found = true) :
    ∃ element, (found = array element ∨ found = seq element) ∧ element.isConcrete = true ∧
      wanted.admits element = true := by
  cases found with
  | array element =>
      exact ⟨element, .inl rfl, concrete, by rwa [admits, accepts_seq_array] at admitted⟩
  | seq element => exact ⟨element, .inr rfl, concrete, by rwa [admits, accepts_seq] at admitted⟩
  | dyn | poison => exact absurd concrete nofun
  | _ => rw [admits, accepts] at admitted; exact absurd admitted nofun

/-- Of concrete types, only a function stands where a function is required. -/
theorem exists_of_admits_function (required : (function wanteds wanted).isConcrete = true)
    (concrete : found.isConcrete = true) (admitted : (function wanteds wanted).admits found = true) :
    ∃ parameters result, found = function parameters result ∧
      List.Forall₂ (fun wanted found ↦ wanted.admits found = true) wanteds parameters ∧
      wanted.admits result = true := by
  cases found with
  | function parameters result =>
      exact ⟨parameters, result, rfl,
        (admits_function_iff (isGround_of_isConcrete required)).mp admitted⟩
  | dyn | poison => exact absurd concrete nofun
  | _ => rw [admits, accepts] at admitted; exact absurd admitted nofun

/-- Whether a type has no parts. -/
def isPlain : Ty → Bool
  | .array _ | .seq _ | .function _ _ => false
  | _ => true

/-- Where a concrete type without parts is required, no other concrete type may stand. -/
theorem eq_of_admits_plain (plain : wanted.isPlain = true) (required : wanted.isConcrete = true)
    (concrete : found.isConcrete = true) (admitted : wanted.admits found = true) : found = wanted := by
  cases wanted with
  | array _ | seq _ | function _ _ => exact absurd plain nofun
  | dyn | parameter | poison => exact absurd required nofun
  | _ =>
      cases found with
      | dyn | parameter | poison => exact absurd concrete nofun
      | _ =>
          exact ((same_iff _ _).mp (by rwa [admits, accepts] at admitted)).symm

end Forms

/-! ## The laws of an order -/

mutual

/-- What fits a concrete type fits what that one fits. -/
theorem admits_trans : {first second third : Ty} → first.isConcrete = true →
    second.isConcrete = true → third.isConcrete = true → first.admits second = true →
    second.admits third = true → first.admits third = true
  | .array element, second, third, concrete, concrete', concrete'', step, step' => by
      obtain ⟨middle, rfl, between, inner⟩ := exists_of_admits_array concrete' step
      obtain ⟨last, rfl, -, inner'⟩ := exists_of_admits_array concrete'' step'
      rw [admits, accepts_array]
      exact admits_trans concrete between concrete'' inner inner'
  | .seq element, second, third, concrete, concrete', concrete'', step, step' => by
      obtain ⟨middle, rfl | rfl, between, inner⟩ := exists_of_admits_seq concrete' step
      · obtain ⟨last, rfl, -, inner'⟩ := exists_of_admits_array concrete'' step'
        rw [admits, accepts_seq_array]
        exact admits_trans concrete between concrete'' inner inner'
      · obtain ⟨last, rfl | rfl, -, inner'⟩ := exists_of_admits_seq concrete'' step'
        · rw [admits, accepts_seq_array]
          exact admits_trans concrete between concrete'' inner inner'
        · rw [admits, accepts_seq]
          exact admits_trans concrete between concrete'' inner inner'
  | .function wanteds wanted, second, third, concrete, concrete', concrete'', step, step' => by
      obtain ⟨middles, middle, rfl, steps, inner⟩ := exists_of_admits_function concrete concrete' step
      obtain ⟨lasts, last, rfl, steps', inner'⟩ :=
        exists_of_admits_function concrete' concrete'' step'
      rw [admits_function_iff (isGround_of_isConcrete concrete)]
      obtain ⟨each, result⟩ := isConcrete_function_iff.mp concrete
      obtain ⟨each', result'⟩ := isConcrete_function_iff.mp concrete'
      obtain ⟨each'', result''⟩ := isConcrete_function_iff.mp concrete''
      exact ⟨admitsAll_trans each each' each'' steps steps',
        admits_trans result result' result'' inner inner'⟩
  | .unit, second, third, concrete, concrete', _, step, step'
  | .int, second, third, concrete, concrete', _, step, step'
  | .bool, second, third, concrete, concrete', _, step, step'
  | .str, second, third, concrete, concrete', _, step, step'
  | .object _, second, third, concrete, concrete', _, step, step' => by
      rwa [eq_of_admits_plain rfl concrete concrete' step] at step'

/-- What fits concrete types one by one fits what those fit. -/
theorem admitsAll_trans : {firsts seconds thirds : List Ty} →
    (∀ type ∈ firsts, type.isConcrete = true) → (∀ type ∈ seconds, type.isConcrete = true) →
    (∀ type ∈ thirds, type.isConcrete = true) →
    List.Forall₂ (fun wanted found ↦ wanted.admits found = true) firsts seconds →
    List.Forall₂ (fun wanted found ↦ wanted.admits found = true) seconds thirds →
    List.Forall₂ (fun wanted found ↦ wanted.admits found = true) firsts thirds
  | [], _, _, _, _, _, .nil, .nil => .nil
  | _ :: _, _, _, concrete, concrete', concrete'', .cons step steps, .cons step' steps' =>
      let ⟨first, rest⟩ := List.forall_mem_cons.mp concrete
      let ⟨first', rest'⟩ := List.forall_mem_cons.mp concrete'
      let ⟨first'', rest''⟩ := List.forall_mem_cons.mp concrete''
      .cons (admits_trans first first' first'' step step')
        (admitsAll_trans rest rest' rest'' steps steps')

end

mutual

/-- Concrete types that fit each other are the same. -/
theorem eq_of_admits : {first second : Ty} → first.isConcrete = true → second.isConcrete = true →
    first.admits second = true → second.admits first = true → first = second
  | .array element, second, concrete, concrete', step, back => by
      obtain ⟨middle, rfl, between, inner⟩ := exists_of_admits_array concrete' step
      rw [admits, accepts_array] at back
      exact congrArg array (eq_of_admits concrete between inner back)
  | .seq element, second, concrete, concrete', step, back => by
      obtain ⟨middle, rfl | rfl, between, inner⟩ := exists_of_admits_seq concrete' step
      · -- A sequence does not stand where an array is required.
        obtain ⟨_, impossible, -⟩ := exists_of_admits_array concrete back
        exact absurd impossible nofun
      · rw [admits, accepts_seq] at back
        exact congrArg seq (eq_of_admits concrete between inner back)
  | .function wanteds wanted, second, concrete, concrete', step, back => by
      obtain ⟨middles, middle, rfl, steps, inner⟩ := exists_of_admits_function concrete concrete' step
      obtain ⟨backs, outer⟩ := (admits_function_iff (isGround_of_isConcrete concrete')).mp back
      obtain ⟨each, result⟩ := isConcrete_function_iff.mp concrete
      obtain ⟨each', result'⟩ := isConcrete_function_iff.mp concrete'
      rw [eq_of_admitsAll each each' steps backs, eq_of_admits result result' inner outer]
  | .unit, second, concrete, concrete', step, _ | .int, second, concrete, concrete', step, _
  | .bool, second, concrete, concrete', step, _ | .str, second, concrete, concrete', step, _
  | .object _, second, concrete, concrete', step, _ =>
      (eq_of_admits_plain rfl concrete concrete' step).symm

/-- Concrete types that fit each other one by one are the same. -/
theorem eq_of_admitsAll : {firsts seconds : List Ty} → (∀ type ∈ firsts, type.isConcrete = true) →
    (∀ type ∈ seconds, type.isConcrete = true) →
    List.Forall₂ (fun wanted found ↦ wanted.admits found = true) firsts seconds →
    List.Forall₂ (fun wanted found ↦ wanted.admits found = true) seconds firsts →
    firsts = seconds
  | [], _, _, _, .nil, .nil => rfl
  | first :: firsts, second :: seconds, concrete, concrete', .cons step steps, .cons back backs => by
      obtain ⟨here, rest⟩ := List.forall_mem_cons.mp concrete
      obtain ⟨here', rest'⟩ := List.forall_mem_cons.mp concrete'
      rw [eq_of_admits here here' step back, eq_of_admitsAll rest rest' steps backs]

end

end GuestScript.Ty

namespace GuestScript.Compile

open Ty (accepts)

/-- Values of concrete types may be compared if one of the types fits the other, and the result is a
truth value; values of other concrete types may not. -/
theorem binaryType?_of_isConcrete {left right : Ty} (concrete : left.isConcrete = true)
    (concrete' : right.isConcrete = true) {operator : BinaryOperator}
    (compares : operator = .equal ∨ operator = .unequal) :
    binaryType? operator left right =
      if left.admits right = true ∨ right.admits left = true then some .bool else none := by
  have sound {type : Ty} (concrete : type.isConcrete = true) : type.isPoison = false := by
    cases type with
    | poison => exact absurd concrete nofun
    | _ => rfl
  obtain rfl | rfl := compares <;>
    simp only [binaryType?, sound concrete, sound concrete', Bool.or_self, Bool.false_eq_true,
      if_false, Bool.or_eq_true]

/-- On concrete types, whether one may stand where another is required does not depend on the binding
and leaves it alone, and is a partial order; and values may be compared exactly if their types are
ordered in one way or the other. -/
theorem compatibility_isOrder :
    (∀ (expected actual : Ty) (binding : Option Ty), expected.isConcrete = true →
      actual.isConcrete = true →
      accepts expected actual binding = (expected.admits actual, binding)) ∧
    (∀ type : Ty, type.isConcrete = true → type.admits type = true) ∧
    (∀ first second third : Ty, first.isConcrete = true → second.isConcrete = true →
      third.isConcrete = true → first.admits second = true → second.admits third = true →
      first.admits third = true) ∧
    (∀ first second : Ty, first.isConcrete = true → second.isConcrete = true →
      first.admits second = true → second.admits first = true → first = second) ∧
    ∀ (left right : Ty) (operator : BinaryOperator), left.isConcrete = true →
      right.isConcrete = true → operator = .equal ∨ operator = .unequal →
      binaryType? operator left right =
        if left.admits right = true ∨ right.admits left = true then some .bool else none :=
  ⟨fun _ actual binding concrete _ ↦
      Ty.accepts_of_isGround (Ty.isGround_of_isConcrete concrete) actual binding,
    fun _ concrete ↦ Ty.admits_self (Ty.isGround_of_isConcrete concrete),
    fun _ _ _ ↦ Ty.admits_trans, fun _ _ ↦ Ty.eq_of_admits,
    fun _ _ _ concrete concrete' ↦ binaryType?_of_isConcrete concrete concrete'⟩

/-- Arrays of arrays stand for sequences of sequences, also as the results of functions, and not the
other way round; arrays of sequences and sequences of arrays are not compared. -/
theorem compatibility_isOrder_nested :
    accepts (.function [] (.seq (.seq .int))) (.function [] (.array (.array .int))) (some .str) =
        (true, some .str) ∧
      ¬(Ty.array (.array .int)).admits (.seq (.array .int)) = true ∧
      binaryType? .equal (.array (.seq .int)) (.seq (.array .int)) = none := by
  obtain ⟨unbound, fits, trans, antisymm, compared⟩ := compatibility_isOrder
  refine ⟨?_, fun back ↦ ?_, compared _ _ .equal rfl rfl (.inl rfl)⟩
  · have step : (Ty.function [] (.seq (.seq .int))).admits (.function [] (.seq (.array .int))) = true :=
      rfl
    have step' : (Ty.function [] (.seq (.array .int))).admits
        (.function [] (.array (.array .int))) = true := rfl
    rw [unbound _ _ (some .str) rfl rfl, trans _ _ _ rfl rfl rfl step step']
  · have step : (Ty.seq (.array .int)).admits (.array (.array .int)) = true :=
      fits (.array .int) rfl
    exact absurd (antisymm _ _ rfl rfl back step) nofun

end GuestScript.Compile
