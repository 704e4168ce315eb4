import GuestScript.Bytecode.Image
import GuestScript.Machine.Arithmetic

/-!
# Arithmetic is exact or a fault

The operators work on 64 bits with a sign, and what they mean is said on the integers without a
bound: `BinaryOperator.exactly?` is the exact result, which only a division by zero has not got.
`applyBinary_ints` says what an arithmetic operator answers on any two integers in terms of that
exact result, one operator at a time, and everything else in this module is read off it.

One pair of operands stands out. The quotient of the least integer by `-1` is out of range while
the remainder that belongs to it is zero, and the remainder is refused with the quotient.
-/

namespace GuestScript

namespace BinaryOperator

/-- Whether an operator calculates with integers. -/
def isArithmetic : BinaryOperator → Bool
  | .add | .subtract | .multiply | .divide | .remainder => true
  | _ => false

/-- Whether an operator divides its operands. -/
def divides : BinaryOperator → Bool
  | .divide | .remainder => true
  | _ => false

/-- The exact result of an arithmetic operator on two integers. A quotient is cut toward zero, and
the remainder that belongs to it has the sign of the dividend. -/
def exactly? (operator : BinaryOperator) (left right : Int) : Option Int :=
  match operator with
  | .add => some (left + right)
  | .subtract => some (left - right)
  | .multiply => some (left * right)
  | .divide => if right = 0 then none else some (left.tdiv right)
  | .remainder => if right = 0 then none else some (left.tmod right)
  | _ => none

/-- An arithmetic operator has no exact result only where it divides by zero. -/
theorem exactly?_eq_none_iff {operator : BinaryOperator} (arithmetic : operator.isArithmetic)
    (left right : Int) :
    operator.exactly? left right = none ↔ operator.divides ∧ right = 0 := by
  cases operator <;> simp [exactly?, divides, isArithmetic] at arithmetic ⊢

end BinaryOperator

namespace Machine

variable {Code : Type}

/-- Whether an integer is one of 64 bits with a sign. -/
def Fits (value : Int) : Prop := -2 ^ 63 ≤ value ∧ value < 2 ^ 63

/-- Whether an integer fits is decided by comparing it with the bounds. -/
instance (value : Int) : Decidable (Fits value) :=
  inferInstanceAs (Decidable (-2 ^ 63 ≤ value ∧ value < 2 ^ 63))

/-- Every integer of 64 bits fits. -/
theorem fits_toInt (value : Int64) : Fits value.toInt :=
  ⟨value.le_toInt, value.toInt_lt⟩

/-- An integer that fits is not changed by storing it. -/
theorem Fits.toInt_ofInt {value : Int} (fits : Fits value) : (Int64.ofInt value).toInt = value :=
  Int64.toInt_ofInt_of_le fits.1 fits.2

/-- What lies no further from zero than an integer that fits, fits unless it is `2 ^ 63`. -/
theorem Fits.of_natAbs_le {value bound : Int} (fits : Fits bound)
    (small : value.natAbs ≤ bound.natAbs) (notLeast : value ≠ 2 ^ 63) : Fits value := by
  obtain ⟨above, below⟩ := fits
  constructor <;> omega

/-- A remainder fits when its dividend does. -/
theorem fits_tmod (dividend divisor : Int64) : Fits (dividend.toInt.tmod divisor.toInt) := by
  refine (fits_toInt dividend).of_natAbs_le ?_ ?_
  · rw [Int.natAbs_tmod]
    exact Nat.mod_le _ _
  · intro huge
    -- A positive remainder belongs to a positive dividend, and there is none as great as this.
    have least := fits_toInt dividend
    have small : (dividend.toInt.tmod divisor.toInt).natAbs ≤ dividend.toInt.natAbs := by
      rw [Int.natAbs_tmod]
      exact Nat.mod_le _ _
    have sign : dividend.toInt ≤ 0 → dividend.toInt.tmod divisor.toInt ≤ 0 := by
      intro negative
      have opposite := Int.tmod_nonneg (a := -dividend.toInt) divisor.toInt (by omega)
      rw [Int.neg_tmod] at opposite
      omega
    simp only [Fits] at least
    by_cases negative : dividend.toInt ≤ 0
    · have := sign negative
      omega
    · omega

/-- The product of a quotient and its divisor fits when the dividend does. -/
theorem fits_tdiv_mul (dividend divisor : Int64) :
    Fits (dividend.toInt.tdiv divisor.toInt * divisor.toInt) := by
  have small : (dividend.toInt.tdiv divisor.toInt * divisor.toInt).natAbs ≤
      dividend.toInt.natAbs := by
    rw [Int.natAbs_mul, Int.natAbs_tdiv]
    exact Nat.div_mul_le_self _ _
  refine (fits_toInt dividend).of_natAbs_le small ?_
  intro huge
  -- The dividend would have to be the least integer, and the remainder would not fit.
  have whole := Int.tdiv_mul_add_tmod dividend.toInt divisor.toInt
  have rest := fits_tmod dividend divisor
  have bounds := fits_toInt dividend
  simp only [Fits] at rest bounds
  omega

/-- An arithmetic operator on stored integers has no exact result only at a zero divisor. -/
theorem exactly?_toInt_eq_none_iff {operator : BinaryOperator}
    (arithmetic : operator.isArithmetic) (left right : Int64) :
    operator.exactly? left.toInt right.toInt = none ↔ operator.divides ∧ right = 0 := by
  rw [operator.exactly?_eq_none_iff arithmetic, ← Int64.toInt_inj, Int64.toInt_zero]

/-- Whether an arithmetic operator has an exact result that fits. -/
def ResultFits (operator : BinaryOperator) (left right : Int) : Prop :=
  ∃ value, operator.exactly? left right = some value ∧ Fits value

/-- Whether an arithmetic operator has an exact result that fits and that does not belong, as the
remainder, to a quotient that does not. -/
def ResultAndQuotientFit (operator : BinaryOperator) (left right : Int) : Prop :=
  ResultFits operator left right ∧ (operator = .remainder → Fits (left.tdiv right))

/-- What the arithmetic of the machine promises, if `delivered` says where the exact result is to
be returned and not refused. -/
structure IsExactOrFaults (Code : Type) (delivered : BinaryOperator → Int → Int → Prop) :
    Prop where
  /-- The exact result is returned where it is to be. -/
  result : ∀ operator : BinaryOperator, ∀ left right : Int64, ∀ value,
    operator.exactly? left.toInt right.toInt = some value →
    delivered operator left.toInt right.toInt →
    ∃ stored : Int64, stored.toInt = value ∧
      applyBinary operator (.int left) (.int right : ValueOver Code) = .ok (.int stored)
  /-- A division by zero is reported for the operators that divide, at a zero divisor. -/
  divisionByZero : ∀ operator : BinaryOperator, operator.isArithmetic → ∀ left right : Int64,
    (applyBinary operator (.int left) (.int right : ValueOver Code) = .error .divisionByZero ↔
      operator.divides ∧ right = 0)
  /-- An overflow is reported where there is an exact result and it is not to be returned. -/
  overflow : ∀ operator : BinaryOperator, operator.isArithmetic → ∀ left right : Int64,
    ∀ symbol,
    (applyBinary operator (.int left) (.int right : ValueOver Code) = .error (.overflow symbol) ↔
      symbol = operator.symbol ∧ ¬(operator.divides ∧ right = 0) ∧
        ¬delivered operator left.toInt right.toInt)
  /-- The negation is returned where it fits. -/
  negated : ∀ value : Int64, Fits (-value.toInt) →
    ∃ stored : Int64, stored.toInt = -value.toInt ∧
      applyUnary .negate (.int value : ValueOver Code) = .ok (.int stored)
  /-- A negation faults only by overflow, where it does not fit. -/
  notNegated : ∀ value : Int64, ∀ fault,
    (applyUnary .negate (.int value : ValueOver Code) = .error fault ↔
      fault = .overflow UnaryOperator.negate.symbol ∧ ¬Fits (-value.toInt))
  /-- Quotient and remainder give the dividend back, and no step on the way faults. -/
  recovered : ∀ dividend divisor : Int64, divisor ≠ 0 →
    Fits (dividend.toInt.tdiv divisor.toInt) →
    ∃ quotient product rest : Int64,
      applyBinary .divide (.int dividend) (.int divisor : ValueOver Code) = .ok (.int quotient) ∧
      applyBinary .multiply (.int quotient) (.int divisor : ValueOver Code) =
        .ok (.int product) ∧
      applyBinary .remainder (.int dividend) (.int divisor : ValueOver Code) = .ok (.int rest) ∧
      applyBinary .add (.int product) (.int rest : ValueOver Code) = .ok (.int dividend)

/-! ### One operator at a time -/

@[simp] theorem exact_of_fits {value : Int} (fits : Fits value) (symbol : String) :
    (exact symbol value : Except Fault (ValueOver Code)) = .ok (.int (Int64.ofInt value)) :=
  if_pos fits

@[simp] theorem exact_of_not_fits {value : Int} (outside : ¬Fits value) (symbol : String) :
    (exact symbol value : Except Fault (ValueOver Code)) = .error (.overflow symbol) :=
  if_neg outside

theorem applyInts_ints (operation : Int → Int → Except Fault (ValueOver Code))
    (left right : Int64) :
    applyInts operation (.int left) (.int right) = operation left.toInt right.toInt := rfl

/-- An exact result is returned if it fits, and is an overflow if it does not. -/
theorem exact_cases (Code : Type) (symbol : String) (value : Int) :
    Fits value ∧
        (exact symbol value : Except Fault (ValueOver Code)) = .ok (.int (Int64.ofInt value)) ∨
      ¬Fits value ∧
        (exact symbol value : Except Fault (ValueOver Code)) = .error (.overflow symbol) := by
  by_cases fits : Fits value
  · exact .inl ⟨fits, exact_of_fits fits symbol⟩
  · exact .inr ⟨fits, exact_of_not_fits fits symbol⟩

/-- What an arithmetic operator answers on two integers: a division by zero if there is no exact
result, that result if it and its quotient fit, and an overflow otherwise. -/
theorem applyBinary_ints (Code : Type) {operator : BinaryOperator}
    (arithmetic : operator.isArithmetic)
    (left right : Int64) :
    operator.exactly? left.toInt right.toInt = none ∧
        applyBinary operator (.int left) (.int right : ValueOver Code) = .error .divisionByZero ∨
      ∃ value, operator.exactly? left.toInt right.toInt = some value ∧
        (ResultAndQuotientFit operator left.toInt right.toInt ∧ Fits value ∧
            applyBinary operator (.int left) (.int right : ValueOver Code) =
              .ok (.int (Int64.ofInt value)) ∨
          ¬ResultAndQuotientFit operator left.toInt right.toInt ∧
            applyBinary operator (.int left) (.int right : ValueOver Code) =
              .error (.overflow operator.symbol)) := by
  cases operator with
  | add | subtract | multiply =>
      refine .inr ⟨_, rfl, ?_⟩
      simp only [applyBinary, applyInts_ints, ResultAndQuotientFit, ResultFits,
        BinaryOperator.exactly?, Option.some.injEq, exists_eq_left', reduceCtorEq, false_implies,
        and_true]
      exact (exact_cases Code _ _).imp (fun kept ↦ ⟨kept.1, kept⟩) id
  | divide =>
      by_cases zero : right.toInt = 0
      · exact .inl ⟨by simp [BinaryOperator.exactly?, zero], by
          simp [applyBinary, applyInts_ints, divideBy, zero]⟩
      refine .inr ⟨left.toInt.tdiv right.toInt, by simp [BinaryOperator.exactly?, zero], ?_⟩
      simp only [applyBinary, applyInts_ints, divideBy, zero, ResultAndQuotientFit, ResultFits,
        BinaryOperator.exactly?, if_false, Option.some.injEq, exists_eq_left', reduceCtorEq,
        false_implies, and_true]
      exact (exact_cases Code _ _).imp (fun kept ↦ ⟨kept.1, kept⟩) id
  | remainder =>
      by_cases zero : right.toInt = 0
      · exact .inl ⟨by simp [BinaryOperator.exactly?, zero], by
          simp [applyBinary, applyInts_ints, remainderBy, zero]⟩
      refine .inr ⟨left.toInt.tmod right.toInt, by simp [BinaryOperator.exactly?, zero], ?_⟩
      have fits := fits_tmod left right
      simp only [applyBinary, applyInts_ints, remainderBy, zero, ResultAndQuotientFit, ResultFits,
        BinaryOperator.exactly?, if_false, Option.some.injEq, exists_eq_left', fits, true_and,
        true_implies, exact_of_fits]
      -- The remainder always fits, so it is the quotient that decides.
      obtain ⟨quotient, kept⟩ | ⟨quotient, refused⟩ :=
        exact_cases Code BinaryOperator.remainder.symbol (left.toInt.tdiv right.toInt)
      · exact .inl ⟨quotient, by rw [kept]⟩
      · exact .inr ⟨quotient, by rw [refused]⟩
  | _ => simp [BinaryOperator.isArithmetic] at arithmetic

/-- Integer arithmetic is exact or faults: the exact result is returned whenever it fits and does
not belong, as the remainder, to a quotient that does not fit. -/
theorem isExactOrFaults (Code : Type) : IsExactOrFaults Code ResultAndQuotientFit where
  result operator left right value found fits := by
    have arithmetic : operator.isArithmetic := by
      cases operator <;> simp_all [BinaryOperator.exactly?, BinaryOperator.isArithmetic]
    obtain ⟨none, -⟩ | ⟨value', found', ⟨-, inside, answer⟩ | ⟨outside, -⟩⟩ :=
      applyBinary_ints Code arithmetic left right
    · rw [none] at found
      cases found
    · obtain rfl : value' = value := Option.some.inj (found'.symm.trans found)
      exact ⟨_, inside.toInt_ofInt, answer⟩
    · exact absurd fits outside
  divisionByZero operator arithmetic left right := by
    rw [← exactly?_toInt_eq_none_iff arithmetic left right]
    obtain ⟨missing, answer⟩ | ⟨value, found, ⟨-, -, answer⟩ | ⟨-, answer⟩⟩ :=
      applyBinary_ints Code arithmetic left right
    · simp [missing, answer]
    · simp [found, answer]
    · simp [found, answer]
  overflow operator arithmetic left right symbol := by
    rw [← exactly?_toInt_eq_none_iff arithmetic left right]
    obtain ⟨missing, answer⟩ | ⟨value, found, ⟨fits, -, answer⟩ | ⟨outside, answer⟩⟩ :=
      applyBinary_ints Code arithmetic left right
    · simp [missing, answer]
    · simp [found, answer, fits]
    · simp [found, answer, outside, eq_comm]
  negated value fits :=
    ⟨_, fits.toInt_ofInt, exact_of_fits fits UnaryOperator.negate.symbol⟩
  notNegated value fault := by
    change exact UnaryOperator.negate.symbol (-value.toInt) = .error fault ↔ _
    by_cases fits : Fits (-value.toInt)
    · simp [fits]
    · simp [fits, eq_comm]
  recovered dividend divisor nonzero fits := by
    have notZero : divisor.toInt ≠ 0 := fun zero ↦ nonzero (Int64.toInt_inj.mp zero)
    have product := fits_tdiv_mul dividend divisor
    have rest := fits_tmod dividend divisor
    have whole := Int.tdiv_mul_add_tmod dividend.toInt divisor.toInt
    refine ⟨Int64.ofInt (dividend.toInt.tdiv divisor.toInt),
      Int64.ofInt (dividend.toInt.tdiv divisor.toInt * divisor.toInt),
      Int64.ofInt (dividend.toInt.tmod divisor.toInt), ?_, ?_, ?_, ?_⟩
    · simp [applyBinary, applyInts_ints, divideBy, notZero, fits]
    · simp [applyBinary, applyInts_ints, fits.toInt_ofInt, product]
    · simp [applyBinary, applyInts_ints, remainderBy, notZero, fits, rest]
    · change exact BinaryOperator.add.symbol (_ + _) = _
      rw [product.toInt_ofInt, rest.toInt_ofInt, whole, exact_of_fits (fits_toInt dividend),
        Int64.ofInt_toInt]

/-- The remainder of the least integer by `-1` is zero, which fits, and is refused all the same:
that every exact result that fits is returned is too much to promise. -/
theorem not_isExactOrFaults_resultFits : ¬IsExactOrFaults Bytecode.RoutineIndex ResultFits := by
  intro promise
  obtain ⟨stored, -, answer⟩ :=
    promise.result .remainder Int64.minValue (-1) 0 (by decide) ⟨0, by decide, by decide⟩
  have refused :
      applyBinary .remainder (.int Int64.minValue)
          (.int (-1) : ValueOver Bytecode.RoutineIndex) =
        .error (.overflow BinaryOperator.remainder.symbol) := by
    rfl
  rw [refused] at answer
  cases answer

end Machine

end GuestScript
