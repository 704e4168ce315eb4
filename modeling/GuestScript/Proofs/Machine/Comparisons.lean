import GuestScript.Machine.Arithmetic
import GuestScript.Proofs.Text.Utf8

/-!
# Comparisons are coherent

Any two values can be asked whether they are equal, and that is an equivalence as long as there is no
cursor in them; a cursor does not even equal itself. Integers and texts are in a linear order, each
kind on its own, and no other values are. Equality is a function on its own, apart from the order, so
what has to be shown is that the one says "equal" where the other says neither "less" nor "greater".
-/

namespace GuestScript

/-- Whether an operator asks for the order of two values. -/
def BinaryOperator.isOrder : BinaryOperator → Bool
  | .less | .atMost | .greater | .atLeast => true
  | _ => false

namespace Machine

variable {Code : Type}

/-! ## Equality -/

namespace ValueOver

mutual

/-- Whether there is no cursor in a value, its items included. Nothing is asked of what closures,
sequences and objects hold, because it is not compared. -/
def isCursorFree : ValueOver Code → Bool
  | .cursor .. => false
  | .array items => areCursorFree items
  | _ => true

/-- Whether there is no cursor in any of these values. -/
def areCursorFree : List (ValueOver Code) → Bool
  | [] => true
  | first :: rest => isCursorFree first && areCursorFree rest

end

mutual

/-- What has no cursor in it equals itself, and nothing else does. -/
theorem equals_self : (value : ValueOver Code) → value.equals value = value.isCursorFree
  | .unit | .int _ | .bool _ | .str _ | .object _ | .closure _ | .seq .. => by
      simp [equals, isCursorFree]
  | .cursor .. => rfl
  | .array items => by
      rw [equals, isCursorFree]
      exact allEqual_self items

theorem allEqual_self : (values : List (ValueOver Code)) →
    allEqual values values = areCursorFree values
  | [] => rfl
  | first :: rest => by
      rw [allEqual, areCursorFree, equals_self first, allEqual_self rest]

end

mutual

theorem equals_symm : (first second : ValueOver Code) →
    first.equals second = second.equals first
  | .unit, other | .cursor .., other => by cases other <;> rfl
  | .int _, other | .bool _, other | .str _, other | .object _, other | .closure _, other
  | .seq .., other => by cases other <;> simp [equals, eq_comm]
  | .array items, other => by
      cases other with
      | array others =>
          rw [equals, equals]
          exact allEqual_symm items others
      | _ => rfl

theorem allEqual_symm : (firsts seconds : List (ValueOver Code)) →
    allEqual firsts seconds = allEqual seconds firsts
  | [], seconds => by cases seconds <;> rfl
  | first :: firsts, seconds => by
      cases seconds with
      | nil => rfl
      | cons second seconds =>
          rw [allEqual, allEqual, equals_symm first second, allEqual_symm firsts seconds]

end

mutual

theorem equals_trans : (first second third : ValueOver Code) → first.equals second = true →
    second.equals third = true → first.equals third = true
  | .unit, second, third, same, same' => by
      cases second <;> simp only [equals, Bool.false_eq_true] at same
      exact same'
  | .cursor .., second, _, same, _ => by
      cases second <;> simp only [equals, Bool.false_eq_true] at same
  | .int _, second, third, same, same' | .bool _, second, third, same, same'
  | .str _, second, third, same, same' | .object _, second, third, same, same'
  | .closure _, second, third, same, same' | .seq .., second, third, same, same' => by
      cases second <;> simp only [equals, Bool.false_eq_true, decide_eq_true_eq] at same
      cases third <;> simp only [equals, Bool.false_eq_true, decide_eq_true_eq] at same' ⊢
      exact same.trans same'
  | .array firsts, second, third, same, same' => by
      cases second <;> simp only [equals, Bool.false_eq_true] at same
      cases third <;> simp only [equals, Bool.false_eq_true] at same' ⊢
      exact allEqual_trans firsts _ _ same same'

theorem allEqual_trans : (firsts seconds thirds : List (ValueOver Code)) →
    allEqual firsts seconds = true → allEqual seconds thirds = true →
    allEqual firsts thirds = true
  | [], seconds, _, same, same' => by
      cases seconds with
      | nil => exact same'
      | cons => exact absurd same nofun
  | first :: firsts, seconds, thirds, same, same' => by
      cases seconds with
      | nil => exact absurd same nofun
      | cons second seconds =>
          cases thirds with
          | nil => exact absurd same' nofun
          | cons third thirds =>
              simp only [allEqual, Bool.and_eq_true] at same same' ⊢
              exact ⟨equals_trans first second third same.1 same'.1,
                allEqual_trans firsts seconds thirds same.2 same'.2⟩

end

end ValueOver

/-! ## Order -/

section Elements

variable {Element : Type} [LT Element] [DecidableLT Element] [DecidableEq Element]
  {first second : Element}

theorem orderOf_eq_lt_iff : orderOf first second = .lt ↔ first < second := by
  rw [orderOf]
  split
  · next less => simpa using less
  · next notLess => split <;> simpa using notLess

theorem orderOf_eq_eq_iff [Std.Irrefl fun less more : Element ↦ less < more] :
    orderOf first second = .eq ↔ first = second := by
  have itself : ¬ first < first :=
    Std.Irrefl.irrefl (r := fun less more : Element ↦ less < more) first
  rw [orderOf]
  split
  · next less =>
      simp only [reduceCtorEq, false_iff]
      rintro rfl
      exact itself less
  · split <;> simpa

end Elements

/-- An operator answers that it is so. -/
def Holds (operator : BinaryOperator) (left right : ValueOver Code) : Prop :=
  applyBinary operator left right = .ok (.bool true)

/-- Two values are both integers or both texts. -/
def AreComparable (left right : ValueOver Code) : Prop :=
  left.kind = .int ∧ right.kind = .int ∨ left.kind = .str ∧ right.kind = .str

section Values

variable {operator : BinaryOperator} {left right third : ValueOver Code} {order : Ordering}
  {wanted : Ordering → Bool}

theorem AreComparable.exists_order (comparable : AreComparable left right) :
    ∃ order, compareValues left right = .ok order := by
  obtain ⟨kind, kind'⟩ | ⟨kind, kind'⟩ := comparable <;>
    cases left <;> simp only [ValueOver.kind, reduceCtorEq] at kind <;>
    cases right <;> simp only [ValueOver.kind, reduceCtorEq] at kind' <;>
    exact ⟨_, rfl⟩

/-- The order of other values is a mismatch. -/
theorem compareValues_of_not_comparable (incomparable : ¬ AreComparable left right) :
    ∃ mismatch, compareValues left right = .error (.typeMismatch mismatch) := by
  cases left with
  | int value =>
      cases right with
      | int other => exact absurd (.inl ⟨rfl, rfl⟩) incomparable
      | _ => exact ⟨_, rfl⟩
  | str value =>
      cases right with
      | str other => exact absurd (.inr ⟨rfl, rfl⟩) incomparable
      | _ => exact ⟨_, rfl⟩
  | _ => exact ⟨_, rfl⟩

/-- Every operator that asks for an order compares the values first. -/
theorem exists_wanted (asks : operator.isOrder = true) :
    ∃ wanted, ∀ left right : ValueOver Code,
      applyBinary operator left right = applyOrder wanted left right := by
  cases operator <;> first | exact absurd asks Bool.false_ne_true | exact ⟨_, fun _ _ ↦ rfl⟩

theorem applyOrder_of_ok (compared : compareValues left right = .ok order) :
    applyOrder wanted left right = .ok (.bool (wanted order)) := by
  rw [applyOrder, compared]
  rfl

theorem applyOrder_of_error {fault : Fault} (compared : compareValues left right = .error fault) :
    applyOrder wanted left right = .error fault := by
  rw [applyOrder, compared]
  rfl

theorem holds_order_iff (compared : compareValues left right = .ok order) :
    applyOrder wanted left right = .ok (.bool true) ↔ wanted order = true := by
  rw [applyOrder_of_ok compared]
  simp

/-- The order of two values is that of equal ones exactly if they are equal. -/
theorem equals_iff_of_compare (compared : compareValues left right = .ok order) :
    left.equals right = true ↔ order = .eq := by
  cases left <;> cases right <;>
    simp only [compareValues, reduceCtorEq, Except.ok.injEq] at compared <;> subst compared <;>
    simp only [ValueOver.equals, decide_eq_true_eq, orderOf_eq_eq_iff]

theorem holds_less_iff (compared : compareValues left right = .ok order) :
    Holds .less left right ↔ order = .lt :=
  (holds_order_iff compared).trans Ordering.isLT_iff_eq_lt

theorem holds_greater_iff (compared : compareValues left right = .ok order) :
    Holds .greater left right ↔ order = .gt :=
  (holds_order_iff compared).trans Ordering.isGT_iff_eq_gt

theorem holds_equal_iff : Holds .equal left right ↔ left.equals right = true := by
  simp [Holds, applyBinary]

/-- What is less than another value is an integer or a text less than another one. -/
theorem holds_less_cases (less : Holds .less left right) :
    (∃ first second, left = .int first ∧ right = .int second ∧ first < second) ∨
      ∃ first second, left = .str first ∧ right = .str second ∧ first < second := by
  by_cases comparable : AreComparable left right
  · obtain ⟨order, compared⟩ := comparable.exists_order
    obtain rfl := (holds_less_iff compared).mp less
    cases left <;> cases right <;> simp only [compareValues, reduceCtorEq, Except.ok.injEq,
      orderOf_eq_lt_iff] at compared
    · exact .inl ⟨_, _, rfl, rfl, compared⟩
    · exact .inr ⟨_, _, rfl, rfl, compared⟩
  · obtain ⟨mismatch, compared⟩ := compareValues_of_not_comparable comparable
    exact absurd ((applyOrder_of_error compared).symm.trans less) nofun

theorem holds_less_ints {first second : Int64} :
    Holds .less (.int first : ValueOver Code) (.int second) ↔ first < second :=
  (holds_less_iff rfl).trans orderOf_eq_lt_iff

theorem holds_less_texts {first second : String} :
    Holds .less (.str first : ValueOver Code) (.str second) ↔ first < second :=
  (holds_less_iff rfl).trans orderOf_eq_lt_iff

theorem holds_less_trans (less : Holds .less left right) (less' : Holds .less right third) :
    Holds .less left third := by
  obtain ⟨first, second, rfl, rfl, below⟩ | ⟨first, second, rfl, rfl, below⟩ :=
    holds_less_cases less
  · obtain ⟨_, last, same, rfl, below'⟩ | ⟨_, _, same, -, -⟩ := holds_less_cases less'
    · cases same
      exact holds_less_ints.mpr (Std.lt_trans below below')
    · cases same
  · obtain ⟨_, _, same, -, -⟩ | ⟨_, last, same, rfl, below'⟩ := holds_less_cases less'
    · cases same
    · cases same
      exact holds_less_texts.mpr (Std.lt_trans below below')

end Values

/-! ## Both together -/

/-- The comparisons fit together: equality is an equivalence, and the order, where there is one, is
linear and has the same equality. -/
structure ComparesCoherently (Code : Type) : Prop where
  equality : ∀ left right : ValueOver Code,
    applyBinary .equal left right = .ok (.bool (left.equals right)) ∧
      applyBinary .unequal left right = .ok (.bool !left.equals right)
  equivalence : Equivalence fun left right : { value : ValueOver Code // value.isCursorFree } ↦
    left.val.equals right.val = true
  refuses : ∀ {operator : BinaryOperator} {left right : ValueOver Code}, operator.isOrder →
    ¬ AreComparable left right →
    ∃ mismatch, applyBinary operator left right = .error (.typeMismatch mismatch)
  answers : ∀ {operator : BinaryOperator} {left right : ValueOver Code}, operator.isOrder →
    AreComparable left right → ∃ holds, applyBinary operator left right = .ok (.bool holds)
  exactlyOne : ∀ {left right : ValueOver Code}, AreComparable left right →
    (Holds .less left right ∧ ¬ Holds .equal left right ∧ ¬ Holds .greater left right) ∨
      (¬ Holds .less left right ∧ Holds .equal left right ∧ ¬ Holds .greater left right) ∨
      (¬ Holds .less left right ∧ ¬ Holds .equal left right ∧ Holds .greater left right)
  atMost : ∀ {left right : ValueOver Code}, AreComparable left right →
    (Holds .atMost left right ↔ ¬ Holds .greater left right)
  atLeast : ∀ {left right : ValueOver Code}, AreComparable left right →
    (Holds .atLeast left right ↔ ¬ Holds .less left right)
  transitive : ∀ {left middle right : ValueOver Code}, Holds .less left middle →
    Holds .less middle right → Holds .less left right
  integers : ∀ {first second : Int64},
    Holds .less (.int first : ValueOver Code) (.int second) ↔ first.toInt < second.toInt
  texts : ∀ {first second : String},
    Holds .less (.str first : ValueOver Code) (.str second) ↔
      List.Lex (· < ·) (Utf8.encode first) (Utf8.encode second)

/-- The comparison operators are coherent. -/
theorem comparesCoherently (Code : Type) : ComparesCoherently Code where
  equality _ _ := ⟨rfl, rfl⟩
  equivalence :=
    { refl := fun ⟨value, free⟩ ↦ value.equals_self.trans free
      symm := fun {first second} same ↦ (first.val.equals_symm second.val).symm.trans same
      trans := fun {first second third} ↦ first.val.equals_trans second.val third.val }
  refuses asks incomparable := by
    obtain ⟨wanted, same⟩ := @exists_wanted Code _ asks
    obtain ⟨mismatch, compared⟩ := compareValues_of_not_comparable incomparable
    exact ⟨mismatch, (same _ _).trans (applyOrder_of_error compared)⟩
  answers asks comparable := by
    obtain ⟨wanted, same⟩ := @exists_wanted Code _ asks
    obtain ⟨order, compared⟩ := comparable.exists_order
    exact ⟨wanted order, (same _ _).trans (applyOrder_of_ok compared)⟩
  exactlyOne comparable := by
    obtain ⟨order, compared⟩ := comparable.exists_order
    rw [holds_less_iff compared, holds_greater_iff compared, holds_equal_iff,
      equals_iff_of_compare compared]
    cases order <;> simp
  atMost comparable := by
    obtain ⟨order, compared⟩ := comparable.exists_order
    rw [holds_greater_iff compared]
    exact (holds_order_iff compared).trans Ordering.isLE_iff_ne_gt
  atLeast comparable := by
    obtain ⟨order, compared⟩ := comparable.exists_order
    rw [holds_less_iff compared]
    exact (holds_order_iff compared).trans Ordering.isGE_iff_ne_lt
  transitive := holds_less_trans
  integers := holds_less_ints.trans Int64.lt_iff_toInt_lt
  texts := holds_less_texts.trans Utf8.lt_iff_encode_lt

end Machine

end GuestScript
