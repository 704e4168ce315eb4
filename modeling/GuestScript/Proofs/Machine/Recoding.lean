import GuestScript.Machine.Host
import GuestScript.Machine.Arithmetic

/-!
# Values do not depend on what closures run

`recode change` puts other code into every closure of a value and leaves everything else as it is.
No operation of the machine looks at the code of a closure, so each of them commutes with `recode`:
its result on recoded operands is the recoded result. `RecodedWorld` goes on with the world and
with the replies of host functions.
-/

namespace GuestScript.Machine

variable {Code Other : Type} (change : Code → Other)

mutual

/-- Change the code of every closure in a value. -/
def ValueOver.recode : ValueOver Code → ValueOver Other
  | .unit => .unit
  | .int value => .int value
  | .bool value => .bool value
  | .str value => .str value
  | .array items => .array (recodeAll items)
  | .seq identity source stages => .seq identity (recodeAll source) (recodeStages stages)
  | .closure closure => .closure closure.recode
  | .object reference => .object reference
  | .cursor items position => .cursor (recodeAll items) position

/-- Change the code of every closure in values. -/
def recodeAll : List (ValueOver Code) → List (ValueOver Other)
  | [] => []
  | first :: rest => first.recode :: recodeAll rest

/-- Change the code of every closure in stages. -/
def recodeStages : List (StageOver Code) → List (StageOver Other)
  | [] => []
  | first :: rest => first.recode :: recodeStages rest

/-- Change the code of a closure and of every closure that it captured. -/
def ClosureOver.recode : ClosureOver Code → ClosureOver Other
  | .mk identity code captures => .mk identity (change code) (recodeAll captures)

/-- Change the code of the closure of a stage. -/
def StageOver.recode : StageOver Code → StageOver Other
  | .filter predicate => .filter predicate.recode
  | .map mapper => .map mapper.recode

end

@[simp]
theorem recodeAll_eq_map (values : List (ValueOver Code)) :
    recodeAll change values = values.map (ValueOver.recode change) := by
  induction values with
  | nil => rfl
  | cons first rest ih => simp only [recodeAll, ih, List.map_cons]

@[simp]
theorem recodeStages_eq_map (stages : List (StageOver Code)) :
    recodeStages change stages = stages.map (StageOver.recode change) := by
  induction stages with
  | nil => rfl
  | cons first rest ih => simp only [recodeStages, ih, List.map_cons]

attribute [simp] ValueOver.recode ClosureOver.recode StageOver.recode

/-! ## Composition -/

mutual

/-- Changing codes twice is changing them once. -/
theorem ValueOver.recode_recode {Third : Type} (again : Other → Third) :
    (value : ValueOver Code) →
      (value.recode change).recode again = value.recode (again ∘ change)
  | .unit | .int _ | .bool _ | .str _ | .object _ => rfl
  | .array items => by
      simp only [ValueOver.recode, recodeAll_recodeAll again items]
  | .seq _ source stages => by
      simp only [ValueOver.recode, recodeAll_recodeAll again source,
        recodeStages_recodeStages again stages]
  | .closure closure => by
      simp only [ValueOver.recode, closure.recode_recode again]
  | .cursor items _ => by
      simp only [ValueOver.recode, recodeAll_recodeAll again items]

/-- Changing the codes in values twice is changing them once. -/
theorem recodeAll_recodeAll {Third : Type} (again : Other → Third) :
    (values : List (ValueOver Code)) →
      recodeAll again (recodeAll change values) = recodeAll (again ∘ change) values
  | [] => rfl
  | first :: rest => by
      simp only [recodeAll, first.recode_recode again, recodeAll_recodeAll again rest]

/-- Changing the codes in stages twice is changing them once. -/
theorem recodeStages_recodeStages {Third : Type} (again : Other → Third) :
    (stages : List (StageOver Code)) →
      recodeStages again (recodeStages change stages) = recodeStages (again ∘ change) stages
  | [] => rfl
  | first :: rest => by
      simp only [recodeStages, first.recode_recode again, recodeStages_recodeStages again rest]

/-- Changing the codes in a closure twice is changing them once. -/
theorem ClosureOver.recode_recode {Third : Type} (again : Other → Third) :
    (closure : ClosureOver Code) →
      (closure.recode change).recode again = closure.recode (again ∘ change)
  | .mk _ _ captures => by
      simp only [ClosureOver.recode, recodeAll_recodeAll again captures, Function.comp_apply]

/-- Changing the codes in a stage twice is changing them once. -/
theorem StageOver.recode_recode {Third : Type} (again : Other → Third) :
    (stage : StageOver Code) →
      (stage.recode change).recode again = stage.recode (again ∘ change)
  | .filter closure | .map closure => by
      simp only [StageOver.recode, closure.recode_recode again]

end

/-! ## Closures and kinds -/

@[simp]
theorem ClosureOver.identity_recode (closure : ClosureOver Code) :
    (closure.recode change).identity = closure.identity := by
  cases closure; rfl

@[simp]
theorem ClosureOver.code_recode (closure : ClosureOver Code) :
    (closure.recode change).code = change closure.code := by
  cases closure; rfl

@[simp]
theorem ClosureOver.captures_recode (closure : ClosureOver Code) :
    (closure.recode change).captures = closure.captures.map (ValueOver.recode change) := by
  cases closure
  simp only [ClosureOver.recode, ClosureOver.captures, recodeAll_eq_map]

@[simp]
theorem StageOver.closure_recode (stage : StageOver Code) :
    (stage.recode change).closure = stage.closure.recode change := by
  cases stage <;> rfl

namespace ValueOver

@[simp]
theorem kind_recode (value : ValueOver Code) : (value.recode change).kind = value.kind := by
  cases value <;> rfl

@[simp]
theorem mismatch_recode (value : ValueOver Code) (expected : Kind) :
    (value.recode change).mismatch expected = value.mismatch expected := by
  simp only [mismatch, kind_recode]

@[simp]
theorem recode_ofConstant (constant : Bytecode.Constant) :
    (ofConstant constant : ValueOver Code).recode change = ofConstant constant := by
  cases constant <;> rfl

@[simp]
theorem recode_ofCount (count : Nat) :
    (ofCount count : ValueOver Code).recode change = ofCount count := by
  simp only [ofCount, recode]

/-! ## Conversions -/

@[simp]
theorem toInt_recode (value : ValueOver Code) : (value.recode change).toInt = value.toInt := by
  cases value <;> rfl

@[simp]
theorem toBool_recode (value : ValueOver Code) : (value.recode change).toBool = value.toBool := by
  cases value <;> rfl

@[simp]
theorem toStr_recode (value : ValueOver Code) : (value.recode change).toStr = value.toStr := by
  cases value <;> rfl

@[simp]
theorem toReference_recode (value : ValueOver Code) :
    (value.recode change).toReference = value.toReference := by
  cases value <;> rfl

@[simp]
theorem toItems_recode (value : ValueOver Code) :
    (value.recode change).toItems = value.toItems.map (List.map (recode change)) := by
  cases value <;> simp [toItems, Except.map, mismatch, kind]

@[simp]
theorem toClosure_recode (value : ValueOver Code) :
    (value.recode change).toClosure = value.toClosure.map (ClosureOver.recode change) := by
  cases value <;> simp [toClosure, Except.map, mismatch, kind]

@[simp]
theorem toSeq_recode (value : ValueOver Code) :
    (value.recode change).toSeq = value.toSeq.map fun (source, stages) ↦
      (source.map (recode change), stages.map (StageOver.recode change)) := by
  cases value <;> simp [toSeq, Except.map, mismatch, kind]

/-! ## Equality and display -/

mutual

/-- The code of closures takes no part in equality. -/
@[simp]
theorem equals_recode : (first second : ValueOver Code) →
    (first.recode change).equals (second.recode change) = first.equals second
  | .array firsts, .array seconds => by
      simp only [recode, equals]
      exact allEqual_recode firsts seconds
  | .closure first, .closure second => by
      simp only [recode, equals, ClosureOver.identity_recode]
  | .unit, second | .int _, second | .bool _, second | .str _, second | .object _, second
  | .seq .., second | .cursor .., second => by cases second <;> rfl
  | .array _, .unit | .array _, .int _ | .array _, .bool _ | .array _, .str _
  | .array _, .seq .. | .array _, .closure _ | .array _, .object _ | .array _, .cursor .. => rfl
  | .closure _, .unit | .closure _, .int _ | .closure _, .bool _ | .closure _, .str _
  | .closure _, .array _ | .closure _, .seq .. | .closure _, .object _
  | .closure _, .cursor .. => rfl

/-- The code of closures takes no part in the equality of lists. -/
theorem allEqual_recode : (firsts seconds : List (ValueOver Code)) →
    allEqual (recodeAll change firsts) (recodeAll change seconds) = allEqual firsts seconds
  | [], [] | [], _ :: _ | _ :: _, [] => rfl
  | first :: firsts, second :: seconds => by
      simp only [recodeAll, allEqual, equals_recode first second, allEqual_recode firsts seconds]

end

mutual

/-- The code of closures does not show. -/
@[simp]
theorem display_recode : (value : ValueOver Code) → (value.recode change).display = value.display
  | .unit | .int _ | .bool true | .bool false | .str _ | .array [] | .seq .. | .closure _
  | .object _ | .cursor .. => rfl
  | .array (first :: rest) => by
      simp only [recode, recodeAll, display, display_recode first]
      rw [displayRest_recode rest]

/-- The code of closures does not show behind a text. -/
theorem displayRest_recode : (values : List (ValueOver Code)) → (written : String) →
    displayRest (recodeAll change values) written = displayRest values written
  | [], _ => rfl
  | first :: rest, written => by
      simp only [recodeAll, displayRest, display_recode first, displayRest_recode rest]

end

end ValueOver

/-! ## Operators -/

@[simp]
theorem exact_recode (symbol : String) (value : Int) :
    (exact symbol value : Except Fault (ValueOver Code)).map (ValueOver.recode change)
      = exact symbol value := by
  simp only [exact]
  split <;> rfl

/-- Unary operators look at no code. -/
theorem applyUnary_recode (operator : UnaryOperator) (operand : ValueOver Code) :
    applyUnary operator (operand.recode change)
      = (applyUnary operator operand).map (ValueOver.recode change) := by
  cases operator with
  | not =>
      simp only [applyUnary, ValueOver.toBool_recode]
      cases operand.toBool <;> rfl
  | negate =>
      simp only [applyUnary, ValueOver.toInt_recode]
      cases operand.toInt with
      | error mismatch => rfl
      | ok value => exact (exact_recode change _ _).symm

@[simp]
theorem compareValues_recode (left right : ValueOver Code) :
    compareValues (left.recode change) (right.recode change) = compareValues left right := by
  cases left <;> cases right <;> rfl

@[simp]
theorem applyOrder_recode (wanted : Ordering → Bool) (left right : ValueOver Code) :
    applyOrder wanted (left.recode change) (right.recode change)
      = (applyOrder wanted left right).map (ValueOver.recode change) := by
  simp only [applyOrder, compareValues_recode]
  cases compareValues left right <;> rfl

/-- An operation on integers looks at no code if its results have none. -/
theorem applyInts_recode {operation : Int → Int → Except Fault (ValueOver Code)}
    {operation' : Int → Int → Except Fault (ValueOver Other)}
    (agrees : ∀ first second,
      operation' first second = (operation first second).map (ValueOver.recode change))
    (left right : ValueOver Code) :
    applyInts operation' (left.recode change) (right.recode change)
      = (applyInts operation left right).map (ValueOver.recode change) := by
  simp only [applyInts, ValueOver.toInt_recode]
  cases left.toInt with
  | error mismatch => rfl
  | ok first =>
      cases right.toInt with
      | error mismatch => rfl
      | ok second => exact agrees first.toInt second.toInt

theorem divideBy_recode (symbol : String) (operation : Int → Int → Int) (first second : Int) :
    divideBy symbol operation first second
      = (divideBy symbol operation first second : Except Fault (ValueOver Code)).map
          (ValueOver.recode change) := by
  simp only [divideBy]
  split
  · rfl
  · exact (exact_recode change _ _).symm

theorem remainderBy_recode (symbol : String) (first second : Int) :
    remainderBy symbol first second
      = (remainderBy symbol first second : Except Fault (ValueOver Code)).map
          (ValueOver.recode change) := by
  by_cases zero : second = 0
  · simp only [remainderBy, zero, if_true]
    rfl
  · have quotient := @exact_recode Code Other change symbol (first.tdiv second)
    have rest := @exact_recode Code Other change symbol (first.tmod second)
    simp only [remainderBy, if_neg zero]
    rw [← quotient]
    cases exact symbol (first.tdiv second) with
    | error fault => rfl
    | ok value => exact rest.symm

/-- Binary operators look at no code. -/
theorem applyBinary_recode (operator : BinaryOperator) (left right : ValueOver Code) :
    applyBinary operator (left.recode change) (right.recode change)
      = (applyBinary operator left right).map (ValueOver.recode change) := by
  have ints (combine : Int → Int → Int) :=
    applyInts_recode change
      (fun first second ↦ (exact_recode change operator.symbol (combine first second)).symm)
      left right
  cases operator with
  | equal | unequal => simp only [applyBinary, ValueOver.equals_recode, Except.map, ValueOver.recode]
  | and | or =>
      simp only [applyBinary, ValueOver.toBool_recode]
      cases left.toBool with
      | error mismatch => rfl
      | ok value => cases value <;> cases right.toBool <;> rfl
  | less | atMost | greater | atLeast => exact applyOrder_recode change _ left right
  | add =>
      cases left with
      | str first =>
          simp only [applyBinary, ValueOver.recode, ValueOver.toStr_recode]
          cases right.toStr <;> rfl
      | _ => exact ints (· + ·)
  | subtract => exact ints (· - ·)
  | multiply => exact ints (· * ·)
  | divide => exact applyInts_recode change (divideBy_recode change _ _) left right
  | remainder => exact applyInts_recode change (remainderBy_recode change _) left right

/-- Taking an item of an array looks at no code. -/
theorem itemOf_recode (array index : ValueOver Code) :
    itemOf (array.recode change) (index.recode change)
      = (itemOf array index).map (ValueOver.recode change) := by
  simp only [itemOf, ValueOver.toInt_recode, ValueOver.toItems_recode]
  cases index.toInt with
  | error mismatch => rfl
  | ok position =>
      cases array.toItems with
      | error mismatch => rfl
      | ok items =>
          have item : itemAt? (items.map (ValueOver.recode change)) position
              = (itemAt? items position).map (ValueOver.recode change) := by
            simp only [itemAt?, List.getElem?_map]
            split <;> rfl
          simp only [orMismatch, Except.map, bind, Except.bind, item, List.length_map]
          cases itemAt? items position <;> rfl

end GuestScript.Machine
