import GuestScript.Ty

/-!
# Types without a hole

A type is whole if no part of it is `poison` and, unless it may be open, no part of it is
`parameter`. Signatures of host functions may be open; every other type that an accepted program
works with is closed. Comparing and substituting types leads from such types to such types, and among
them the comparison could do without the rule for poison: `accepts_eq_acceptsStrictly`.
-/

namespace GuestScript.Ty

mutual

/-- Whether no part of a type is poison, and none is open unless it may be. -/
def isWhole (mayBeOpen : Bool) : Ty → Bool
  | .unit | .int | .bool | .str | .dyn | .object _ => true
  | .array element | .seq element => isWhole mayBeOpen element
  | .function parameters result => areWhole mayBeOpen parameters && isWhole mayBeOpen result
  | .parameter => mayBeOpen
  | .poison => false

/-- Whether every type of a list is whole. -/
def areWhole (mayBeOpen : Bool) : List Ty → Bool
  | [] => true
  | first :: rest => isWhole mayBeOpen first && areWhole mayBeOpen rest

end

/-- No part of a type is poison or open. -/
abbrev IsClosed (type : Ty) : Prop :=
  type.isWhole false = true

theorem areWhole_iff {mayBeOpen : Bool} {types : List Ty} :
    areWhole mayBeOpen types = true ↔ ∀ type ∈ types, type.isWhole mayBeOpen = true := by
  induction types with
  | nil => simp [areWhole]
  | cons first rest ih => simp [areWhole, ih]

@[simp]
theorem isWhole_array {mayBeOpen : Bool} {element : Ty} :
    (array element).isWhole mayBeOpen = element.isWhole mayBeOpen := by
  rw [isWhole]

@[simp]
theorem isWhole_seq {mayBeOpen : Bool} {element : Ty} :
    (seq element).isWhole mayBeOpen = element.isWhole mayBeOpen := by
  rw [isWhole]

@[simp]
theorem isWhole_function {mayBeOpen : Bool} {parameters : List Ty} {result : Ty} :
    (function parameters result).isWhole mayBeOpen = true ↔
      (∀ type ∈ parameters, type.isWhole mayBeOpen = true) ∧
        result.isWhole mayBeOpen = true := by
  rw [isWhole, Bool.and_eq_true, areWhole_iff]

mutual

/-- A closed type may stand where an open one may. -/
theorem IsClosed.isWhole : {type : Ty} → type.IsClosed → type.isWhole true = true
  | .unit, _ | .int, _ | .bool, _ | .str, _ | .dyn, _ | .object _, _ => rfl
  | .array element, closed | .seq element, closed => by
      simp only [IsClosed, Ty.isWhole] at closed ⊢
      exact IsClosed.isWhole closed
  | .function parameters result, closed => by
      simp only [IsClosed, Ty.isWhole, Bool.and_eq_true] at closed ⊢
      exact ⟨areWhole_of_closed closed.1, IsClosed.isWhole closed.2⟩

/-- Closed types may stand where open ones may. -/
theorem areWhole_of_closed : {types : List Ty} → areWhole false types = true →
    areWhole true types = true
  | [], _ => rfl
  | _ :: _, closed => by
      simp only [areWhole, Bool.and_eq_true] at closed ⊢
      exact ⟨IsClosed.isWhole closed.1, areWhole_of_closed closed.2⟩

end

/-! ## Substitution -/

mutual

/-- Putting a closed type in the place of the open type closes a type. -/
theorem isClosed_substitute {binding : Option Ty} (closed : ∀ bound ∈ binding, bound.IsClosed) :
    {type : Ty} → type.isWhole true = true → (substitute binding type).IsClosed
  | .unit, _ | .int, _ | .bool, _ | .str, _ | .dyn, _ | .object _, _ => rfl
  | .parameter, _ => by
      cases binding with
      | none => rfl
      | some bound => exact closed bound rfl
  | .array element, whole | .seq element, whole => by
      simp only [substitute, IsClosed, isWhole] at whole ⊢
      exact isClosed_substitute closed whole
  | .function parameters result, whole => by
      simp only [substitute, IsClosed, isWhole, Bool.and_eq_true] at whole ⊢
      exact ⟨areClosed_substituteAll closed whole.1, isClosed_substitute closed whole.2⟩

/-- Putting a closed type in the place of the open type closes the types of a list. -/
theorem areClosed_substituteAll {binding : Option Ty}
    (closed : ∀ bound ∈ binding, bound.IsClosed) :
    {types : List Ty} → areWhole true types = true →
      areWhole false (substituteAll binding types) = true
  | [], _ => rfl
  | _ :: _, whole => by
      simp only [substituteAll, areWhole, Bool.and_eq_true] at whole ⊢
      exact ⟨isClosed_substitute closed whole.1, areClosed_substituteAll closed whole.2⟩

end

/-! ## Comparison -/

mutual

/-- What the open type is bound to after a comparison is closed. -/
theorem accepts_closed : (expected actual : Ty) → (binding : Option Ty) →
    expected.isWhole true = true → actual.IsClosed → (∀ bound ∈ binding, bound.IsClosed) →
    ∀ bound ∈ (accepts expected actual binding).2, bound.IsClosed
  | expected, .array found, binding, whole, found', closed => by
      have deeper (wanted : Ty) := accepts_closed wanted found binding
      rw [accepts]
      cases expected with
      | parameter =>
          cases binding with
          | none => exact fun bound same ↦ Option.some.inj same ▸ found'
          | some bound => exact closed
      | array wanted | seq wanted => exact deeper wanted whole found' closed
      | _ => exact closed
  | expected, .seq found, binding, whole, found', closed => by
      have deeper (wanted : Ty) := accepts_closed wanted found binding
      rw [accepts]
      cases expected with
      | parameter =>
          cases binding with
          | none => exact fun bound same ↦ Option.some.inj same ▸ found'
          | some bound => exact closed
      | seq wanted => exact deeper wanted whole found' closed
      | _ => exact closed
  | expected, .function founds found, binding, whole, found', closed => by
      have deeper (wanteds : List Ty) := acceptsAll_closed wanteds founds binding
      have last (wanted : Ty) (binding : Option Ty) := accepts_closed wanted found binding
      rw [accepts]
      cases expected with
      | parameter =>
          cases binding with
          | none => exact fun bound same ↦ Option.some.inj same ▸ found'
          | some bound => exact closed
      | function wanteds wanted =>
          simp only [isWhole, Bool.and_eq_true, IsClosed] at whole found'
          have after := deeper wanteds whole.1 found'.1 closed
          simp only [demand, bindingAfter]
          split
          · generalize acceptsAll wanteds founds binding = compared at after
            obtain ⟨_ | _, bound⟩ := compared
            · exact after
            · exact last wanted bound whole.2 found'.2 after
          · exact closed
      | _ => exact closed
  | expected, .unit, binding, whole, found', closed | expected, .int, binding, whole, found', closed
  | expected, .bool, binding, whole, found', closed | expected, .str, binding, whole, found', closed
  | expected, .dyn, binding, whole, found', closed
  | expected, .object _, binding, whole, found', closed => by
      rw [accepts]
      cases expected with
      | parameter =>
          cases binding with
          | none => first | exact fun bound same ↦ Option.some.inj same ▸ found' | exact nofun
          | some bound => exact closed
      | _ => exact closed

/-- What the open type is bound to after comparisons is closed. -/
theorem acceptsAll_closed : (expected actual : List Ty) → (binding : Option Ty) →
    areWhole true expected = true → areWhole false actual = true →
    (∀ bound ∈ binding, bound.IsClosed) →
    ∀ bound ∈ (acceptsAll expected actual binding).2, bound.IsClosed
  | _, [], _, _, _, closed => by
      rw [acceptsAll]
      exact closed
  | [], _ :: _, _, _, _, closed => by
      rw [acceptsAll]
      exact closed
  | wanted :: wanteds, found :: founds, binding, whole, found', closed => by
      simp only [areWhole, Bool.and_eq_true] at whole found'
      have first := accepts_closed wanted found binding whole.1 found'.1 closed
      have rest (binding : Option Ty) := acceptsAll_closed wanteds founds binding whole.2 found'.2
      simp only [acceptsAll]
      generalize accepts wanted found binding = compared at first
      obtain ⟨_ | _, bound⟩ := compared
      · exact first
      · exact rest bound first

end

/-! ## Comparison without the rule for poison

Where no part of the types is poison, the rule that lets it agree with everything makes no
difference: it is there for mistakes alone.
-/

mutual

/-- The comparison of types without the rule for poison: it is the same as itself only. -/
def acceptsStrictly (expected : Ty) : (actual : Ty) → (binding : Option Ty) → Bool × Option Ty
  | actual, binding =>
      let (target, below) := demand expected binding
      let (accepted, after) : Bool × Option Ty :=
        match target, actual with
        | .dyn, _ | _, .dyn => (true, below)
        | .parameter, actual => (true, some actual)
        | .seq wanted, .array found => acceptsStrictly wanted found below
        | .seq wanted, .seq found => acceptsStrictly wanted found below
        | .array wanted, .array found => acceptsStrictly wanted found below
        | .function wanted wantedResult, .function found foundResult =>
            if wanted.length = found.length then
              match acceptsAllStrictly wanted found below with
              | (true, after) => acceptsStrictly wantedResult foundResult after
              | (false, after) => (false, after)
            else (false, below)
        | wanted, found => (same wanted found, below)
      (accepted, bindingAfter expected binding after)

/-- The comparison of lists of types without the rule for poison. -/
def acceptsAllStrictly (expected : List Ty) :
    (actual : List Ty) → (binding : Option Ty) → Bool × Option Ty
  | [], binding => (true, binding)
  | found :: founds, binding =>
      match expected with
      | [] => (true, binding)
      | wanted :: wanteds =>
          match acceptsStrictly wanted found binding with
          | (true, after) => acceptsAllStrictly wanteds founds after
          | (false, after) => (false, after)

end

/-- What a required type comes down to has no more poison in it than the required type and the
binding. -/
theorem isWhole_demand {expected : Ty} {binding : Option Ty} (whole : expected.isWhole true = true)
    (closed : ∀ bound ∈ binding, bound.IsClosed) :
    (demand expected binding).1.isWhole true = true ∧
      ∀ bound ∈ (demand expected binding).2, bound.IsClosed := by
  cases expected <;> cases binding <;> first
    | exact ⟨(closed _ rfl).isWhole, nofun⟩
    | exact ⟨whole, closed⟩

mutual

/-- Where no poison is, the rule for poison decides nothing. -/
theorem accepts_eq_acceptsStrictly : (expected actual : Ty) → (binding : Option Ty) →
    expected.isWhole true = true → actual.IsClosed → (∀ bound ∈ binding, bound.IsClosed) →
    accepts expected actual binding = acceptsStrictly expected actual binding
  | expected, .array found, binding, whole, found', closed => by
      have deeper (wanted : Ty) := accepts_eq_acceptsStrictly wanted found
      obtain ⟨whole, closed⟩ := isWhole_demand whole closed
      rw [accepts, acceptsStrictly]
      generalize demand expected binding = came at whole closed
      obtain ⟨target, below⟩ := came
      cases target with
      | poison => exact absurd whole nofun
      | array wanted | seq wanted => simp only [deeper wanted below whole found' closed]
      | _ => rfl
  | expected, .seq found, binding, whole, found', closed => by
      have deeper (wanted : Ty) := accepts_eq_acceptsStrictly wanted found
      obtain ⟨whole, closed⟩ := isWhole_demand whole closed
      rw [accepts, acceptsStrictly]
      generalize demand expected binding = came at whole closed
      obtain ⟨target, below⟩ := came
      cases target with
      | poison => exact absurd whole nofun
      | seq wanted => simp only [deeper wanted below whole found' closed]
      | _ => rfl
  | expected, .function founds found, binding, whole, found', closed => by
      have deeper (wanteds : List Ty) := acceptsAll_eq_acceptsAllStrictly wanteds founds
      have last (wanted : Ty) := accepts_eq_acceptsStrictly wanted found
      obtain ⟨whole, closed⟩ := isWhole_demand whole closed
      rw [accepts, acceptsStrictly]
      generalize demand expected binding = came at whole closed
      obtain ⟨target, below⟩ := came
      cases target with
      | poison => exact absurd whole nofun
      | function wanteds wanted =>
          simp only [isWhole, Bool.and_eq_true, IsClosed] at whole found'
          have after := acceptsAll_closed wanteds founds below whole.1 found'.1 closed
          simp only [← deeper wanteds below whole.1 found'.1 closed]
          split
          · generalize acceptsAll wanteds founds below = compared at after
            obtain ⟨_ | _, bound⟩ := compared
            · rfl
            · simp only [last wanted bound whole.2 found'.2 after]
          · rfl
      | _ => rfl
  | expected, .unit, binding, whole, _, closed | expected, .int, binding, whole, _, closed
  | expected, .bool, binding, whole, _, closed | expected, .str, binding, whole, _, closed
  | expected, .dyn, binding, whole, _, closed
  | expected, .object _, binding, whole, _, closed => by
      have whole := (isWhole_demand whole closed).1
      rw [accepts, acceptsStrictly]
      generalize demand expected binding = came at whole
      obtain ⟨target, below⟩ := came
      cases target with
      | poison => exact absurd whole nofun
      | _ => rfl

/-- Where no poison is, the rule for poison decides nothing. -/
theorem acceptsAll_eq_acceptsAllStrictly : (expected actual : List Ty) → (binding : Option Ty) →
    areWhole true expected = true → areWhole false actual = true →
    (∀ bound ∈ binding, bound.IsClosed) →
    acceptsAll expected actual binding = acceptsAllStrictly expected actual binding
  | _, [], _, _, _, _ => by rw [acceptsAll, acceptsAllStrictly]
  | [], _ :: _, _, _, _, _ => by rw [acceptsAll, acceptsAllStrictly]
  | wanted :: wanteds, found :: founds, binding, whole, found', closed => by
      simp only [areWhole, Bool.and_eq_true] at whole found'
      have first := accepts_closed wanted found binding whole.1 found'.1 closed
      have rest := acceptsAll_eq_acceptsAllStrictly wanteds founds
      simp only [acceptsAll, acceptsAllStrictly,
        ← accepts_eq_acceptsStrictly wanted found binding whole.1 found'.1 closed]
      generalize accepts wanted found binding = compared at first
      obtain ⟨_ | _, bound⟩ := compared
      · rfl
      · exact rest bound whole.2 found'.2 first

end

/-- No poison is in the types that are compared, and the rule for poison makes no difference. -/
structure ComparesSoberly (expected actual : Ty) (binding : Option Ty) : Prop where
  required : expected.isWhole true = true
  found : actual.isWhole true = true
  bound : ∀ type ∈ binding, type.isWhole true = true
  strictly : accepts expected actual binding = acceptsStrictly expected actual binding

theorem ComparesSoberly.of_closed {expected actual : Ty} {binding : Option Ty}
    (required : expected.isWhole true = true) (found : actual.IsClosed)
    (bound : ∀ type ∈ binding, type.IsClosed) : ComparesSoberly expected actual binding :=
  ⟨required, found.isWhole, fun type inside ↦ (bound type inside).isWhole,
    accepts_eq_acceptsStrictly expected actual binding required found bound⟩

end GuestScript.Ty
