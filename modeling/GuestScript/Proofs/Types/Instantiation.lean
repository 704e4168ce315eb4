import GuestScript.Proofs.Types.Acceptance

/-!
# The one type that a call leaves open

The signature of a host function may have one open type, in as many places and as deep as it likes.
The arguments of a call are compared with the parameters in order, one binding going through all of
the comparisons, and the first type that meets the open one is what it is bound to from there on.

`Binds` says what a comparison does to the binding: what is bound stays bound, and what becomes
bound is part of an argument. From it, `admits_of_accepts` goes from a comparison in the course of a
call to one with the parameter that the call comes down to: whatever the binding is when the call is
through, putting it into the parameter gives a type that the argument fits. The places where the
comparison met `dyn` or poison before it met the open type are covered too, because a type that
agrees with everything still does when the open type above it is known.
-/

namespace GuestScript.Ty

/-! ## What a comparison does to the binding -/

/-- What is bound stays bound, and nothing with an open part becomes bound if what is compared has
no open part. -/
structure Binds (actualIsGround : Bool) (before after : Option Ty) : Prop where
  keeps : ∀ bound ∈ before, after = some bound
  ground : actualIsGround = true → IsGroundBinding before → IsGroundBinding after

namespace Binds

variable {actualIsGround : Bool}

theorem refl (binding : Option Ty) : Binds actualIsGround binding binding :=
  ⟨fun _ same ↦ same, fun _ ground ↦ ground⟩

theorem trans {before between after : Option Ty} (first : Binds actualIsGround before between)
    (second : Binds actualIsGround between after) : Binds actualIsGround before after where
  keeps bound same := second.keeps bound (first.keeps bound same)
  ground isGround start := second.ground isGround (first.ground isGround start)

/-- Comparing less binds less. -/
theorem mono (more : Bool) {before after : Option Ty} (binds : Binds actualIsGround before after)
    (less : more = true → actualIsGround = true) : Binds more before after :=
  ⟨binds.keeps, fun isGround ↦ binds.ground (less isGround)⟩

end Binds

/-- What the open type does to the binding. -/
theorem binds_accepts_parameter (actual : Ty) (binding : Option Ty) :
    Binds actual.isGround binding (accepts .parameter actual binding).2 := by
  cases lax : actual.isLax with
  | true =>
      rw [accepts_of_lax _ _ lax]
      exact .refl binding
  | false =>
      cases binding with
      | none =>
          rw [accepts_parameter_none lax]
          exact ⟨(fun _ same ↦ by cases same), fun ground _ bound same ↦ Option.some.inj same ▸ ground⟩
      | some bound =>
          rw [accepts_parameter_some]
          exact .refl (some bound)

mutual

/-- A comparison binds the open type to a part of what is compared, if it was not bound. -/
theorem binds_accepts : (actual expected : Ty) → (binding : Option Ty) →
    Binds actual.isGround binding (accepts expected actual binding).2
  | .dyn, expected, binding | .poison, expected, binding => by
      rw [accepts_of_lax _ _ rfl]
      exact .refl binding
  | .array found, expected, binding => by
      cases expected with
      | parameter => exact binds_accepts_parameter (.array found) binding
      | array wanted =>
          rw [accepts_array]
          exact binds_accepts found wanted binding
      | seq wanted =>
          rw [accepts_seq_array]
          exact binds_accepts found wanted binding
      | _ =>
          rw [accepts]
          exact .refl binding
  | .seq found, expected, binding => by
      cases expected with
      | parameter => exact binds_accepts_parameter (.seq found) binding
      | seq wanted =>
          rw [accepts_seq]
          exact binds_accepts found wanted binding
      | _ =>
          rw [accepts]
          exact .refl binding
  | .function founds found, expected, binding => by
      cases expected with
      | parameter => exact binds_accepts_parameter (.function founds found) binding
      | function wanteds wanted =>
          have first := binds_acceptsAll founds wanteds binding
          have last (between : Option Ty) := binds_accepts found wanted between
          rw [accepts_function, isGround]
          by_cases long : wanteds.length = founds.length
          · rw [if_pos long]
            generalize acceptsAll wanteds founds binding = compared at first
            obtain ⟨accepted, between⟩ := compared
            have first := first.mono (areGround founds && found.isGround)
              fun both ↦ (Bool.and_eq_true _ _ ▸ both).1
            cases accepted with
            | true =>
                exact first.trans ((last between).mono _ fun both ↦ (Bool.and_eq_true _ _ ▸ both).2)
            | false => exact first
          · rw [if_neg long]
            exact .refl binding
      | _ =>
          rw [accepts]
          exact .refl binding
  | .unit, expected, binding | .int, expected, binding | .bool, expected, binding
  | .str, expected, binding | .parameter, expected, binding | .object _, expected, binding => by
      cases expected with
      | parameter => exact binds_accepts_parameter _ binding
      | _ =>
          rw [accepts]
          exact .refl binding

/-- A comparison of lists binds the open type to a part of what is compared, if it was not bound. -/
theorem binds_acceptsAll : (actual expected : List Ty) → (binding : Option Ty) →
    Binds (areGround actual) binding (acceptsAll expected actual binding).2
  | [], _, binding => by
      rw [acceptsAll]
      exact .refl binding
  | _ :: _, [], binding => by
      rw [acceptsAll]
      exact .refl binding
  | found :: founds, wanted :: wanteds, binding => by
      have first := (binds_accepts found wanted binding).mono
        (found.isGround && areGround founds) fun both ↦ (Bool.and_eq_true _ _ ▸ both).1
      have rest (between : Option Ty) := (binds_acceptsAll founds wanteds between).mono
        (found.isGround && areGround founds) fun both ↦ (Bool.and_eq_true _ _ ▸ both).2
      rw [acceptsAll_cons, areGround]
      generalize accepts wanted found binding = compared at first
      obtain ⟨accepted, between⟩ := compared
      cases accepted with
      | true => exact first.trans (rest between)
      | false => exact first

end

/-! ## Types admit themselves -/

mutual

/-- A type without an open part admits itself. -/
theorem admits_self : {type : Ty} → type.isGround = true → type.admits type = true
  | .unit, _ | .int, _ | .bool, _ | .str, _ | .dyn, _ | .poison, _ => rfl
  | .object name, _ => by simp [admits, accepts, demand, same]
  | .array element, ground => by
      rw [admits, accepts_array]
      exact admits_self ground
  | .seq element, ground => by
      rw [admits, accepts_seq]
      exact admits_self ground
  | .function parameters result, ground => by
      rw [admits_function_iff ground]
      rw [isGround, Bool.and_eq_true] at ground
      exact ⟨allAdmitSelf ground.1, admits_self ground.2⟩

/-- Types without an open part admit themselves. -/
theorem allAdmitSelf : {types : List Ty} → areGround types = true →
    List.Forall₂ (fun wanted found ↦ wanted.admits found = true) types types
  | [], _ => .nil
  | first :: rest, ground => by
      rw [areGround, Bool.and_eq_true] at ground
      exact .cons (admits_self ground.1) (allAdmitSelf ground.2)

end

/-! ## From the course of a call to its end -/

/-- The open type comes down to what it is bound to in the end, which the argument fits. -/
theorem admits_of_accepts_parameter {actual : Ty} (ground : actual.isGround = true)
    {before after final : Option Ty} (accepted : accepts .parameter actual before = (true, after))
    (later : ∀ bound ∈ after, final = some bound) :
    (substitute final .parameter).admits actual = true := by
  cases lax : actual.isLax with
  | true => rw [admits, accepts_of_lax _ _ lax]
  | false =>
      cases before with
      | none =>
          rw [accepts_parameter_none lax, Prod.mk.injEq] at accepted
          obtain rfl := later actual accepted.2.symm
          exact admits_self ground
      | some bound =>
          rw [accepts_parameter_some, Prod.mk.injEq] at accepted
          obtain rfl := later bound accepted.2.symm
          exact accepted.1

mutual

/-- A parameter that accepts an argument in the course of a call comes down, when the call is
through, to a type that the argument fits. -/
theorem admits_of_accepts : (actual expected : Ty) → actual.isGround = true →
    {before after final : Option Ty} → IsGroundBinding final →
    accepts expected actual before = (true, after) → (∀ bound ∈ after, final = some bound) →
    (substitute final expected).admits actual = true
  | .dyn, _, _, _, _, _, _, _, _ | .poison, _, _, _, _, _, _, _, _ => by
      rw [admits, accepts_of_lax _ _ rfl]
  | .array found, expected, ground, before, after, final, closed, accepted, later => by
      cases expected with
      | parameter => exact admits_of_accepts_parameter ground accepted later
      | array wanted =>
          rw [accepts_array] at accepted
          rw [substitute, admits, accepts_array]
          exact admits_of_accepts found wanted ground closed accepted later
      | seq wanted =>
          rw [accepts_seq_array] at accepted
          rw [substitute, admits, accepts_seq_array]
          exact admits_of_accepts found wanted ground closed accepted later
      | dyn | poison => rfl
      | _ =>
          rw [accepts] at accepted
          cases accepted
  | .seq found, expected, ground, before, after, final, closed, accepted, later => by
      cases expected with
      | parameter => exact admits_of_accepts_parameter ground accepted later
      | seq wanted =>
          rw [accepts_seq] at accepted
          rw [substitute, admits, accepts_seq]
          exact admits_of_accepts found wanted ground closed accepted later
      | dyn | poison => rfl
      | _ =>
          rw [accepts] at accepted
          cases accepted
  | .function founds found, expected, ground, before, after, final, closed, accepted, later => by
      cases expected with
      | parameter => exact admits_of_accepts_parameter ground accepted later
      | function wanteds wanted =>
          have settled := isGround_substitute closed (.function wanteds wanted)
          rw [isGround, Bool.and_eq_true] at ground
          rw [accepts_function] at accepted
          by_cases long : wanteds.length = founds.length
          · rw [if_pos long] at accepted
            cases compared : acceptsAll wanteds founds before with
            | mk parameters between =>
                rw [compared] at accepted
                cases parameters with
                | false => cases accepted
                | true =>
                    dsimp only at accepted
                    -- What the parameters have bound is still bound behind the result.
                    have kept : ∀ bound ∈ between, final = some bound := by
                      intro bound same
                      have binds := binds_accepts found wanted between
                      rw [accepted] at binds
                      exact later bound (binds.keeps bound same)
                    rw [substitute] at settled ⊢
                    rw [admits_function_iff settled]
                    exact ⟨admitsAll_of_acceptsAll founds wanteds long ground.1 closed compared kept,
                      admits_of_accepts found wanted ground.2 closed accepted later⟩
          · rw [if_neg long] at accepted
            cases accepted
      | dyn | poison => rfl
      | _ =>
          rw [accepts] at accepted
          cases accepted
  | .unit, expected, ground, before, after, final, closed, accepted, later
  | .int, expected, ground, before, after, final, closed, accepted, later
  | .bool, expected, ground, before, after, final, closed, accepted, later
  | .str, expected, ground, before, after, final, closed, accepted, later
  | .parameter, expected, ground, before, after, final, closed, accepted, later
  | .object _, expected, ground, before, after, final, closed, accepted, later => by
      cases expected with
      | parameter => exact admits_of_accepts_parameter ground accepted later
      | dyn | poison => rfl
      | _ =>
          rw [accepts] at accepted
          rw [substitute, admits, accepts]
          · exact congrArg Prod.fst accepted
          all_goals nofun

/-- Parameters that accept arguments in the course of a call come down, when the call is through,
to types that the arguments fit. -/
theorem admitsAll_of_acceptsAll : (actual expected : List Ty) →
    expected.length = actual.length → areGround actual = true →
    {before after final : Option Ty} → IsGroundBinding final →
    acceptsAll expected actual before = (true, after) → (∀ bound ∈ after, final = some bound) →
    List.Forall₂ (fun wanted found ↦ wanted.admits found = true) (substituteAll final expected)
      actual
  | [], [], _, _, _, _, _, _, _, _ => .nil
  | found :: founds, wanted :: wanteds, long, ground, before, after, final, closed, accepted,
      later => by
      rw [areGround, Bool.and_eq_true] at ground
      rw [acceptsAll_cons] at accepted
      cases compared : accepts wanted found before with
      | mk first between =>
          rw [compared] at accepted
          cases first with
          | false => cases accepted
          | true =>
              dsimp only at accepted
              have kept : ∀ bound ∈ between, final = some bound := by
                intro bound same
                have binds := binds_acceptsAll founds wanteds between
                rw [accepted] at binds
                exact later bound (binds.keeps bound same)
              rw [substituteAll]
              exact .cons (admits_of_accepts found wanted ground.1 closed compared kept)
                (admitsAll_of_acceptsAll founds wanteds (Nat.succ.inj long) ground.2 closed accepted
                  later)

end

/-! ## Calls -/

/-- What the open type of a call is bound to when arguments without an open part have been compared
has no open part. -/
theorem isGroundBinding_of_acceptsAll {parameters actual : List Ty} {accepted : Bool}
    {bound : Option Ty} (ground : areGround actual = true)
    (compared : acceptsAll parameters actual none = (accepted, bound)) : IsGroundBinding bound := by
  have binds := binds_acceptsAll actual parameters none
  rw [compared] at binds
  exact binds.ground ground fun _ same ↦ by cases same

/-- The instantiation of open types is consistent. Where arguments without an open part are all
accepted, one after the other, each of them fits the type that its parameter comes down to under
the binding in the end, and that binding closes every type. A binding that there is never changes,
and under one without an open part it is the same to compare with a type and with what the type
comes down to. -/
theorem instantiates_consistently :
    (∀ (parameters actual : List Ty) (bound : Option Ty), parameters.length = actual.length →
      areGround actual = true → acceptsAll parameters actual none = (true, bound) →
      List.Forall₂ (fun wanted found ↦ (substitute bound wanted).admits found = true)
          parameters actual ∧
        ∀ result, (substitute bound result).isGround = true) ∧
    (∀ (expected actual bound : Ty), (accepts expected actual (some bound)).2 = some bound) ∧
    (∀ (expected actual bound : Ty), bound.isGround = true → actual.isGround = true →
      ∀ binding, (accepts expected actual (some bound)).1 =
        (accepts (substitute (some bound) expected) actual binding).1) := by
  refine ⟨?_, ?_, ?_⟩
  · intro parameters actual bound long ground compared
    have closed := isGroundBinding_of_acceptsAll ground compared
    have fits := admitsAll_of_acceptsAll actual parameters long ground closed compared fun _ ↦ id
    rw [substituteAll_eq_map, List.forall₂_map_left_iff] at fits
    exact ⟨fits, isGround_substitute closed⟩
  · intro expected actual bound
    exact (binds_accepts actual expected (some bound)).keeps bound rfl
  · intro expected actual bound ground _ binding
    have settled : IsSettled expected.isGround (some bound) := .inr ⟨bound, rfl, ground⟩
    rw [accepts_of_isSettled actual expected (some bound) settled,
      accepts_of_isGround (isGround_substitute_of_isSettled settled)]

/-- A call with a sequence of open elements and a function on them: an array of texts binds the
open type, and the function has to be one on texts. -/
theorem instantiates_consistently_filter :
    List.Forall₂ (fun wanted found ↦ (substitute (some .str) wanted).admits found = true)
        [.seq .parameter, .function [.parameter] .bool] [.array .str, .function [.str] .bool] ∧
      ∀ result, (substitute (some .str) result).isGround = true :=
  instantiates_consistently.1 _ _ _ rfl rfl rfl

end GuestScript.Ty
