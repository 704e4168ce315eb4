import GuestScript.Machine.Run
import Mathlib.Tactic.ByContra

/-!
# Sequences of steps

`Takes program count state last` says that the machine goes from `state` to `last` in `count` steps.
`Reaches` leaves the number of steps open, `CanTake` the last state, and `Ends` says how a run ends
when it is given enough fuel. `run_eq_some_iff` splits a run that ends into the steps before and the
one that ends it, so whatever every step preserves holds of the state in which a fault is raised.
-/

namespace GuestScript.Machine

/-- The machine takes so many steps from one state to another. -/
inductive Takes (program : Program) : Nat → State → State → Prop where
  | zero (state : State) : Takes program 0 state state
  | succ {count : Nat} {state next last : State} :
      step program state = .running next → Takes program count next last →
      Takes program (count + 1) state last

/-- The machine comes from one state to another. -/
def Reaches (program : Program) (state last : State) : Prop :=
  ∃ count, Takes program count state last

/-- The machine does not end within so many steps. -/
def CanTake (program : Program) (count : Nat) (state : State) : Prop :=
  ∃ last, Takes program count state last

/-- The machine ends in this way if it is given enough fuel. -/
def Ends (program : Program) (state : State) (ending : Ending) : Prop :=
  ∃ fuel, run program fuel state = some ending

/-! ## Composition -/

variable {program : Program} {state middle next last : State} {count more fuel : Nat}
  {ending other : Ending}

theorem Takes.append (first : Takes program count state middle)
    (second : Takes program more middle last) : Takes program (count + more) state last := by
  induction first with
  | zero => simpa only [Nat.zero_add] using second
  | @succ count _ _ _ taken _ ih =>
      rw [Nat.add_right_comm]
      exact .succ taken (ih second)

/-- The first steps of so many. -/
theorem Takes.split (taken : Takes program (count + more) state last) :
    ∃ middle, Takes program count state middle ∧ Takes program more middle last := by
  induction count generalizing state with
  | zero => exact ⟨state, .zero state, by simpa only [Nat.zero_add] using taken⟩
  | succ count ih =>
      rw [Nat.add_right_comm] at taken
      cases taken with
      | succ first rest =>
          obtain ⟨middle, before, after⟩ := ih rest
          exact ⟨middle, .succ first before, after⟩

theorem Reaches.refl (state : State) : Reaches program state state :=
  ⟨0, .zero state⟩

theorem Reaches.single (taken : step program state = .running next) : Reaches program state next :=
  ⟨1, .succ taken (.zero next)⟩

theorem Reaches.trans (first : Reaches program state middle)
    (second : Reaches program middle last) : Reaches program state last := by
  obtain ⟨_, first⟩ := first
  obtain ⟨_, second⟩ := second
  exact ⟨_, first.append second⟩

/-- What every step preserves holds of every state that is reached. -/
theorem Reaches.preserves {invariant : State → Prop}
    (kept : ∀ {state next}, step program state = .running next → invariant state → invariant next)
    (reached : Reaches program state last) (holds : invariant state) : invariant last := by
  obtain ⟨_, taken⟩ := reached
  induction taken with
  | zero => exact holds
  | succ first _ ih => exact ih (kept first holds)

theorem CanTake.zero (state : State) : CanTake program 0 state :=
  ⟨state, .zero state⟩

/-- Fewer steps can be taken as well. -/
theorem CanTake.mono (long : CanTake program more state) (fewer : count ≤ more) :
    CanTake program count state := by
  obtain ⟨last, taken⟩ := long
  obtain ⟨rest, rfl⟩ := Nat.exists_eq_add_of_le fewer
  obtain ⟨middle, before, _⟩ := taken.split
  exact ⟨middle, before⟩

/-- A step before others is one step more. -/
theorem CanTake.succ (taken : step program state = .running next)
    (rest : CanTake program count next) : CanTake program (count + 1) state := by
  obtain ⟨last, rest⟩ := rest
  exact ⟨last, .succ taken rest⟩

/-- Steps that can be taken later on can be taken, with those before them. -/
theorem Reaches.canTake (reached : Reaches program state middle)
    (rest : CanTake program count middle) : CanTake program count state := by
  obtain ⟨before, first⟩ := reached
  obtain ⟨last, rest⟩ := rest
  exact CanTake.mono ⟨last, first.append rest⟩ (Nat.le_add_left count before)

/-! ## Runs with fuel -/

/-- Steps use up as much fuel. -/
theorem Takes.run_eq (taken : Takes program count state last) (fuel : Nat) :
    run program (count + fuel) state = run program fuel last := by
  induction taken with
  | zero => rw [Nat.zero_add]
  | succ first _ ih =>
      rw [Nat.add_right_comm, run, first]
      exact ih

/-- A run ends with the first step that ends it. -/
theorem run_eq_some_iff :
    run program fuel state = some ending ↔
      ∃ count last, count < fuel ∧ Takes program count state last ∧
        step program last = .ended ending := by
  constructor
  · intro ran
    induction fuel generalizing state with
    | zero => simp only [run, reduceCtorEq] at ran
    | succ fuel ih =>
        rw [run] at ran
        split at ran
        · rename_i _ first
          obtain rfl := Option.some.inj ran
          exact ⟨0, state, Nat.succ_pos fuel, .zero state, first⟩
        · rename_i _ first
          obtain ⟨count, last, enough, taken, ended⟩ := ih ran
          exact ⟨count + 1, last, Nat.succ_lt_succ enough, .succ first taken, ended⟩
  · rintro ⟨count, last, enough, taken, ended⟩
    obtain ⟨rest, rfl⟩ := Nat.exists_eq_add_of_lt enough
    rw [Nat.add_assoc, taken.run_eq, run, ended]

/-- More fuel never changes how a run ends. -/
theorem run_mono (ran : run program fuel state = some ending) (enough : fuel ≤ more) :
    run program more state = some ending := by
  obtain ⟨count, last, fits, taken, ended⟩ := run_eq_some_iff.mp ran
  exact run_eq_some_iff.mpr ⟨count, last, Nat.lt_of_lt_of_le fits enough, taken, ended⟩

/-- A run that ends within some fuel cannot take as many steps. -/
theorem CanTake.lt_of_run (long : CanTake program count state)
    (ran : run program fuel state = some ending) : count < fuel := by
  by_contra short
  obtain ⟨last, taken⟩ := long.mono (Nat.le_of_not_lt short)
  have used := taken.run_eq 0
  rw [Nat.add_zero, ran] at used
  simp only [run, reduceCtorEq] at used

theorem Ends.of_step (ended : step program state = .ended ending) : Ends program state ending :=
  ⟨1, by rw [run, ended]⟩

/-- A run ends as it does from a state that it reaches. -/
theorem Reaches.ends_iff (reached : Reaches program state last) :
    Ends program state ending ↔ Ends program last ending := by
  obtain ⟨count, taken⟩ := reached
  constructor
  · rintro ⟨fuel, ran⟩
    exact ⟨fuel, by rw [← taken.run_eq]; exact run_mono ran (Nat.le_add_left fuel count)⟩
  · rintro ⟨fuel, ran⟩
    exact ⟨count + fuel, by rw [taken.run_eq, ran]⟩

/-- A run ends in one way only. -/
theorem Ends.unique (first : Ends program state ending) (second : Ends program state other) :
    ending = other := by
  obtain ⟨fuel, first⟩ := first
  obtain ⟨more, second⟩ := second
  have enough := run_mono first (Nat.le_max_left fuel more)
  rw [run_mono second (Nat.le_max_right fuel more)] at enough
  exact (Option.some.inj enough).symm

end GuestScript.Machine
