import GuestScript.Meaning.Interpreter
import GuestScript.Proofs.Machine.Limits

/-!
# The count of active calls

Whatever an interpreter does, and however it ends, as many calls are active behind it as before. The
number is never set above the limit, and the fault of too many calls comes of a call that would have
been made, had there been fewer of them, and of nothing else. `IsBalanced` says this of a report, and
every way to put work together keeps to it: `balances_interpret`.
-/

namespace GuestScript.Meaning

open Bytecode (RoutineIndex)
open Counting
open Machine (Control Fault HostFailure IsWithinLimit Program Value World maxCallDepth)

/-- There is such a routine, and it takes as many arguments. -/
def Accepts (program : Program) (index : RoutineIndex) (arguments : List Value) : Prop :=
  ∃ routine, program.image.routines[index]? = some routine ∧ arguments.length = routine.arity

/-- A call is on record that nothing was against but the limit of active calls. -/
def Exceeds (program : Program) (notices : List Notice) : Prop :=
  ∃ routine arguments active, .asked routine arguments active ∈ notices ∧
    Accepts program routine arguments ∧ maxCallDepth ≤ active

/-- The work of a report has kept the count of active calls. -/
structure IsBalanced {Result : Type} (program : Program) (before : Interpreter)
    (report : Report (Except Fault Result)) : Prop where
  restored : report.after.active = before.active
  counted : ∀ active, .counted active ∈ report.notices → active ≤ maxCallDepth
  asked : ∀ routine arguments active, .asked routine arguments active ∈ report.notices →
    active ≤ max before.active maxCallDepth
  exceeded : report.answer = .error (.tooDeep maxCallDepth) ↔ Exceeds program report.notices

/-- This work keeps the count of active calls. -/
def Balances {Result : Type} (program : Program) (work : Counting Result) : Prop :=
  ∀ before report, work before = some report → IsBalanced program before report

variable {program : Program} {Result Other : Type} {before : Interpreter}

/-! ## Records -/

theorem not_exceeds_nil : ¬ Exceeds program [] :=
  fun ⟨_, _, _, inside, _⟩ ↦ List.not_mem_nil inside

theorem exceeds_append {first second : List Notice} :
    Exceeds program (first ++ second) ↔ Exceeds program first ∨ Exceeds program second := by
  simp only [Exceeds, List.mem_append, or_and_right, exists_or]

theorem not_exceeds_counted (active : Nat) : ¬ Exceeds program [.counted active] := by
  rintro ⟨_, _, _, inside, _⟩
  exact absurd (List.mem_singleton.mp inside) nofun

theorem exceeds_asked {index : RoutineIndex} {arguments : List Value} {active : Nat} :
    Exceeds program [.asked index arguments active] ↔
      Accepts program index arguments ∧ maxCallDepth ≤ active := by
  refine ⟨?_, fun ⟨accepts, many⟩ ↦ ⟨_, _, _, List.mem_singleton_self _, accepts, many⟩⟩
  rintro ⟨_, _, _, inside, accepts, many⟩
  cases List.mem_singleton.mp inside
  exact ⟨accepts, many⟩

/-! ## Work put together -/

theorem balanced_of_quiet {report : Report (Except Fault Result)}
    (restored : report.after.active = before.active) (quiet : report.notices = [])
    (within : IsWithinLimit report.answer) : IsBalanced program before report := by
  obtain ⟨answer, after, notices⟩ := report
  obtain rfl : notices = [] := quiet
  exact ⟨restored, nofun, nofun, iff_of_false within not_exceeds_nil⟩

theorem balances_settled {outcome : Except Fault Result} (within : IsWithinLimit outcome) :
    Balances program (settled outcome) := by
  intro before report done
  obtain rfl := Option.some.inj done
  exact balanced_of_quiet rfl rfl within

theorem balances_pure (result : Result) : Balances program (pure result : Counting Result) :=
  balances_settled (.ok result)

theorem balances_inWorld {action : World → Except Fault Result × World}
    (within : ∀ world, IsWithinLimit (action world).1) : Balances program (inWorld action) := by
  intro before report done
  obtain rfl := Option.some.inj done
  exact balanced_of_quiet rfl rfl (within before.world)

/-- Work behind other work starts with as many active calls. -/
theorem balances_bind {work : Counting Result} {next : Result → Counting Other}
    (first : Balances program work) (rest : ∀ result, Balances program (next result)) :
    Balances program (work >>= next) := by
  intro before report done
  change andThen work next before = some report at done
  unfold andThen at done
  split at done
  · exact absurd done nofun
  · next fault after notices ended =>
      obtain rfl := Option.some.inj done
      have here := first _ _ ended
      refine ⟨here.restored, here.counted, here.asked, ?_⟩
      refine Iff.trans ⟨fun same ↦ ?_, fun same ↦ ?_⟩ here.exceeded
      · exact congrArg Except.error (Except.error.inj same)
      · exact congrArg Except.error (Except.error.inj same)
  · next result middle notices answered =>
      split at done
      · exact absurd done nofun
      · next answer after later goes =>
          obtain rfl := Option.some.inj done
          have here := first _ _ answered
          have there := rest result _ _ goes
          have restored : middle.active = before.active := here.restored
          have silent : ¬ Exceeds program notices := fun exceeds ↦
            absurd (here.exceeded.mpr exceeds) nofun
          refine ⟨there.restored.trans restored, fun active inside ↦ ?_,
            fun routine arguments active inside ↦ ?_, ?_⟩
          · exact (List.mem_append.mp inside).elim (here.counted active) (there.counted active)
          · refine (List.mem_append.mp inside).elim (here.asked _ _ _) fun inside ↦ ?_
            have bound := there.asked _ _ _ inside
            rwa [restored] at bound
          · exact there.exceeded.trans (exceeds_append.trans (or_iff_right silent)).symm

/-! ## Calls -/

/-- The report of a call: the number of active calls is set twice, and the work is done between. -/
theorem asCall_eq (work : Counting Result) (before : Interpreter) :
    asCall work before = (work { before with active := before.active + 1 }).map fun report ↦
      ⟨report.answer, { report.after with active := report.after.active - 1 },
        .counted (before.active + 1) :: (report.notices ++ [.counted (report.after.active - 1)])⟩ := by
  simp only [asCall, bind, andThen, active, count, attempt, settled]
  cases work { before with active := before.active + 1 } with
  | none => rfl
  | some report => obtain ⟨_ | _, after, notices⟩ := report <;> simp

/-- A call that is within the limit leaves the count as it was. -/
theorem balances_asCall {work : Counting Result} (inside : Balances program work)
    {report : Report (Except Fault Result)} (few : before.active < maxCallDepth)
    (done : asCall work before = some report) : IsBalanced program before report := by
  rw [asCall_eq, Option.map_eq_some_iff] at done
  obtain ⟨⟨answer, after, notices⟩, worked, rfl⟩ := done
  have here := inside _ _ worked
  have restored : after.active - 1 = before.active := Nat.sub_eq_of_eq_add here.restored
  refine ⟨restored, fun active member ↦ ?_, fun routine arguments active member ↦ ?_, ?_⟩
  · rcases List.mem_cons.mp member with same | member
    · cases same
      exact few
    rcases List.mem_append.mp member with member | same
    · exact here.counted active member
    · cases List.mem_singleton.mp same
      exact restored ▸ Nat.le_of_lt few
  · rcases List.mem_cons.mp member with same | member
    · exact absurd same nofun
    rcases List.mem_append.mp member with member | same
    · exact Nat.le_trans (here.asked _ _ _ member) (by simp only; omega)
    · exact absurd (List.mem_singleton.mp same) nofun
  · have same : Exceeds program (.counted (before.active + 1) ::
        (notices ++ [.counted (after.active - 1)])) ↔ Exceeds program notices := by
      rw [← List.singleton_append, exceeds_append, exceeds_append,
        or_iff_right (not_exceeds_counted _), or_iff_left (not_exceeds_counted _)]
    exact here.exceeded.trans same.symm

/-- A call that is asked for comes first in the record. -/
theorem ask_bind (index : RoutineIndex) (arguments : List Value) (next : Unit → Counting Result) :
    (ask index arguments >>= next) before = (next () before).map fun report ↦
      { report with notices := .asked index arguments before.active :: report.notices } := by
  simp only [bind, andThen, ask]
  cases next () before <;> rfl

theorem active_bind (next : Nat → Counting Result) :
    (active >>= next) before = next before.active before := by
  simp only [bind, andThen, active]
  cases next before.active before <;> rfl

theorem settled_bind (result : Result) (next : Result → Counting Other) :
    (settled (.ok result) >>= next) before = next result before := by
  simp only [bind, andThen, settled]
  cases next result before <;> rfl

/-- Asking for a call that something else is against, or nothing at all, is not what exceeds the
limit. -/
theorem IsBalanced.ask {report : Report (Except Fault Result)} (balanced : IsBalanced program before report)
    {index : RoutineIndex} {arguments : List Value}
    (apart : ¬ (Accepts program index arguments ∧ maxCallDepth ≤ before.active)) :
    IsBalanced program before
      { report with notices := .asked index arguments before.active :: report.notices } := by
  refine ⟨balanced.restored, fun active member ↦ ?_, fun _ _ active member ↦ ?_, ?_⟩
  · rcases List.mem_cons.mp member with same | member
    · exact absurd same nofun
    · exact balanced.counted active member
  · rcases List.mem_cons.mp member with same | member
    · cases same
      exact Nat.le_max_left _ _
    · exact balanced.asked _ _ _ member
  · have same : Exceeds program (.asked index arguments before.active :: report.notices) ↔
        Exceeds program report.notices := by
      rw [← List.singleton_append, exceeds_append, or_iff_right (mt exceeds_asked.mp apart)]
    exact balanced.exceeded.trans same.symm

/-- A call keeps the count, whichever of the checks it does not pass, and if it passes them all. -/
theorem balances_call {fuel : Nat} (run : ∀ frame, Balances program (interpret program fuel (.run frame)))
    (index : RoutineIndex) (arguments : List Value) :
    Balances program (interpret program (fuel + 1) (.call index arguments)) := by
  intro before report done
  rw [interpret, ask_bind, Option.map_eq_some_iff] at done
  obtain ⟨inner, done, rfl⟩ := done
  cases found : program.image.routines[index]? with
  | none =>
      rw [found] at done
      obtain rfl := Option.some.inj done
      have refused : IsWithinLimit (.error (.missingRoutine index) : Except Fault Value) :=
        .error nofun
      refine (balances_settled refused _ _ rfl).ask ?_
      rintro ⟨⟨routine, found', -⟩, -⟩
      exact absurd (found.symm.trans found') nofun
  | some routine =>
      simp only [found] at done
      split at done
      · next differs =>
          obtain rfl := Option.some.inj done
          have refused : IsWithinLimit (.error
              (.arity routine.name routine.arity arguments.length) : Except Fault Value) :=
            .error nofun
          refine (balances_settled refused _ _ rfl).ask ?_
          rintro ⟨⟨routine', found', same⟩, -⟩
          obtain rfl := Option.some.inj (found.symm.trans found')
          exact differs same
      next same =>
      rw [active_bind] at done
      split at done
      · next many =>
          obtain rfl := Option.some.inj done
          have accepts : Accepts program index arguments := ⟨routine, found, Decidable.not_not.mp same⟩
          refine ⟨rfl, fun active member ↦ ?_, fun _ _ active member ↦ ?_, ?_⟩
          · exact absurd (List.mem_singleton.mp member) nofun
          · cases List.mem_singleton.mp member
            exact Nat.le_max_left _ _
          · exact iff_of_true rfl (exceeds_asked.mpr ⟨accepts, many⟩)
      · next few =>
          refine (balances_asCall (run _) (Nat.lt_of_not_le few) done).ask ?_
          exact fun both ↦ few both.2

/-! ## Everything that an interpreter does -/

theorem balances_interpret (program : Program) : (fuel : Nat) → (control : Control) →
    Balances program (interpret program fuel control)
  | 0, _ => fun _ _ done ↦ absurd done nofun
  | fuel + 1, .run frame => by
      rw [interpret]
      split
      · exact balances_pure _
      · refine balances_bind (balances_inWorld fun world ↦ .execute _ _ _ _) fun effect ↦ ?_
        cases effect with
        | next frame => exact balances_interpret program fuel (.run frame)
        | await frame control =>
            exact balances_bind (balances_interpret program fuel control) fun value ↦
              balances_interpret program fuel (.run (frame.push value))
        | leave value => exact balances_pure value
  | fuel + 1, .call index arguments =>
      balances_call (fun frame ↦ balances_interpret program fuel (.run frame)) index arguments
  | fuel + 1, .construct type => by
      rw [interpret]
      split
      · exact balances_settled (.error nofun)
      · next definition _ =>
          refine balances_bind (balances_inWorld fun world ↦ .ok _) fun reference ↦ ?_
          split
          · exact balances_pure _
          · next initializer _ =>
              exact balances_bind (balances_interpret program fuel (.call initializer _)) fun _ ↦
                balances_pure _
  | fuel + 1, .enumerate pending done stages goal => by
      rw [interpret.eq_def]
      dsimp only
      split
      · exact balances_pure _
      · exact balances_interpret program fuel _
      · refine balances_bind (balances_interpret program fuel _) fun answer ↦ ?_
        split
        · exact balances_interpret program fuel _
        · exact balances_bind (balances_settled (.orMismatch _)) fun _ ↦
            balances_interpret program fuel _
  | fuel + 1, .answer value => balances_pure value

end GuestScript.Meaning
