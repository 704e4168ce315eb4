import GuestScript.Proofs.Machine.Interpreted

/-!
# An interpreter that is used again

What is asked of an interpreter from outside may end with a fault anywhere inside it. As many calls are
active behind it as before, so the next operation finds the interpreter as a new one would be in the same
world, and has the answer that the machine gives there: `staysUsable`.
-/

namespace GuestScript.Meaning

open Bytecode (RoutineIndex)
open Machine (Control Ending Ends Fault HostFailure IsWithinLimit Program Value World maxCallDepth run)

variable {program : Program} {before : Interpreter} {fuel : Nat} {control : Control}
  {operation : Operation} {report : Report (Except HostFailure Value)}

/-! ## Balance -/

/-- An operation has kept the count of active calls: it is as it was, it was never set above the limit,
and the fault of too many calls is the answer if a call was asked for that has a routine and takes as
many arguments, with all the calls active that there may be. -/
structure KeepsCount (program : Program) (before : Interpreter)
    (report : Report (Except HostFailure Value)) : Prop where
  restored : report.after.active = before.active
  bounded : ∀ active, .counted active ∈ report.notices → active ≤ maxCallDepth
  overflows : before.active ≤ maxCallDepth →
    (report.answer = .error (.fault (.tooDeep maxCallDepth)) ↔
      ∃ routine arguments, .asked routine arguments maxCallDepth ∈ report.notices ∧
        Accepts program routine arguments)

/-- Calls that exceed the limit are asked for just at the limit, if the work starts within it. -/
theorem IsBalanced.exceeds_iff {inner : Report (Except Fault Value)}
    (balanced : IsBalanced program before inner) (few : before.active ≤ maxCallDepth) :
    Exceeds program inner.notices ↔
      ∃ routine arguments, .asked routine arguments maxCallDepth ∈ inner.notices ∧
        Accepts program routine arguments := by
  constructor
  · rintro ⟨routine, arguments, active, inside, accepts, many⟩
    have bound := balanced.asked routine arguments active inside
    rw [Nat.max_eq_right few] at bound
    obtain rfl := Nat.le_antisymm bound many
    exact ⟨routine, arguments, inside, accepts⟩
  · rintro ⟨routine, arguments, inside, accepts⟩
    exact ⟨routine, arguments, maxCallDepth, inside, accepts, Nat.le_refl _⟩

theorem keepsCount_perform (done : Interpreter.perform program fuel control before = some report) :
    KeepsCount program before report := by
  obtain ⟨⟨answer, after, notices⟩, worked, rfl⟩ := Option.map_eq_some_iff.mp done
  have balanced := balances_interpret program fuel control _ _ worked
  refine ⟨balanced.restored, balanced.counted, fun few ↦ ?_⟩
  rw [← balanced.exceeds_iff few, ← balanced.exceeded]
  cases answer with
  | ok value => exact iff_of_false nofun nofun
  | error fault => simp only [Except.mapError, Except.error.injEq, HostFailure.fault.injEq]

/-- An answer without any work keeps the count, unless it is the fault of too many calls. -/
theorem keepsCount_at_once {answer : Except HostFailure Value} (world : World)
    (other : answer ≠ .error (.fault (.tooDeep maxCallDepth))) :
    KeepsCount program before ⟨answer, { before with world }, []⟩ :=
  ⟨rfl, nofun, fun _ ↦ iff_of_false other fun ⟨_, _, inside, _⟩ ↦ List.not_mem_nil inside⟩

theorem keepsCount_operate
    (done : Interpreter.operate program fuel operation before = some report) :
    KeepsCount program before report := by
  cases operation with
  | call | callClosure | construct | force => exact keepsCount_perform done
  | callHost action arguments =>
      simp only [Interpreter.operate] at done
      split at done
      · obtain rfl := Option.some.inj done
        exact keepsCount_at_once _ nofun
      · obtain rfl := Option.some.inj done
        exact keepsCount_at_once _ nofun
      · next fault replied =>
          obtain rfl := Option.some.inj done
          refine keepsCount_at_once _ fun same ↦ ?_
          exact IsWithinLimit.reply_fault _ replied (HostFailure.fault.inj (Except.error.inj same))
      · exact keepsCount_perform done

/-- After any operations, no call is active if none was. -/
theorem active_of_becomes {used : Interpreter} (becomes : before.Becomes program used) :
    used.active = before.active := by
  induction becomes with
  | refl => rfl
  | operated _ done ih => exact (keepsCount_operate done).restored.trans ih

/-! ## Agreement with the machine -/

/-- What an interpreter does with no call active, the machine does. -/
theorem ends_of_interpret (request : isRequest control = true) {world : World}
    {inner : Report (Except Fault Value)}
    (done : interpret program fuel control (.fresh world) = some inner) :
    Ends program ⟨control, [], world⟩ ⟨inner.answer, inner.after.world⟩ := by
  have active : (Interpreter.fresh world).active = activeCalls control [] :=
    (activeCalls_of_isRequest request []).symm
  have same := matches_interpret program fuel control [] active done
  unfold Matches at same
  cases answer : inner.answer with
  | ok value =>
      rw [answer] at same
      exact same.ends_iff.mpr (.of_step rfl)
  | error fault =>
      rw [answer] at same
      exact same

/-- What the machine does, an interpreter does with no call active. -/
theorem interpret_of_ends (request : isRequest control = true) {world : World} {ending : Ending}
    (ends : Ends program ⟨control, [], world⟩ ending) :
    ∃ fuel inner, interpret program fuel control (.fresh world) = some inner ∧
      (⟨inner.answer, inner.after.world⟩ : Ending) = ending := by
  obtain ⟨count, ran⟩ := ends
  have active : (Interpreter.fresh world).active = activeCalls control [] :=
    (activeCalls_of_isRequest request []).symm
  obtain ⟨inner, worked, -⟩ := mirrors_all program ending count control [] active ran
  have done := worked count (Nat.le_refl _)
  exact ⟨count, inner, done, (ends_of_interpret request done).unique ⟨count, ran⟩⟩

/-- Work comes to this answer in this world. -/
def Gives (work : Nat → Option (Report (Except HostFailure Value)))
    (outcome : Except HostFailure Value × World) : Prop :=
  ∃ fuel report, work fuel = some report ∧ (report.answer, report.after.world) = outcome

variable {world : World} {outcome : Except HostFailure Value × World}

theorem gives_perform_iff (request : isRequest control = true) :
    Gives (fun fuel ↦ Interpreter.perform program fuel control (.fresh world)) outcome ↔
      ∃ fuel, (program.perform fuel control world).map ended = some outcome := by
  constructor
  · rintro ⟨fuel, report, done, rfl⟩
    obtain ⟨inner, worked, rfl⟩ := Option.map_eq_some_iff.mp done
    obtain ⟨count, ran⟩ := ends_of_interpret request worked
    exact ⟨count, congrArg (Option.map ended) ran⟩
  · rintro ⟨fuel, performed⟩
    obtain ⟨ending, ran, rfl⟩ := Option.map_eq_some_iff.mp performed
    have ends : Ends program ⟨control, [], world⟩ ending := ⟨fuel, ran⟩
    obtain ⟨fuel, inner, done, rfl⟩ := interpret_of_ends request ends
    exact ⟨fuel, _, congrArg (Option.map _) done, rfl⟩

theorem gives_at_once_iff {answer : Except HostFailure Value} {after : Interpreter} :
    Gives (fun _ ↦ some ⟨answer, after, []⟩) outcome ↔
      ∃ _ : Nat, some (answer, after.world) = some outcome := by
  constructor
  · rintro ⟨fuel, report, done, rfl⟩
    obtain rfl := Option.some.inj done
    exact ⟨fuel, rfl⟩
  · rintro ⟨fuel, same⟩
    exact ⟨fuel, _, rfl, Option.some.inj same⟩

/-- An interpreter gives what the machine gives. -/
theorem gives_operate_iff (operation : Operation) :
    Gives (fun fuel ↦ Interpreter.operate program fuel operation (.fresh world)) outcome ↔
      ∃ fuel, operation.run program fuel world = some outcome := by
  cases operation with
  | call | callClosure | construct | force => exact gives_perform_iff rfl
  | callHost action arguments =>
      have same : (Interpreter.fresh world).world = world := rfl
      simp only [Operation.run, Interpreter.operate, Program.callHost, same]
      cases action.reply arguments world with
      | value | refuse | fault => exact gives_at_once_iff
      | enumerate source stages goal =>
          refine (gives_perform_iff rfl).trans (exists_congr fun fuel ↦ ?_)
          dsimp only
          rcases program.perform fuel (.enumerate source [] stages goal) world with
            _ | ⟨_ | _, _⟩ <;> rfl

/-! ## One interpreter for many operations -/

/-- An interpreter stays usable, whatever is asked of it. Every operation keeps the count of active
calls, from whatever number of them on, and however it ends. After any operations, the next one does
what it would do on a new interpreter in the same world. What a new one gives is what the machine
gives. -/
structure StaysUsable (program : Program) : Prop where
  keepsCount : ∀ fuel operation before report,
    Interpreter.operate program fuel operation before = some report →
      KeepsCount program before report
  asNew : ∀ world used, (Interpreter.fresh world).Becomes program used → ∀ fuel operation,
    Interpreter.operate program fuel operation used =
      Interpreter.operate program fuel operation (.fresh used.world)
  asMachine : ∀ operation world outcome,
    Gives (fun fuel ↦ Interpreter.operate program fuel operation (.fresh world)) outcome ↔
      ∃ fuel, operation.run program fuel world = some outcome

/-- Interpreters of every program stay usable. -/
theorem staysUsable (program : Program) : StaysUsable program where
  keepsCount _ _ _ _ done := keepsCount_operate done
  asNew world used becomes fuel operation := by
    have idle : used.active = 0 := active_of_becomes becomes
    have same : used = .fresh used.world := by rw [Interpreter.fresh, ← idle]
    rw [← same]
  asMachine operation _ _ := gives_operate_iff operation

end GuestScript.Meaning
