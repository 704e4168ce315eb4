import GuestScript.Proofs.Machine.Work
import GuestScript.Proofs.Simulation.Steps

/-!
# Copies

A closure is made of copies of what is in some slots, and hands them to its routine in the first
slots of a frame of its own. So what the routine does to them leaves the frame that made the closure
as it was; more generally, nothing that runs before there is an answer changes what waits for it.
-/

namespace GuestScript.Machine

open Bytecode (Op Routine RoutineIndex)

variable {program : Program} {routine : Routine} {position : Nat} {locals : Array Value}
  {stack : List Value} {base waiting : List Waiting} {world : World} {state last next : State}
  {index : RoutineIndex} {count : Nat}

/-! ## Making closures -/

/-- Slots are read one after the other. -/
theorem exists_values_of_loads : (slots : List Nat) → {position : Nat} → {stack : List Value} →
    {last : State} →
    routine.HasAt position (slots.map .load) →
    Takes program slots.length ⟨.run ⟨routine, position, locals, ⟨stack⟩⟩, waiting, world⟩ last →
    ∃ values : List Value, slots.map (locals[·]?) = values.map some ∧
      last = ⟨.run ⟨routine, position + slots.length, locals, ⟨values.reverse ++ stack⟩⟩, waiting,
        world⟩
  | [], _, _, _, _, .zero _ => ⟨[], rfl, rfl⟩
  | slot :: rest, position, stack, _, has, .succ first others => by
      rw [step, runFrame, has.op] at first
      simp only [Frame.goTo] at first
      cases found : locals[slot]? with
      | none =>
          rw [execute, load, found] at first
          cases first
      | some value =>
          rw [execute_load program world routine _ locals stack found] at first
          cases first
          obtain ⟨values, read, rfl⟩ := exists_values_of_loads rest has.tail others
          refine ⟨value :: values, ?_, ?_⟩
          · rw [List.map_cons, List.map_cons, found, read]
          · rw [List.reverse_cons, List.append_assoc, List.length_cons, Nat.add_comm rest.length,
              ← Nat.add_assoc]
            rfl

/-- The instructions that make a closure leave it with what is in the slots, and change no slot. -/
theorem exists_values_of_makeClosure {slots : List Nat}
    (has : routine.HasAt position (slots.map .load ++ [.makeClosure index slots.length]))
    (taken : Takes program (slots.length + 1)
      ⟨.run ⟨routine, position, locals, ⟨stack⟩⟩, waiting, world⟩ last) :
    ∃ values : List Value, slots.map (locals[·]?) = values.map some ∧
      last = ⟨.run ⟨routine, position + slots.length + 1, locals,
          ⟨.closure (world.makeClosure index values).1 :: stack⟩⟩, waiting,
        (world.makeClosure index values).2⟩ := by
  obtain ⟨middle, loaded, made⟩ := taken.split
  obtain ⟨values, read, rfl⟩ := exists_values_of_loads slots has.left loaded
  have length : slots.length = values.length := by simpa using congrArg List.length read
  have here := has.right.op
  rw [List.length_map] at here
  refine ⟨values, read, ?_⟩
  cases made with
  | succ first rest =>
      cases rest with
      | zero =>
          have executed := execute_makeClosure program world routine
            (position + slots.length + 1) locals stack index values
          rw [← length] at executed
          rw [step, runFrame, here] at first
          simp only [Frame.goTo, executed, proceed] at first
          exact (Step.running.inj first).symm

/-- A closure hands its copies to its routine, before the arguments, in the first slots. -/
theorem exists_frame_of_callClosure {closure : Closure} {arguments : List Value}
    (found : program.image.routines[closure.routine]? = some routine)
    (enough : routine.arity ≤ routine.locals)
    (taken : step program ⟨callClosure closure arguments, waiting, world⟩ = .running next) :
    ∃ frame, next = ⟨.run frame, waiting, world⟩ ∧ frame.routine = routine ∧
      (closure.captures ++ arguments).length = routine.arity ∧
      ∀ slot < routine.arity, frame.locals[slot]? = (closure.captures ++ arguments)[slot]? := by
  rw [callClosure, step, startCall, found] at taken
  simp only at taken
  split at taken
  · cases taken
  · next fits =>
      rw [ne_eq, not_not] at fits
      split at taken
      · cases taken
      · refine ⟨_, (Step.running.inj taken).symm, rfl, fits, fun slot inside ↦ ?_⟩
        rw [Frame.enter, List.getElem?_toArray, List.take_of_length_le (fits ▸ enough),
          List.getElem?_append_left (fits ▸ inside)]

/-! ## What waits -/

/-- What waits is left as it is until it is given its answer. -/
theorem Takes.above_or_answered (taken : Takes program count (state.above base) last) :
    (∃ top, last.waiting = top ++ base) ∨
      ∃ value after, Reaches program (state.above base) ⟨.answer value, base, after⟩ ∧
        Reaches program ⟨.answer value, base, after⟩ last := by
  induction count generalizing state with
  | zero =>
      cases taken
      exact .inl ⟨state.waiting, rfl⟩
  | succ count ih =>
      rcases state.busy_or with busy | ⟨value, after, rfl⟩
      · cases taken with
        | succ first rest =>
            obtain ⟨outcome, alike⟩ := exists_step_above program busy (callDepth base)
            rw [alike base rfl] at first
            cases outcome with
            | ended ending => cases first
            | running inner =>
                cases first
                have stepped : Reaches program (state.above base) (inner.above base) :=
                  .single (alike base rfl)
                exact (ih rest).imp_right fun ⟨value, after, before, behind⟩ ↦
                  ⟨value, after, stepped.trans before, behind⟩
      · exact .inr ⟨value, after, .refl _, ⟨_, taken⟩⟩

theorem Reaches.above_or_answered {control : Control}
    (reached : Reaches program ⟨control, base, world⟩ last) :
    (∃ top, last.waiting = top ++ base) ∨
      ∃ value after, Reaches program ⟨control, base, world⟩ ⟨.answer value, base, after⟩ ∧
        Reaches program ⟨.answer value, base, after⟩ last := by
  obtain ⟨count, taken⟩ := reached
  have alone : State.above base ⟨control, [], world⟩ = ⟨control, base, world⟩ := rfl
  exact alone ▸ Takes.above_or_answered (alone ▸ taken)

end GuestScript.Machine
