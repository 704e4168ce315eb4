import GuestScript.Proofs.Machine.Runs
import Mathlib.Data.List.Basic

/-!
# Work

What the machine does until it has an answer for what waits. `Comes program depth state calls result
after` follows a state, whatever waits below what the state itself has waiting, as long as so many
calls are active there: the calls that are started, in order, lead to the result and the world at
that moment. The result is a value, the fault that ends the run, or `unfinished`, since work may be
watched at any moment and need never end.

`Work` is the monad of what may come. Two pieces of work are equal if the same calls, results and
worlds come of them, so an equation between them holds of every run, also of one that never ends.
`work_above` splits the work of a state at the answer that its own waiting list is given, and
`work_of_step` takes a step that neither calls nor changes the world.
-/

namespace GuestScript.Machine

open Bytecode (RoutineIndex)

/-- A call that is started. -/
structure Started where
  routine : RoutineIndex
  arguments : List Value

/-- Why there is no result: a fault has ended the run, or nothing has ended it yet. -/
inductive Stop where
  | fault (fault : Fault)
  | unfinished
  deriving DecidableEq

/-! ## The monad -/

/-- Work in a world: the calls, the result and the world afterwards that may come of it. It can be
watched before it begins, and when it has its result. -/
@[ext]
structure Work (Result : Type) where
  comes : World → List Started → Except Stop Result → World → Prop
  begins (world : World) : comes world [] (.error .unfinished) world
  watched {world after : World} {calls : List Started} {value : Result} :
    comes world calls (.ok value) after → comes world calls (.error .unfinished) after

namespace Work

variable {Result Other : Type}

/-- Two pieces of work of which the same comes are equal. -/
theorem eq_of_comes_iff {first second : Work Result}
    (same : ∀ world calls result after,
      first.comes world calls result after ↔ second.comes world calls result after) :
    first = second := by
  apply Work.ext
  funext world calls result after
  exact propext (same world calls result after)

/-- What comes of something that is done at once, without a call. -/
inductive Immediate (action : World → Except Fault Result × World) (world : World) :
    List Started → Except Stop Result → World → Prop where
  | before : Immediate action world [] (.error .unfinished) world
  | fault {fault : Fault} {after : World} :
      action world = (.error fault, after) → Immediate action world [] (.error (.fault fault)) after
  | result {value : Result} {after : World} :
      action world = (.ok value, after) → Immediate action world [] (.ok value) after
  | watched {value : Result} {after : World} :
      action world = (.ok value, after) → Immediate action world [] (.error .unfinished) after

/-- Do something at once. -/
def atOnce (action : World → Except Fault Result × World) : Work Result where
  comes := Immediate action
  begins _ := .before
  watched := by
    rintro world after _ value ⟨⟩
    exact .watched ‹_›

/-- Go on with a result, or end with a fault. -/
def settled (result : Except Fault Result) : Work Result :=
  atOnce fun world ↦ (result, world)

/-- What comes of one piece of work and, if that has a result, another one. -/
inductive Joined (first : Work Result) (next : Result → Work Other) (world : World) :
    List Started → Except Stop Other → World → Prop where
  | stopped {calls : List Started} {stop : Stop} {after : World} :
      first.comes world calls (.error stop) after →
      Joined first next world calls (.error stop) after
  | joined {calls more : List Started} {value : Result} {middle after : World}
      {result : Except Stop Other} :
      first.comes world calls (.ok value) middle →
      (next value).comes middle more result after →
      Joined first next world (calls ++ more) result after

instance : Monad Work where
  pure value := settled (.ok value)
  bind first next :=
    { comes := Joined first next
      begins := fun world ↦ .stopped (first.begins world)
      watched := by
        rintro world after _ value ⟨⟩
        exact .joined ‹_› ((next _).watched ‹_›) }

theorem comes_pure {value : Result} {world after : World} {calls : List Started}
    {result : Except Stop Result} :
    (pure value : Work Result).comes world calls result after ↔
      calls = [] ∧ (result = .ok value ∨ result = .error .unfinished) ∧ after = world := by
  constructor
  · intro comes
    cases comes with
    | before => exact ⟨rfl, .inr rfl, rfl⟩
    | fault same => cases same
    | result same =>
        cases same
        exact ⟨rfl, .inl rfl, rfl⟩
    | watched same =>
        cases same
        exact ⟨rfl, .inr rfl, rfl⟩
  · rintro ⟨rfl, rfl | rfl, rfl⟩
    · exact .result rfl
    · exact .before

theorem comes_settled_error {fault : Fault} {world after : World} {calls : List Started}
    {result : Except Stop Result} :
    (settled (.error fault) : Work Result).comes world calls result after ↔
      calls = [] ∧ (result = .error (.fault fault) ∨ result = .error .unfinished) ∧
        after = world := by
  constructor
  · intro comes
    cases comes with
    | before => exact ⟨rfl, .inr rfl, rfl⟩
    | fault same =>
        cases same
        exact ⟨rfl, .inl rfl, rfl⟩
    | result same => cases same
    | watched same => cases same
  · rintro ⟨rfl, rfl | rfl, rfl⟩
    · exact .fault rfl
    · exact .before

theorem pure_bind' (value : Result) (next : Result → Work Other) :
    pure value >>= next = next value := by
  refine eq_of_comes_iff fun world calls result after ↦ ⟨?_, ?_⟩
  · rintro (stopped | ⟨first, second⟩)
    · obtain ⟨rfl, same | same, rfl⟩ := comes_pure.mp stopped
      · cases same
      · cases same
        exact (next value).begins _
    · obtain ⟨rfl, same | same, rfl⟩ := comes_pure.mp first
      · cases same
        exact second
      · cases same
  · intro comes
    exact .joined (comes_pure.mpr ⟨rfl, .inl rfl, rfl⟩) comes

theorem bind_pure' (work : Work Result) : work >>= pure = work := by
  refine eq_of_comes_iff fun world calls result after ↦ ⟨?_, ?_⟩
  · rintro (stopped | ⟨first, second⟩)
    · exact stopped
    · obtain ⟨rfl, rfl | rfl, rfl⟩ := comes_pure.mp second
      · rwa [List.append_nil]
      · rw [List.append_nil]
        exact work.watched first
  · intro comes
    cases result with
    | error stop => exact .stopped comes
    | ok value =>
        have joined := Joined.joined comes (comes_pure.mpr ⟨rfl, .inl rfl, rfl⟩)
        rwa [List.append_nil] at joined

theorem bind_bind {Third : Type} (first : Work Result) (second : Result → Work Other)
    (third : Other → Work Third) :
    first >>= second >>= third = first >>= fun value ↦ second value >>= third := by
  refine eq_of_comes_iff fun world calls result after ↦ ⟨?_, ?_⟩
  · rintro (stopped | ⟨both, last⟩)
    · cases stopped with
      | stopped one => exact .stopped one
      | joined one two => exact .joined one (.stopped two)
    · cases both with
      | joined one two =>
          rw [List.append_assoc]
          exact .joined one (.joined two last)
  · rintro (one | ⟨one, both⟩)
    · exact .stopped (.stopped one)
    · cases both with
      | stopped two => exact .stopped (.joined one two)
      | joined two last =>
          rw [← List.append_assoc]
          exact .joined (.joined one two) last

instance : LawfulMonad Work :=
  .mk' Work bind_pure' pure_bind' bind_bind

/-- What comes of work whose result is converted. -/
theorem comes_map {convert : Result → Other} {work : Work Result} {world after : World}
    {calls : List Started} {result : Except Stop Other} :
    (convert <$> work).comes world calls result after ↔
      ∃ found, work.comes world calls found after ∧ result = found.map convert := by
  rw [map_eq_pure_bind]
  constructor
  · rintro (stopped | ⟨first, second⟩)
    · exact ⟨_, stopped, rfl⟩
    · obtain ⟨rfl, rfl | rfl, rfl⟩ := comes_pure.mp second
      · exact ⟨_, by rwa [List.append_nil], rfl⟩
      · exact ⟨.error .unfinished, by rw [List.append_nil]; exact work.watched first, rfl⟩
  · rintro ⟨found, comes, rfl⟩
    cases found with
    | error stop => exact .stopped comes
    | ok value =>
        have joined : Joined work (fun value ↦ pure (convert value)) world (calls ++ [])
            (.ok (convert value)) after := .joined comes (comes_pure.mpr ⟨rfl, .inl rfl, rfl⟩)
        rwa [List.append_nil] at joined

/-- Nothing comes after a fault. -/
theorem settled_error_bind (fault : Fault) (next : Result → Work Other) :
    settled (.error fault) >>= next = settled (.error fault) := by
  refine eq_of_comes_iff fun world calls result after ↦ ⟨?_, ?_⟩
  · rintro (stopped | ⟨first, _⟩)
    · obtain ⟨rfl, same | same, rfl⟩ := comes_settled_error.mp stopped
      · cases same
        exact .fault rfl
      · cases same
        exact .before
    · obtain ⟨_, same | same, _⟩ := comes_settled_error.mp first <;> cases same
  · intro comes
    obtain ⟨rfl, rfl | rfl, rfl⟩ := comes_settled_error.mp comes
    · exact .stopped (.fault rfl)
    · exact .stopped .before

end Work

/-! ## States with something below -/

/-- The state with more waiting below what it has waiting itself. -/
def State.above (base : List Waiting) (state : State) : State :=
  { state with waiting := state.waiting ++ base }

/-- What a step leads to with more waiting below. -/
def Step.above (base : List Waiting) : Step → Step
  | .running state => .running (state.above base)
  | .ended ending => .ended ending

/-- A state has something to do before it needs what waits below. -/
def State.Busy (state : State) : Prop :=
  ∀ value world, state ≠ ⟨.answer value, [], world⟩

/-- The call that a state starts with its next step. -/
def State.starts (state : State) : List Started :=
  match state.control with
  | .call routine arguments => [⟨routine, arguments⟩]
  | _ => []

variable {program : Program} {depth : Nat} {state : State} {base top : List Waiting}

@[simp]
theorem State.starts_above : (state.above base).starts = state.starts :=
  rfl

theorem State.above_above (state : State) (top base : List Waiting) :
    (state.above top).above base = state.above (top ++ base) := by
  simp only [State.above, List.append_assoc]

theorem State.above_injective (base : List Waiting) : Function.Injective (State.above base) := by
  rintro ⟨control, waiting, world⟩ ⟨control', waiting', world'⟩ same
  simpa only [State.above, State.mk.injEq, List.append_left_inj] using same

/-- A state is busy, or an answer that nothing of its own waits for. -/
theorem State.busy_or (state : State) :
    state.Busy ∨ ∃ value world, state = ⟨.answer value, [], world⟩ := by
  by_cases answered : ∃ value world, state = ⟨.answer value, [], world⟩
  · exact .inr answered
  · exact .inl fun value world same ↦ answered ⟨value, world, same⟩

@[simp]
theorem callDepth_append (top base : List Waiting) :
    callDepth (top ++ base) = callDepth top + callDepth base := by
  induction top with
  | nil => rw [List.nil_append, callDepth, Nat.zero_add]
  | cons first rest ih =>
      cases first with
      | routine frame => simp only [List.cons_append, callDepth, ih, Nat.add_right_comm]
      | object value => simpa only [List.cons_append, callDepth] using ih
      | element => simpa only [List.cons_append, callDepth] using ih

/-- Any number of calls may be active. -/
theorem exists_callDepth (depth : Nat) : ∃ base, callDepth base = depth := by
  induction depth with
  | zero => exact ⟨[], rfl⟩
  | succ depth ih =>
      obtain ⟨base, rfl⟩ := ih
      exact ⟨.routine (.enter ⟨"", none, .everyone, .static, 0, 0, #[]⟩ []) :: base, rfl⟩

/-- A step of a busy state takes no notice of what waits below but for the number of calls that are
active. -/
theorem exists_step_above (program : Program) (busy : state.Busy) (depth : Nat) :
    ∃ outcome : Step, ∀ base, callDepth base = depth →
      step program (state.above base) = outcome.above base := by
  obtain ⟨control, waiting, world⟩ := state
  cases control with
  | run frame =>
      refine ⟨runFrame program frame waiting world, fun base _ ↦ ?_⟩
      simp only [State.above, step, runFrame]
      cases frame.routine.code[frame.position]? with
      | none => rfl
      | some op =>
          simp only
          obtain ⟨effect, after⟩ := execute program world (frame.goTo (frame.position + 1)) op
          cases effect with
          | error fault => rfl
          | ok effect => cases effect <;> rfl
  | call index arguments =>
      simp only [State.above, step, startCall]
      cases program.image.routines[index]? with
      | none => exact ⟨.ended ⟨.error (.missingRoutine index), world⟩, fun _ _ ↦ rfl⟩
      | some routine =>
          refine ⟨if arguments.length ≠ routine.arity then
              .ended ⟨.error (.arity routine.name routine.arity arguments.length), world⟩
            else if maxCallDepth ≤ callDepth waiting + depth then
              .ended ⟨.error (.tooDeep maxCallDepth), world⟩
            else .running ⟨.run (.enter routine arguments), waiting, world⟩, fun base same ↦ ?_⟩
          simp only [callDepth_append, same]
          split
          · rfl
          · split <;> rfl
  | construct type =>
      refine ⟨startConstruction program type waiting world, fun base _ ↦ ?_⟩
      simp only [State.above, step, startConstruction]
      cases program.image.types[type]? with
      | none => rfl
      | some definition => cases starts : definition.initializer <;> simp only [starts] <;> rfl
  | enumerate pending done stages goal =>
      refine ⟨enumerate pending done stages goal waiting world, fun base _ ↦ ?_⟩
      cases stages with
      | nil => rfl
      | cons stage later => cases pending <;> rfl
  | answer value =>
      cases waiting with
      | nil => exact absurd rfl (busy value world)
      | cons first rest =>
          refine ⟨deliver value (first :: rest) world, fun base _ ↦ ?_⟩
          cases first with
          | routine frame => rfl
          | object object => rfl
          | element stage element pending done later goal =>
              cases stage with
              | map mapper => rfl
              | filter predicate =>
                  simp only [State.above, step, deliver, List.cons_append]
                  cases value.toBool with
                  | error mismatch => rfl
                  | ok keep => cases keep <;> rfl

/-! ## What comes of a state -/

/-- What comes of a state, whatever waits below while so many calls are active there. -/
inductive Comes (program : Program) (depth : Nat) :
    State → List Started → Except Stop Value → World → Prop where
  | answers (value : Value) (world : World) :
      Comes program depth ⟨.answer value, [], world⟩ [] (.ok value) world
  | faults {state : State} {fault : Fault} {after : World} :
      state.Busy →
      (∀ base, callDepth base = depth →
        step program (state.above base) = .ended ⟨.error fault, after⟩) →
      Comes program depth state [] (.error (.fault fault)) after
  | unfinished (state : State) : Comes program depth state [] (.error .unfinished) state.world
  | step {state next : State} {calls : List Started} {result : Except Stop Value} {after : World} :
      state.Busy →
      (∀ base, callDepth base = depth →
        step program (state.above base) = .running (next.above base)) →
      Comes program depth next calls result after →
      Comes program depth state (state.starts ++ calls) result after

variable {control control' : Control} {waiting waiting' : List Waiting} {world after middle : World}
  {calls more : List Started} {result : Except Stop Value} {value : Value} {stop : Stop}

theorem Comes.watched (comes : Comes program depth state calls result after)
    (answered : result = .ok value) :
    Comes program depth state calls (.error .unfinished) after := by
  induction comes with
  | answers value world => exact .unfinished _
  | faults => cases answered
  | unfinished state => exact .unfinished state
  | step busy taken _ ih => exact .step busy taken (ih answered)

/-- The work of a state. -/
def work (program : Program) (depth : Nat) (control : Control) (waiting : List Waiting) :
    Work Value where
  comes world := Comes program depth ⟨control, waiting, world⟩
  begins _ := .unfinished _
  watched comes := comes.watched rfl

/-- Do one thing to the end while so many calls are active. -/
abbrev perform (program : Program) (depth : Nat) (control : Control) : Work Value :=
  work program depth control []

/-- An answer that nothing of its own waits for is the result. -/
theorem work_answer (value : Value) : perform program depth (.answer value) = pure value := by
  refine Work.eq_of_comes_iff fun world calls result after ↦ ⟨?_, ?_⟩
  · intro comes
    cases comes with
    | answers => exact .result rfl
    | faults busy => exact absurd rfl (busy value world)
    | unfinished => exact .before
    | step busy => exact absurd rfl (busy value world)
  · intro comes
    obtain ⟨rfl, rfl | rfl, rfl⟩ := Work.comes_pure.mp comes
    · exact .answers value after
    · exact .unfinished _

/-- What a step that neither calls nor changes the world leads to is the same work. -/
theorem work_of_step (busy : ∀ world, State.Busy ⟨control, waiting, world⟩)
    (starts : ∀ world, State.starts ⟨control, waiting, world⟩ = [])
    (taken : ∀ base world, callDepth base = depth →
      step program ⟨control, waiting ++ base, world⟩
        = .running ⟨control', waiting' ++ base, world⟩) :
    work program depth control waiting = work program depth control' waiting' := by
  obtain ⟨base, active⟩ := exists_callDepth depth
  refine Work.eq_of_comes_iff fun world calls result after ↦ ⟨?_, ?_⟩
  · intro comes
    cases comes with
    | answers value => exact absurd rfl (busy world value world)
    | faults _ ended => cases (ended base active).symm.trans (taken base world active)
    | unfinished => exact .unfinished _
    | @step _ next _ _ _ _ stepped rest =>
        have same : next.above base = State.above base ⟨control', waiting', world⟩ :=
          Step.running.inj ((stepped base active).symm.trans (taken base world active))
        rw [starts, List.nil_append]
        obtain rfl := State.above_injective base same
        exact rest
  · intro comes
    have step := Comes.step (busy world) (fun base active ↦ taken base world active) comes
    rwa [starts, List.nil_append] at step

/-- A step that ends the run with a fault is the whole work. -/
theorem work_of_fault (fault : Fault) (busy : ∀ world, State.Busy ⟨control, waiting, world⟩)
    (ended : ∀ base world, callDepth base = depth →
      step program ⟨control, waiting ++ base, world⟩ = .ended ⟨.error fault, world⟩) :
    work program depth control waiting = Work.settled (.error fault) := by
  obtain ⟨base, active⟩ := exists_callDepth depth
  refine Work.eq_of_comes_iff fun world calls result after ↦ ⟨?_, ?_⟩
  · intro comes
    cases comes with
    | answers value => exact absurd rfl (busy world value world)
    | faults _ ended' =>
        cases (ended' base active).symm.trans (ended base world active)
        exact .fault rfl
    | unfinished => exact .before
    | step _ stepped => cases (stepped base active).symm.trans (ended base world active)
  · intro comes
    cases comes with
    | before => exact .unfinished _
    | fault same =>
        cases same
        exact .faults (busy world) fun base active ↦ ended base world active
    | result same => cases same
    | watched same => cases same

/-! ## Runs that end -/

@[simp]
theorem State.above_nil (state : State) : state.above [] = state := by
  rw [State.above, List.append_nil]

/-- A step of a busy state, with nothing below, is one with anything below that has no call
active. -/
theorem step_above_of_step {outcome : Step} (busy : state.Busy) (taken : step program state = outcome)
    (active : callDepth base = 0) : step program (state.above base) = outcome.above base := by
  obtain ⟨same, alike⟩ := exists_step_above program busy 0
  have here := alike [] rfl
  rw [State.above_nil, taken] at here
  rw [alike base active, here]
  cases same with
  | running next => rw [Step.above, Step.above, Step.above, State.above_nil]
  | ended ending => rfl

/-- A busy state can end a run with a fault only. -/
theorem State.Busy.fault_of_ended (busy : state.Busy) {ending : Ending}
    (ended : step program state = .ended ending) : ∃ fault, ending.result = .error fault := by
  obtain ⟨control, waiting, world⟩ := state
  cases control with
  | run frame =>
      rw [step, runFrame] at ended
      split at ended
      · cases ended
      · revert ended
        rcases execute program world _ _ with ⟨fault | effect, after⟩
        · rintro ⟨⟩
          exact ⟨fault, rfl⟩
        · cases effect <;> exact fun same ↦ nomatch same
  | call index arguments =>
      rw [step, startCall] at ended
      repeat' split at ended
      all_goals cases ended
      all_goals exact ⟨_, rfl⟩
  | construct type =>
      rw [step, startConstruction] at ended
      split at ended
      · cases ended
        exact ⟨_, rfl⟩
      · simp only at ended
        split at ended <;> cases ended
  | enumerate pending done stages goal =>
      rw [step, enumerate.eq_def] at ended
      split at ended <;> cases ended
  | answer value =>
      rw [step, deliver.eq_def] at ended
      split at ended
      · exact absurd rfl (busy value world)
      · cases ended
      · cases ended
      · split at ended
        · cases ended
        · split at ended <;> cases ended
          exact ⟨_, rfl⟩

/-- A run ends in this way exactly if this comes of its work. -/
theorem ends_iff_comes {result : Except Fault Value} :
    Ends program state ⟨result, after⟩ ↔
      ∃ calls, Comes program 0 state calls (result.mapError .fault) after := by
  constructor
  · rintro ⟨fuel, ran⟩
    induction fuel generalizing state with
    | zero => simp only [run, reduceCtorEq] at ran
    | succ fuel ih =>
        rw [run] at ran
        rcases state.busy_or with busy | ⟨value, world, rfl⟩
        · cases taken : step program state with
          | ended ending =>
              rw [taken] at ran
              obtain rfl := Option.some.inj ran
              obtain ⟨fault, rfl⟩ := busy.fault_of_ended taken
              exact ⟨[], .faults busy fun base active ↦ step_above_of_step busy taken active⟩
          | running next =>
              rw [taken] at ran
              obtain ⟨calls, comes⟩ := ih ran
              exact ⟨_, .step busy (fun base active ↦ step_above_of_step busy taken active) comes⟩
        · cases Option.some.inj ran
          exact ⟨[], .answers value after⟩
  · rintro ⟨calls, comes⟩
    generalize whole : result.mapError Stop.fault = total at comes
    induction comes with
    | answers value world =>
        cases result with
        | error fault => cases whole
        | ok value =>
            cases whole
            exact .of_step rfl
    | @faults state fault after busy ended =>
        have here := ended [] rfl
        rw [State.above_nil] at here
        cases result with
        | error fault =>
            cases whole
            exact .of_step here
        | ok value => cases whole
    | unfinished => cases result <;> cases whole
    | @step state next _ _ _ busy taken _ ih =>
        have here := taken [] rfl
        rw [State.above_nil, State.above_nil] at here
        exact (Reaches.single here).ends_iff.mpr (ih whole)

/-! ## Splitting work at an answer -/

/-- What comes of a state with more waiting comes of the state without, and of its answer. -/
theorem Comes.split (comes : Comes program depth (state.above top) calls result after) :
    (∃ stop, result = .error stop ∧
      Comes program (callDepth top + depth) state calls (.error stop) after) ∨
    ∃ first second value middle, calls = first ++ second ∧
      Comes program (callDepth top + depth) state first (.ok value) middle ∧
      Comes program depth ⟨.answer value, top, middle⟩ second result after := by
  obtain ⟨base, active⟩ := exists_callDepth depth
  have active' : callDepth (top ++ base) = callDepth top + depth := by
    rw [callDepth_append, active]
  generalize whole : state.above top = total at comes
  induction comes generalizing state with
  | answers value world =>
      obtain ⟨control, waiting, world'⟩ := state
      simp only [State.above, State.mk.injEq, List.append_eq_nil_iff] at whole
      obtain ⟨rfl, ⟨rfl, rfl⟩, rfl⟩ := whole
      exact .inr ⟨[], [], value, world', rfl, .answers value world', .answers value world'⟩
  | unfinished total =>
      subst whole
      exact .inl ⟨.unfinished, rfl, .unfinished state⟩
  | @faults total fault after busy ended =>
      subst whole
      rcases state.busy_or with busy' | ⟨value, world, rfl⟩
      · obtain ⟨outcome, alike⟩ := exists_step_above program busy' (callDepth top + depth)
        have here := alike _ active'
        rw [← State.above_above, ended base active] at here
        cases outcome with
        | running next => cases here
        | ended ending =>
            cases here
            exact .inl ⟨_, rfl, .faults busy' alike⟩
      · exact .inr ⟨[], [], value, world, rfl, .answers value world, .faults busy ended⟩
  | @step total next calls result after busy taken rest ih =>
      subst whole
      rcases state.busy_or with busy' | ⟨value, world, rfl⟩
      · obtain ⟨outcome, alike⟩ := exists_step_above program busy' (callDepth top + depth)
        have here := alike _ active'
        rw [← State.above_above, taken base active] at here
        cases outcome with
        | ended ending => cases here
        | running inner =>
            have same : inner.above top = next := by
              have running := Step.running.inj here
              rw [← State.above_above] at running
              exact State.above_injective base running.symm
            rcases ih same with ⟨stop, rfl, inside⟩ | ⟨first, second, value, middle, rfl, one, two⟩
            · exact .inl ⟨stop, rfl, .step busy' alike inside⟩
            · refine .inr ⟨state.starts ++ first, second, value, middle, ?_,
                .step busy' alike one, two⟩
              rw [State.starts_above, List.append_assoc]
      · exact .inr ⟨[], _, value, world, rfl, .answers value world, .step busy taken rest⟩

/-- A step of a state without what waits below is a step with it. -/
theorem step_above_top (outcome : Step)
    (alike : ∀ base, callDepth base = callDepth top + depth →
      step program (state.above base) = outcome.above base) (active : callDepth base = depth) :
    step program ((state.above top).above base) = (outcome.above top).above base := by
  rw [State.above_above, alike (top ++ base) (by rw [callDepth_append, active])]
  cases outcome with
  | running next => exact congrArg Step.running (State.above_above next top base).symm
  | ended ending => rfl

/-- A busy state is busy with more waiting below. -/
theorem State.Busy.above (busy : state.Busy) (top : List Waiting) : (state.above top).Busy := by
  intro value world same
  obtain ⟨control, waiting, world'⟩ := state
  simp only [State.above, State.mk.injEq, List.append_eq_nil_iff] at same
  obtain ⟨rfl, ⟨rfl, _⟩, rfl⟩ := same
  exact busy value world' rfl

/-- What stops a state stops it with more waiting below as well. -/
theorem Comes.above_of_stop
    (comes : Comes program (callDepth top + depth) state calls result after)
    (stopped : result = .error stop) :
    Comes program depth (state.above top) calls result after := by
  induction comes with
  | answers => cases stopped
  | faults busy ended =>
      exact .faults (busy.above top) fun base active ↦ step_above_top (.ended _) ended active
  | unfinished state => exact .unfinished _
  | step busy taken _ ih =>
      exact .step (busy.above top) (fun base active ↦
        step_above_top (.running _) taken active) (ih stopped)

/-- What comes of an answer comes of the state that leads to it. -/
theorem Comes.above_of_answer
    (comes : Comes program (callDepth top + depth) state calls result middle)
    (answered : result = .ok value) {later : Except Stop Value}
    (rest : Comes program depth ⟨.answer value, top, middle⟩ more later after) :
    Comes program depth (state.above top) (calls ++ more) later after := by
  induction comes with
  | answers value world =>
      cases answered
      exact rest
  | faults => cases answered
  | unfinished => cases answered
  | step busy taken _ ih =>
      rw [List.append_assoc]
      exact .step (busy.above top) (fun base active ↦
        step_above_top (.running _) taken active) (ih answered rest)

/-- The work of a state is that of its upper part, and then that of the answer. -/
theorem work_above (control : Control) (waiting top : List Waiting) :
    work program depth control (waiting ++ top)
      = work program (callDepth top + depth) control waiting >>= fun value ↦
          work program depth (.answer value) top := by
  refine Work.eq_of_comes_iff fun world calls result after ↦ ⟨?_, ?_⟩
  · intro comes
    have comes : Comes program depth (State.above top ⟨control, waiting, world⟩) calls result after :=
      comes
    rcases comes.split with
      ⟨stop, rfl, inside⟩ | ⟨first, second, value, middle, rfl, one, two⟩
    · exact .stopped inside
    · exact .joined one two
  · rintro (stopped | ⟨one, two⟩)
    · exact Comes.above_of_stop stopped rfl
    · exact Comes.above_of_answer one rfl two

end GuestScript.Machine
