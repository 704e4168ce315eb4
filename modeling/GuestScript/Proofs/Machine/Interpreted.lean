import GuestScript.Proofs.Machine.Counters
import GuestScript.Proofs.Machine.Runs

/-!
# The interpreter and the machine

The machine has no number of active calls to keep right: it counts the routines that wait. The
interpreter has one, and it is the same number: both do the same, from every state on, which is
`matches_interpret`. So what an interpreter is asked for has the answer that the machine gives.
-/

namespace GuestScript.Meaning

open Bytecode (Op RoutineIndex)
open Counting
open Machine (Control Effect Ending Ends Fault Frame HostFailure Program Reaches State Step Value Waiting
  World callDepth execute maxCallDepth run step)

variable {program : Program} {Result Other : Type} {before : Interpreter}

/-! ## Taking work apart -/

/-- Work and more behind it is as far as the first fault, or both. -/
theorem bind_eq_some {work : Counting Result} {next : Result → Counting Other}
    {report : Report (Except Fault Other)} (done : (work >>= next) before = some report) :
    (∃ fault, report.answer = .error fault ∧
      work before = some ⟨.error fault, report.after, report.notices⟩) ∨
    ∃ result middle notices last, work before = some ⟨.ok result, middle, notices⟩ ∧
      next result middle = some last ∧ report.answer = last.answer ∧ report.after = last.after := by
  change andThen work next before = some report at done
  unfold andThen at done
  split at done
  · exact absurd done nofun
  · next fault after notices worked =>
      obtain rfl := Option.some.inj done
      exact .inl ⟨fault, rfl, worked⟩
  · next result middle notices worked =>
      split at done
      · exact absurd done nofun
      · next answer after later goes =>
          obtain rfl := Option.some.inj done
          exact .inr ⟨result, middle, notices, _, worked, goes, rfl, rfl⟩

/-! ## Counting what waits -/

/-- A control that is neither a routine that runs nor an answer. -/
def isRequest : Control → Bool
  | .call .. | .construct _ | .enumerate .. => true
  | _ => false

/-- The number of calls that are active: those that wait, and the one that is running. -/
def activeCalls (control : Control) (waiting : List Waiting) : Nat :=
  match control with
  | .run _ => callDepth waiting + 1
  | _ => callDepth waiting

theorem activeCalls_of_isRequest {control : Control} (request : isRequest control = true)
    (waiting : List Waiting) : activeCalls control waiting = callDepth waiting := by
  cases control <;> first | rfl | exact absurd request nofun

/-- Something that an instruction may give waits for a request only. -/
def AwaitsRequest (outcome : Except Fault Effect) : Prop :=
  ∀ frame control, outcome = .ok (.await frame control) → isRequest control = true

theorem awaitsRequest_bind {outcome : Except Fault Result} {next : Result → Except Fault Effect}
    (rest : ∀ result, AwaitsRequest (next result)) : AwaitsRequest (outcome >>= next) := by
  cases outcome with
  | ok result => exact rest result
  | error fault => exact fun _ _ same ↦ absurd same nofun

theorem awaitsRequest_goOn (outcome : Except Fault Frame) : AwaitsRequest (Machine.goOn outcome) :=
  awaitsRequest_bind fun _ _ _ same ↦ absurd same nofun

theorem awaitsRequest_await {frame : Frame} {control : Control} (request : isRequest control = true) :
    AwaitsRequest (.ok (.await frame control)) := by
  rintro _ _ same
  cases same
  exact request

theorem awaitsRequest_receive (frame : Frame) (name : String) (world : World) (reply : Machine.Reply) :
    AwaitsRequest (Machine.receive frame name world reply).1 := by
  cases reply with
  | enumerate => exact awaitsRequest_await rfl
  | _ => exact fun _ _ same ↦ absurd same nofun

/-- An instruction waits for a request only. -/
theorem awaitsRequest_execute (world : World) (frame : Frame) (op : Op) :
    AwaitsRequest (execute program world frame op).1 := by
  cases op with
  | push | jump => exact fun _ _ same ↦ by cases same
  | construct => exact awaitsRequest_await rfl
  | storeField =>
      simp only [execute, Machine.storeField]
      split <;> exact fun _ _ same ↦ by cases same
  | makeClosure =>
      simp only [execute, Machine.makeClosure]
      split <;> exact fun _ _ same ↦ by cases same
  | call => exact awaitsRequest_bind fun _ ↦ awaitsRequest_await rfl
  | callClosure =>
      exact awaitsRequest_bind fun _ ↦ awaitsRequest_bind fun _ ↦ awaitsRequest_await rfl
  | callHost =>
      simp only [execute, Machine.callHost]
      split
      · exact fun _ _ same ↦ by cases same
      · split
        · exact fun _ _ same ↦ by cases same
        · exact awaitsRequest_receive _ _ _ _
  | iterStart =>
      refine awaitsRequest_bind fun iterable ↦ ?_
      cases iterable with
      | seq => exact awaitsRequest_await rfl
      | _ => exact fun _ _ same ↦ by cases same
  | ret => exact awaitsRequest_bind fun _ _ _ same ↦ by cases same
  | _ => exact awaitsRequest_goOn _

/-! ## What the interpreter does, the machine does -/

theorem inWorld_eq_some {action : World → Except Fault Result × World}
    {report : Report (Except Fault Result)} (done : inWorld action before = some report) :
    action before.world = (report.answer, report.after.world) ∧
      report.after.active = before.active := by
  obtain rfl := Option.some.inj done
  exact ⟨rfl, rfl⟩

theorem inWorld_bind (action : World → Except Fault Result × World)
    (next : Result → Counting Other) :
    (inWorld action >>= next) before =
      match action before.world with
      | (.error fault, world) => some ⟨.error fault, ⟨before.active, world⟩, []⟩
      | (.ok result, world) => next result ⟨before.active, world⟩ := by
  simp only [Bind.bind, andThen, inWorld]
  rcases action before.world with ⟨_ | result, world⟩
  · rfl
  · dsimp only
    cases next result ⟨before.active, world⟩ <;> rfl

/-- The machine does what has been done: it comes to the answer with this waiting for it, or ends with
the fault. -/
def Matches (program : Program) (state : State) (waiting : List Waiting)
    (report : Report (Except Fault Value)) : Prop :=
  match report.answer with
  | .ok value => Reaches program state ⟨.answer value, waiting, report.after.world⟩
  | .error fault => Ends program state ⟨.error fault, report.after.world⟩

section Matches

variable {state next : State} {waiting : List Waiting} {report last : Report (Except Fault Value)}

theorem Matches.behind (done : Matches program next waiting report)
    (reached : Reaches program state next) : Matches program state waiting report := by
  unfold Matches at done ⊢
  cases answer : report.answer with
  | ok value =>
      rw [answer] at done
      exact reached.trans done
  | error fault =>
      rw [answer] at done
      exact reached.ends_iff.mpr done

theorem Matches.of_eq (done : Matches program state waiting last)
    (answer : report.answer = last.answer) (after : report.after.world = last.after.world) :
    Matches program state waiting report := by
  unfold Matches at done ⊢
  rwa [answer, after]

/-- Something waits for the answer of some work, and goes on with it. -/
theorem matches_bind {fuel : Nat} {control : Control} {waits : Waiting} {base : List Waiting}
    {rest : Value → Counting Value}
    (reached : Reaches program state ⟨control, waits :: base, before.world⟩)
    (inner : ∀ {report}, interpret program fuel control before = some report →
      Matches program ⟨control, waits :: base, before.world⟩ (waits :: base) report)
    (goes : ∀ {value} {middle : Interpreter} {last}, middle.active = before.active →
      rest value middle = some last →
      Matches program ⟨.answer value, waits :: base, middle.world⟩ base last)
    (done : (interpret program fuel control >>= rest) before = some report) :
    Matches program state base report := by
  obtain ⟨fault, failed, worked⟩ | ⟨value, middle, _, last, worked, later, answer, after⟩ :=
    bind_eq_some done
  · unfold Matches
    rw [failed]
    exact reached.ends_iff.mpr (inner worked)
  · have restored := (balances_interpret program fuel control _ _ worked).restored
    exact (((goes restored later).behind (inner worked)).behind reached).of_eq answer
      (congrArg Interpreter.world after)

end Matches

theorem step_run {frame : Frame} {op : Op}
    (found : frame.routine.code[frame.position]? = some op) (waiting : List Waiting) (world : World) :
    step program ⟨.run frame, waiting, world⟩ =
      Machine.proceed waiting (execute program world (frame.goTo (frame.position + 1)) op) := by
  simp only [step, Machine.runFrame, found]

/-- What an interpreter does while so many calls are active, the machine does while so many routines
wait. -/
theorem matches_interpret (program : Program) : (fuel : Nat) → (control : Control) →
    {before : Interpreter} → {report : Report (Except Fault Value)} → (base : List Waiting) →
    before.active = activeCalls control base → interpret program fuel control before = some report →
    Matches program ⟨control, base, before.world⟩ base report
  | 0, _, _, _, _, _, done => by cases done
  | fuel + 1, .run frame, before, report, base, active, done => by
      rw [interpret] at done
      cases found : frame.routine.code[frame.position]? with
      | none =>
          rw [found] at done
          obtain rfl := Option.some.inj done
          exact .single (by simp only [step, Machine.runFrame, found])
      | some op =>
          simp only [found] at done
          have taken : step program _ = _ := step_run found base before.world
          obtain ⟨fault, failed, worked⟩ | ⟨effect, middle, _, last, worked, goes, answer, after⟩ :=
            bind_eq_some done
          · obtain ⟨ran, -⟩ := inWorld_eq_some worked
            rw [ran] at taken
            unfold Matches
            rw [failed]
            exact .of_step taken
          obtain ⟨ran, kept⟩ := inWorld_eq_some worked
          rw [ran] at taken
          refine Matches.of_eq ?_ answer (congrArg Interpreter.world after)
          cases effect with
          | next frame =>
              have active' : middle.active = activeCalls (.run frame) base := kept.trans active
              exact (matches_interpret program fuel _ base active' goes).behind (.single taken)
          | leave value =>
              obtain rfl := Option.some.inj goes
              exact .single taken
          | await frame control =>
              have request := awaitsRequest_execute before.world _ op frame control
                (congrArg Prod.fst ran)
              have waits : before.active = callDepth (.routine frame :: base) := active
              have active' : middle.active = activeCalls control (.routine frame :: base) :=
                (kept.trans waits).trans (activeCalls_of_isRequest request _).symm
              refine matches_bind (.single taken) (matches_interpret program fuel control _ active')
                (fun {value later _} restored goes ↦ ?_) goes
              have active'' : later.active = activeCalls (.run (frame.push value)) base :=
                (restored.trans kept).trans active
              exact (matches_interpret program fuel _ base active'' goes).behind (.single rfl)
  | fuel + 1, .call index arguments, before, report, base, active, done => by
      rw [interpret, ask_bind, Option.map_eq_some_iff] at done
      obtain ⟨inner, done, rfl⟩ := done
      suffices same : Matches program ⟨.call index arguments, base, before.world⟩ base inner from
        same.of_eq rfl rfl
      cases found : program.image.routines[index]? with
      | none =>
          rw [found] at done
          obtain rfl := Option.some.inj done
          exact .of_step (by simp only [step, Machine.startCall, found])
      | some routine =>
          simp only [found] at done
          split at done
          · next differs =>
              obtain rfl := Option.some.inj done
              exact .of_step (by simp only [step, Machine.startCall, found, if_pos differs])
          next same =>
          rw [active_bind] at done
          have active : before.active = callDepth base := active
          split at done
          · next many =>
              obtain rfl := Option.some.inj done
              rw [active] at many
              exact .of_step (by
                simp only [step, Machine.startCall, found, if_neg same, if_pos many])
          · next few =>
              have taken : step program ⟨.call index arguments, base, before.world⟩ =
                  .running ⟨.run (.enter routine arguments), base, before.world⟩ := by
                rw [active] at few
                simp only [step, Machine.startCall, found, if_neg same, if_neg few]
              rw [asCall_eq, Option.map_eq_some_iff] at done
              obtain ⟨body, worked, rfl⟩ := done
              have active' : before.active + 1 =
                  activeCalls (.run (.enter routine arguments)) base := congrArg (· + 1) active
              have ran := matches_interpret program fuel _ base active' worked
              exact Matches.behind (Matches.of_eq ran rfl rfl) (.single taken)
  | fuel + 1, .construct type, before, report, base, active, done => by
      rw [interpret] at done
      cases found : program.image.types[type]? with
      | none =>
          rw [found] at done
          obtain rfl := Option.some.inj done
          exact .of_step (by simp only [step, Machine.startConstruction, found])
      | some definition =>
          simp only [found] at done
          obtain ⟨fault, -, worked⟩ | ⟨reference, middle, _, last, worked, goes, answer, after⟩ :=
            bind_eq_some done
          · cases (Prod.mk.inj (inWorld_eq_some worked).1).1
          obtain ⟨made, kept⟩ := inWorld_eq_some worked
          rcases allocated : before.world.allocate type definition.fullName
            (definition.fields.map fun _ ↦ (.unit : Value)) with ⟨object, world⟩
          simp only [allocated, Prod.mk.injEq, Except.ok.injEq] at made
          obtain ⟨rfl, same⟩ := made
          refine Matches.of_eq ?_ answer (congrArg Interpreter.world after)
          cases given : definition.initializer with
          | none =>
              rw [given] at goes
              obtain rfl := Option.some.inj goes
              exact .single (by
                simp only [step, Machine.startConstruction, found, given, allocated, same])
          | some initializer =>
              simp only [given] at goes
              have taken : step program ⟨.construct type, base, before.world⟩ =
                  .running ⟨.call initializer [.object object],
                    .object (.object object) :: base, middle.world⟩ := by
                simp only [step, Machine.startConstruction, found, given, allocated, same]
              have active' : middle.active = activeCalls (.call initializer [.object object])
                  (.object (.object object) :: base) := kept.trans active
              refine matches_bind (.single taken) (matches_interpret program fuel _ _ active')
                (fun _ goes ↦ ?_) goes
              obtain rfl := Option.some.inj goes
              exact .single rfl
  | fuel + 1, .enumerate pending done stages goal, before, report, base, active, ran => by
      rw [interpret.eq_def] at ran
      dsimp only at ran
      split at ran
      · obtain rfl := Option.some.inj ran
        exact .single rfl
      · next stage later =>
          have active' : before.active = activeCalls (.enumerate done.reverse [] later goal) base :=
            active
          exact (matches_interpret program fuel _ base active' ran).behind (.single rfl)
      · next stage later element pending =>
          have active' : before.active = activeCalls (Machine.callClosure stage.closure [element])
              (.element stage element pending done later goal :: base) := active
          refine matches_bind (.single rfl) (matches_interpret program fuel _ _ active')
            (fun {value middle last} kept goes ↦ ?_) ran
          cases stage with
          | map mapper =>
              have active'' : middle.active = activeCalls
                  (.enumerate pending (value :: done) (.map mapper :: later) goal) base :=
                kept.trans active
              exact (matches_interpret program fuel _ base active'' goes).behind (.single rfl)
          | filter predicate =>
              cases converted : value.toBool with
              | error mismatch =>
                  rw [converted] at goes
                  obtain rfl := Option.some.inj goes
                  exact .of_step (by simp only [step, Machine.deliver, converted])
              | ok keeps =>
                  simp only [converted, Machine.orMismatch, settled_bind] at goes
                  have active'' : middle.active = activeCalls (.enumerate pending
                      (if keeps then element :: done else done) (.filter predicate :: later) goal)
                      base := kept.trans active
                  refine (matches_interpret program fuel _ base active'' goes).behind (.single ?_)
                  simp only [step, Machine.deliver, converted]
                  cases keeps <;> rfl
  | fuel + 1, .answer value, before, report, base, active, done => by
      obtain rfl := Option.some.inj done
      exact .refl _

/-! ## What the machine does, the interpreter does -/

/-- Work has the same report with this fuel and with more. If it has a result, the machine ends from
there on within as many steps. -/
def Replies (program : Program) (count : Nat) (work : Nat → Option (Report (Except Fault Value)))
    (waiting : List Waiting) (ending : Ending) : Prop :=
  ∃ report, (∀ fuel, count ≤ fuel → work fuel = some report) ∧
    ∀ value, report.answer = .ok value →
      ∃ less, less ≤ count ∧
        run program less ⟨.answer value, waiting, report.after.world⟩ = some ending

section Replies

variable {count less : Nat} {work inner : Nat → Option (Report (Except Fault Value))}
  {base : List Waiting} {ending : Ending}

theorem Replies.succ (done : Replies program count inner base ending)
    (same : ∀ fuel, work (fuel + 1) = inner fuel) : Replies program (count + 1) work base ending := by
  obtain ⟨report, worked, rest⟩ := done
  refine ⟨report, fun fuel enough ↦ ?_, fun value answer ↦ ?_⟩
  · obtain ⟨more, rfl⟩ := Nat.exists_eq_add_of_le' enough
    exact (same (more + count)).trans (worked _ (Nat.le_add_left count more))
  · obtain ⟨less, few, ran⟩ := rest value answer
    exact ⟨less, Nat.le_succ_of_le few, ran⟩

theorem Replies.mono (done : Replies program less work base ending) (few : less ≤ count) :
    Replies program count work base ending := by
  obtain ⟨report, worked, rest⟩ := done
  refine ⟨report, fun fuel enough ↦ worked fuel (Nat.le_trans few enough), fun value answer ↦ ?_⟩
  obtain ⟨fewer, bound, ran⟩ := rest value answer
  exact ⟨fewer, Nat.le_trans bound few, ran⟩

theorem answers_fault {fault : Fault} {after : Interpreter} {notices : List Notice}
    (same : ∀ fuel, work fuel = some ⟨.error fault, after, notices⟩) :
    Replies program count work base ending :=
  ⟨_, fun fuel _ ↦ same fuel, nofun⟩

theorem answers_value {value : Value} {after : Interpreter} {notices : List Notice}
    (same : ∀ fuel, work fuel = some ⟨.ok value, after, notices⟩)
    (ran : run program count ⟨.answer value, base, after.world⟩ = some ending) :
    Replies program count work base ending := by
  refine ⟨_, fun fuel _ ↦ same fuel, fun value' answer ↦ ⟨count, Nat.le_refl _, ?_⟩⟩
  obtain rfl := Except.ok.inj answer
  exact ran

/-- What is put on record makes no difference. -/
theorem Replies.map (done : Replies program count work base ending)
    (change : Report (Except Fault Value) → Report (Except Fault Value))
    (answer : ∀ report, (change report).answer = report.answer)
    (world : ∀ report, (change report).after.world = report.after.world) :
    Replies program count (fun fuel ↦ (work fuel).map change) base ending := by
  obtain ⟨report, worked, rest⟩ := done
  refine ⟨change report, fun fuel enough ↦ congrArg (Option.map change) (worked fuel enough), ?_⟩
  rw [answer, world]
  exact rest

/-- Work and what goes on with its result, which something waited for. -/
theorem Replies.bind {control : Control} {waits : Waiting} {rest : Nat → Value → Counting Value}
    (done : Replies program count (fun fuel ↦ interpret program fuel control before)
      (waits :: base) ending)
    (goes : ∀ value (middle : Interpreter) less, middle.active = before.active → less ≤ count →
      run program less ⟨.answer value, waits :: base, middle.world⟩ = some ending →
      Replies program count (fun fuel ↦ rest fuel value middle) base ending) :
    Replies program count (fun fuel ↦ (interpret program fuel control >>= rest fuel) before) base
      ending := by
  obtain ⟨⟨answer, middle, notices⟩, worked, further⟩ := done
  cases answer with
  | error fault =>
      refine ⟨⟨.error fault, middle, notices⟩, fun fuel enough ↦ ?_, nofun⟩
      simp only [Bind.bind, andThen, worked fuel enough]
  | ok value =>
      obtain ⟨less, few, ran⟩ := further value rfl
      have restored := (balances_interpret program _ _ _ _ (worked count (Nat.le_refl _))).restored
      obtain ⟨last, goes, behind⟩ := goes value middle less restored few ran
      refine ⟨⟨last.answer, last.after, notices ++ last.notices⟩, fun fuel enough ↦ ?_, behind⟩
      simp only [Bind.bind, andThen, worked fuel enough, goes fuel enough]

theorem run_of_running {state next : State} (taken : step program state = .running next)
    (ran : run program (count + 1) state = some ending) : run program count next = some ending := by
  rwa [run, taken] at ran

/-- What the machine does in so many steps, an interpreter does. -/
def Mirrors (program : Program) (count : Nat) (ending : Ending) : Prop :=
  ∀ (control : Control) {before : Interpreter} (base : List Waiting),
    before.active = activeCalls control base →
    run program count ⟨control, base, before.world⟩ = some ending →
    Replies program count (fun fuel ↦ interpret program fuel control before) base ending

/-- The machine takes a step, and an interpreter does the rest. -/
theorem answers_step (mirrors : ∀ less, less ≤ count → Mirrors program less ending) {state : State}
    {control : Control} {few : Nat} (enough : few ≤ count)
    (active : before.active = activeCalls control base)
    (taken : step program state = .running ⟨control, base, before.world⟩)
    (ran : run program (few + 1) state = some ending) :
    Replies program count (fun fuel ↦ interpret program fuel control before) base ending :=
  (mirrors few enough control base active (run_of_running taken ran)).mono enough

/-- What waits for an answer gets it, and an interpreter does the rest. -/
theorem answers_deliver (mirrors : ∀ less, less ≤ count → Mirrors program less ending)
    {state : State} {control : Control} {few : Nat} (enough : few ≤ count)
    (active : before.active = activeCalls control base)
    (taken : step program state = .running ⟨control, base, before.world⟩)
    (ran : run program few state = some ending) :
    Replies program count (fun fuel ↦ interpret program fuel control before) base ending := by
  cases few with
  | zero => exact absurd ran nofun
  | succ few => exact answers_step mirrors (Nat.le_of_succ_le enough) active taken ran

theorem answers_run (mirrors : ∀ less, less ≤ count → Mirrors program less ending) {frame : Frame}
    (active : before.active = activeCalls (.run frame) base)
    (ran : run program (count + 1) ⟨.run frame, base, before.world⟩ = some ending) :
    Replies program (count + 1) (fun fuel ↦ interpret program fuel (.run frame) before) base
      ending := by
  cases found : frame.routine.code[frame.position]? with
  | none =>
      have taken : step program ⟨.run frame, base, before.world⟩ =
          .running ⟨.answer .unit, base, before.world⟩ := by
        simp only [step, Machine.runFrame, found]
      have left : Replies program count (fun _ ↦ some ⟨.ok .unit, before, []⟩) base ending :=
        answers_value (fun _ ↦ rfl) (run_of_running taken ran)
      refine left.succ fun fuel ↦ ?_
      rw [interpret, found]
      rfl
  | some op =>
      have taken : step program _ = _ := step_run found base before.world
      rcases executed : execute program before.world (frame.goTo (frame.position + 1)) op with
        ⟨_ | effect, world⟩
      · next fault =>
          have failed : Replies program count
              (fun _ ↦ some ⟨.error fault, ⟨before.active, world⟩, []⟩) base ending :=
            answers_fault fun _ ↦ rfl
          refine failed.succ fun fuel ↦ ?_
          simp only [interpret, found, inWorld_bind, executed]
      let after : Interpreter := ⟨before.active, world⟩
      have taken := taken.trans (congrArg (Machine.proceed base) executed)
      cases effect with
      | next next =>
          have goes : Replies program count (fun fuel ↦ interpret program fuel (.run next) after)
            base ending := answers_step mirrors (Nat.le_refl _) active taken ran
          refine goes.succ fun fuel ↦ ?_
          simp only [interpret, found, inWorld_bind, executed]
          rfl
      | leave value =>
          have left : Replies program count (fun _ ↦ some ⟨.ok value, after, []⟩) base ending :=
            answers_value (fun _ ↦ rfl) (run_of_running taken ran)
          refine left.succ fun fuel ↦ ?_
          simp only [interpret, found, inWorld_bind, executed]
          rfl
      | await caller control =>
          have request := awaitsRequest_execute before.world _ op caller control
            (congrArg Prod.fst executed)
          have waits : before.active = callDepth (.routine caller :: base) := active
          have active' : before.active = activeCalls control (.routine caller :: base) :=
            waits.trans (activeCalls_of_isRequest request _).symm
          have inner : Replies program count (fun fuel ↦ interpret program fuel control after)
            (.routine caller :: base) ending :=
            answers_step mirrors (Nat.le_refl _) active' taken ran
          have goes := inner.bind fun value middle less kept few ran ↦ by
            have active' : middle.active = activeCalls (.run (caller.push value)) base :=
              kept.trans active
            exact answers_deliver mirrors few active' rfl ran
          refine goes.succ fun fuel ↦ ?_
          simp only [interpret, found, inWorld_bind, executed]
          rfl

theorem answers_call (mirrors : ∀ less, less ≤ count → Mirrors program less ending)
    {index : RoutineIndex} {arguments : List Value}
    (active : before.active = activeCalls (.call index arguments) base)
    (ran : run program (count + 1) ⟨.call index arguments, base, before.world⟩ = some ending) :
    Replies program (count + 1) (fun fuel ↦ interpret program fuel (.call index arguments) before)
      base ending := by
  have waiting : before.active = callDepth base := active
  let noted (report : Report (Except Fault Value)) : Report (Except Fault Value) :=
    { report with notices := .asked index arguments before.active :: report.notices }
  suffices body : ∃ inner, (∀ fuel, interpret program (fuel + 1) (.call index arguments) before =
      (inner fuel).map noted) ∧ Replies program count inner base ending by
    obtain ⟨inner, same, done⟩ := body
    exact (done.map noted (fun _ ↦ rfl) fun _ ↦ rfl).succ same
  refine ⟨_, fun fuel ↦ by rw [interpret, ask_bind], ?_⟩
  cases found : program.image.routines[index]? with
  | none => exact answers_fault fun _ ↦ rfl
  | some routine =>
      by_cases differs : arguments.length ≠ routine.arity
      · simp only [if_pos differs]
        exact answers_fault fun _ ↦ rfl
      simp only [if_neg differs, active_bind]
      by_cases many : maxCallDepth ≤ before.active
      · simp only [if_pos many]
        exact answers_fault fun _ ↦ rfl
      simp only [if_neg many, asCall_eq]
      have taken : step program ⟨.call index arguments, base, before.world⟩ =
          .running ⟨.run (.enter routine arguments), base, before.world⟩ := by
        rw [waiting] at many
        simp only [step, Machine.startCall, found, if_neg differs, if_neg many]
      let inside : Interpreter := ⟨before.active + 1, before.world⟩
      have active' : inside.active = activeCalls (.run (.enter routine arguments)) base :=
        congrArg (· + 1) waiting
      have body : Replies program count
          (fun fuel ↦ interpret program fuel (.run (.enter routine arguments)) inside) base ending :=
        answers_step mirrors (Nat.le_refl _) active' taken ran
      exact body.map _ (fun _ ↦ rfl) fun _ ↦ rfl

theorem answers_object {value object : Value} {few : Nat} (enough : few ≤ count)
    (ran : run program few ⟨.answer value, .object object :: base, before.world⟩ = some ending) :
    Replies program count (fun _ ↦ (pure object : Counting Value) before) base ending := by
  cases few with
  | zero => exact absurd ran nofun
  | succ few =>
      have left : Replies program few (fun _ ↦ (pure object : Counting Value) before) base ending :=
        answers_value (fun _ ↦ rfl) (run_of_running rfl ran)
      exact left.mono (Nat.le_of_succ_le enough)

theorem answers_construct (mirrors : ∀ less, less ≤ count → Mirrors program less ending)
    {type : Bytecode.TypeIndex} (active : before.active = activeCalls (.construct type) base)
    (ran : run program (count + 1) ⟨.construct type, base, before.world⟩ = some ending) :
    Replies program (count + 1) (fun fuel ↦ interpret program fuel (.construct type) before) base
      ending := by
  cases found : program.image.types[type]? with
  | none =>
      have failed : Replies program count
          (fun _ ↦ some ⟨.error (.missingType type), before, []⟩) base ending :=
        answers_fault fun _ ↦ rfl
      refine failed.succ fun fuel ↦ ?_
      rw [interpret, found]
      rfl
  | some definition =>
      rcases allocated : before.world.allocate type definition.fullName
        (definition.fields.map fun _ ↦ (.unit : Value)) with ⟨object, world⟩
      let after : Interpreter := ⟨before.active, world⟩
      cases given : definition.initializer with
      | none =>
          have taken : step program ⟨.construct type, base, before.world⟩ =
              .running ⟨.answer (.object object), base, world⟩ := by
            simp only [step, Machine.startConstruction, found, given, allocated]
          have left : Replies program count (fun _ ↦ some ⟨.ok (.object object), after, []⟩) base
              ending :=
            answers_value (fun _ ↦ rfl) (run_of_running taken ran)
          refine left.succ fun fuel ↦ ?_
          simp only [interpret, found, inWorld_bind, allocated, given]
          rfl
      | some initializer =>
          have taken : step program ⟨.construct type, base, before.world⟩ =
              .running ⟨.call initializer [.object object], .object (.object object) :: base,
                world⟩ := by
            simp only [step, Machine.startConstruction, found, given, allocated]
          have called : Replies program count (fun fuel ↦
              interpret program fuel (.call initializer [.object object]) after)
              (.object (.object object) :: base) ending :=
            answers_step mirrors (Nat.le_refl _) active taken ran
          have goes := called.bind fun value middle less kept few ran ↦ answers_object few ran
          refine goes.succ fun fuel ↦ ?_
          simp only [interpret, found, inWorld_bind, allocated, given]
          rfl

theorem answers_enumerate (mirrors : ∀ less, less ≤ count → Mirrors program less ending)
    {pending done : List Value} {stages : List Machine.Stage} {goal : Machine.Goal}
    (active : before.active = activeCalls (.enumerate pending done stages goal) base)
    (ran : run program (count + 1) ⟨.enumerate pending done stages goal, base, before.world⟩ =
      some ending) :
    Replies program (count + 1)
      (fun fuel ↦ interpret program fuel (.enumerate pending done stages goal) before) base
      ending := by
  match stages, pending with
  | [], pending =>
      have given : Replies program count (fun _ ↦ some ⟨.ok (goal.deliver pending), before, []⟩)
        base ending := answers_value (fun _ ↦ rfl) (run_of_running rfl ran)
      exact given.succ fun fuel ↦ rfl
  | _ :: later, [] =>
      have goes : Replies program count
          (fun fuel ↦ interpret program fuel (.enumerate done.reverse [] later goal) before) base
          ending := answers_step mirrors (Nat.le_refl _) active rfl ran
      exact goes.succ fun fuel ↦ rfl
  | stage :: later, element :: pending =>
      have active' : before.active = activeCalls (Machine.callClosure stage.closure [element])
          (.element stage element pending done later goal :: base) := active
      have called := answers_step mirrors (Nat.le_refl _) active' rfl ran
      cases stage with
      | map mapper =>
        refine (called.bind fun value middle less kept few ran ↦ ?_).succ fun fuel ↦ rfl
        exact answers_deliver mirrors few (kept.trans active) rfl ran
      | filter predicate =>
        refine (called.bind fun value middle less kept few ran ↦ ?_).succ fun fuel ↦ rfl
        cases converted : value.toBool with
        | error mismatch => exact answers_fault fun _ ↦ rfl
        | ok keeps =>
            simp only [Machine.orMismatch, settled_bind]
            refine answers_deliver mirrors few (kept.trans active) ?_ ran
            simp only [step, Machine.deliver, converted]
            cases keeps <;> rfl

/-- What the machine does while so many routines wait, an interpreter does while so many calls are
active. -/
theorem mirrors_all (program : Program) (ending : Ending) (count : Nat) :
    Mirrors program count ending := by
  induction count using Nat.strongRecOn with
  | ind count ih =>
      intro control before base active ran
      cases count with
      | zero => exact absurd ran nofun
      | succ count =>
          have mirrors (less : Nat) (few : less ≤ count) : Mirrors program less ending :=
            ih less (Nat.lt_succ_of_le few)
          cases control with
          | answer value =>
              refine ⟨⟨.ok value, before, []⟩, fun fuel enough ↦ ?_, fun value' same ↦ ?_⟩
              · obtain ⟨more, rfl⟩ := Nat.exists_eq_add_of_le' enough
                rfl
              · obtain rfl := Except.ok.inj same
                exact ⟨count + 1, Nat.le_refl _, ran⟩
          | run frame => exact answers_run mirrors active ran
          | call index arguments => exact answers_call mirrors active ran
          | construct type => exact answers_construct mirrors active ran
          | enumerate pending done stages goal => exact answers_enumerate mirrors active ran

end Replies

end GuestScript.Meaning
