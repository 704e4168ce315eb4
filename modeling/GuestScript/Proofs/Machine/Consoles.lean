import GuestScript.Proofs.Machine.RecodedWorld
import GuestScript.Proofs.Machine.Runs

/-!
# Runs do not look at what is written

A run adds to the console and never reads it. So a run on a console that has some text already is the
run on one without it, with this text in front of all that is written: `run_behind`. Whether the
console refuses to write stays as it is.
-/

namespace GuestScript

namespace Machine

variable {text : String} {program : Program}

/-! ## Texts in front -/

/-- A console with this text in front of all that has been written to it. -/
def Console.behind (text : String) (console : Console) : Console :=
  { console with text := text ++ console.text }

/-- A world with this text in front of all that has been written to its console. -/
def WorldOver.behind {Code : Type} (text : String) (world : WorldOver Code) : WorldOver Code :=
  { world with console := world.console.behind text }

/-- A reply with this text in front of all that has been written to the console. -/
def ReplyOver.behind {Code : Type} (text : String) : ReplyOver Code → ReplyOver Code
  | .value answer world => .value answer (world.behind text)
  | other => other

/-- A state with this text in front of all that has been written to the console. -/
def State.behind (text : String) (state : State) : State :=
  { state with world := state.world.behind text }

/-- An ending with this text in front of all that has been written to the console. -/
def Ending.behind (text : String) (ending : Ending) : Ending :=
  { ending with world := ending.world.behind text }

/-- A step with this text in front of all that has been written to the console. -/
def Step.behind (text : String) : Step → Step
  | .running state => .running (state.behind text)
  | .ended ending => .ended (ending.behind text)

/-! ## Consoles -/

theorem Console.write_behind (console : Console) (written : String) :
    (console.behind text).write written = (console.write written).map (Console.behind text) := by
  simp only [write, behind]
  split
  · rfl
  · split
    · rfl
    · simp only [Except.map, behind, String.append_assoc]

theorem Console.writeLine_behind (console : Console) (line : String) :
    (console.behind text).writeLine line = (console.writeLine line).map (Console.behind text) := by
  simp only [writeLine, write_behind]
  cases console.write line with
  | error reason => rfl
  | ok console => exact console.write_behind "\n"

theorem Console.failure_write {console after : Console} {written : String}
    (accepted : console.write written = .ok after) : after.failure = console.failure := by
  simp only [write] at accepted
  split at accepted
  · obtain rfl := Except.ok.inj accepted
    rfl
  · split at accepted
    · exact absurd accepted nofun
    · obtain rfl := Except.ok.inj accepted
      rfl

theorem Console.failure_writeLine {console after : Console} {line : String}
    (accepted : console.writeLine line = .ok after) : after.failure = console.failure := by
  simp only [writeLine] at accepted
  split at accepted
  · next written => exact (failure_write accepted).trans (failure_write written)
  · exact absurd accepted nofun

/-! ## Host functions -/

theorem ReplyOver.behind_withArgument {Target : Type} (index : Nat)
    (converted : Except Mismatch Target) (next : Target → Reply) :
    (withArgument index converted next).behind text
      = withArgument index converted fun target ↦ (next target).behind text := by
  cases converted <;> rfl

/-- A host function answers if its argument is of the right kind. -/
theorem ReplyOver.value_of_withArgument {Target : Type} {index : Nat}
    {converted : Except Mismatch Target} {next : Target → Reply} {answer : Value} {after : World}
    (replied : withArgument index converted next = .value answer after) :
    ∃ target, converted = .ok target ∧ next target = .value answer after := by
  cases converted with
  | error mismatch => exact absurd replied nofun
  | ok target => exact ⟨target, rfl, replied⟩

/-- A host function that writes answers if writing succeeded. -/
theorem ReplyOver.value_of_written {world after : World} {outcome : Except String Console}
    {answer : Value} (replied : written world outcome = .value answer after) :
    ∃ console, outcome = .ok console ∧ after = { world with console } := by
  cases outcome with
  | error reason => exact absurd replied nofun
  | ok console => exact ⟨console, rfl, (ReplyOver.value.inj replied).2.symm⟩

theorem ReplyOver.written_behind (world : World) (outcome : Except String Console) :
    written (world.behind text) (outcome.map (Console.behind text))
      = (written world outcome).behind text := by
  cases outcome <;> rfl

theorem ReplyOver.extend_behind (world : World) (source : List Value) (stages : List Stage)
    (stage : Stage) :
    extend (world.behind text) source stages stage
      = (extend world source stages stage).behind text := by
  simp only [extend]
  cases appendStage? stages stage maxStages <;> rfl

end Machine

open Machine

/-- What a host function does is the same whatever has been written. -/
theorem HostAction.reply_behind {text : String} (action : HostAction) (arguments : List Value)
    (world : World) :
    action.reply arguments (world.behind text) = (action.reply arguments world).behind text := by
  by_cases count : arguments.length = action.arity
  · cases action with
    | seqFilter | seqMap =>
        obtain ⟨sequence, closure, rfl⟩ := List.length_eq_two.mp count
        simp only [reply, extend, ReplyOver.behind_withArgument, ReplyOver.extend_behind]
    | print =>
        obtain ⟨value, rfl⟩ := List.length_eq_one_iff.mp count
        exact (congrArg _ (Console.write_behind _ _)).trans (ReplyOver.written_behind _ _)
    | printLine =>
        obtain ⟨value, rfl⟩ := List.length_eq_one_iff.mp count
        exact (congrArg _ (Console.writeLine_behind _ _)).trans (ReplyOver.written_behind _ _)
    | _ =>
        obtain ⟨value, rfl⟩ := List.length_eq_one_iff.mp count
        simp only [reply, ReplyOver.behind_withArgument]
        rfl
  · rw [reply_of_length_ne count, reply_of_length_ne count]
    rfl

/-- A host function leaves it to the console whether it refuses to write. -/
theorem HostAction.failure_reply {action : HostAction} {arguments : List Value}
    {world after : World} {answer : Value}
    (replied : action.reply arguments world = .value answer after) :
    after.console.failure = world.console.failure := by
  by_cases count : arguments.length = action.arity
  · cases action with
    | seqFilter | seqMap =>
        obtain ⟨sequence, closure, rfl⟩ := List.length_eq_two.mp count
        obtain ⟨_, -, replied⟩ := ReplyOver.value_of_withArgument replied
        obtain ⟨_, -, replied⟩ := ReplyOver.value_of_withArgument replied
        simp only [ReplyOver.extend] at replied
        split at replied
        · obtain ⟨-, rfl⟩ := ReplyOver.value.inj replied
          rfl
        · cases replied
    | print =>
        obtain ⟨value, rfl⟩ := List.length_eq_one_iff.mp count
        obtain ⟨_, accepted, rfl⟩ := ReplyOver.value_of_written replied
        exact Console.failure_write accepted
    | printLine =>
        obtain ⟨value, rfl⟩ := List.length_eq_one_iff.mp count
        obtain ⟨_, accepted, rfl⟩ := ReplyOver.value_of_written replied
        exact Console.failure_writeLine accepted
    | _ =>
        obtain ⟨value, rfl⟩ := List.length_eq_one_iff.mp count
        obtain ⟨_, -, replied⟩ := ReplyOver.value_of_withArgument replied
        first
          | (obtain ⟨-, rfl⟩ := ReplyOver.value.inj replied; rfl)
          | cases replied
  · rw [reply_of_length_ne count] at replied
    cases replied

namespace Machine

variable {text : String} {program : Program}

/-! ## Steps -/

theorem WorldOver.writeField_behind (world : World) (target : Value) (field : Nat) (value : Value) :
    (world.behind text).writeField target field value
      = (world.writeField target field value).map (WorldOver.behind text) := by
  simp only [writeField]
  cases target.toReference with
  | error mismatch => rfl
  | ok reference =>
      simp only [orMismatch, bind, Except.bind]
      change (if field < (world.fields reference).length then _ else _) = _
      split <;> rfl

theorem assignField_behind (world : World) (frame : Frame) (field : Nat) :
    assignField (world.behind text) frame field
      = (assignField world frame field).map fun (frame, world) ↦ (frame, world.behind text) := by
  simp only [assignField, WorldOver.writeField_behind]
  obtain ⟨value, stack⟩ := frame.stack.pop
  cases value with
  | error fault => rfl
  | ok value =>
      obtain ⟨target, stack⟩ := stack.pop
      cases target with
      | error fault => rfl
      | ok target =>
          simp only [bind, Except.bind]
          cases world.writeField target field value <;> rfl

theorem receive_behind (frame : Frame) (name : String) (world : World) (reply : Reply) :
    receive frame name (world.behind text) (reply.behind text)
      = (receive frame name world reply).map id (WorldOver.behind text) := by
  cases reply <;> rfl

theorem execute_behind (world : World) (frame : Frame) (op : Bytecode.Op) :
    execute program (world.behind text) frame op
      = (execute program world frame op).map id (WorldOver.behind text) := by
  cases op with
  | storeField field =>
      simp only [execute, storeField, assignField_behind]
      cases assignField world frame field <;> rfl
  | makeClosure routine captures =>
      simp only [execute, makeClosure]
      split <;> rfl
  | callHost imported count =>
      simp only [execute, callHost]
      split
      · rfl
      · split
        · rfl
        · rw [HostAction.reply_behind, receive_behind]
  | _ => rfl

theorem proceed_behind (waiting : List Waiting) (outcome : Except Fault Effect × World) :
    proceed waiting (outcome.map id (WorldOver.behind text))
      = (proceed waiting outcome).behind text := by
  obtain ⟨fault | effect, world⟩ := outcome
  · rfl
  · cases effect <;> rfl

/-- A step does not look at what has been written. -/
theorem step_behind (state : State) :
    step program (state.behind text) = (step program state).behind text := by
  obtain ⟨control, waiting, world⟩ := state
  cases control with
  | run frame =>
      change runFrame program frame waiting (world.behind text) = _
      simp only [step, runFrame]
      split
      · rfl
      · rw [execute_behind, proceed_behind]
  | call routine arguments =>
      change startCall program routine arguments waiting (world.behind text) = _
      simp only [step, startCall]
      split
      · rfl
      · split
        · rfl
        · split <;> rfl
  | construct type =>
      change startConstruction program type waiting (world.behind text) = _
      simp only [step, startConstruction]
      cases program.image.types[type]? with
      | none => rfl
      | some definition =>
          simp only
          cases definition.initializer <;> rfl
  | enumerate pending done stages goal => cases stages <;> cases pending <;> rfl
  | answer value =>
      change deliver value waiting (world.behind text) = (deliver value waiting world).behind text
      cases waiting with
      | nil => rfl
      | cons first rest =>
          cases first with
          | routine frame => rfl
          | object object => rfl
          | element stage element pending done later goal =>
              cases stage with
              | map mapper => rfl
              | filter predicate =>
                  simp only [deliver]
                  cases value.toBool with
                  | error mismatch => rfl
                  | ok kept => cases kept <;> rfl

/-- A run does not look at what has been written before. -/
theorem run_behind (fuel : Nat) (state : State) :
    run program fuel (state.behind text) = (run program fuel state).map (Ending.behind text) := by
  induction fuel generalizing state with
  | zero => rfl
  | succ fuel ih =>
      rw [run, run, step_behind]
      cases step program state with
      | ended ending => rfl
      | running next => exact ih next

/-! ## Consoles that refuse to write -/

/-- The world that a step leads to. -/
def Step.world : Step → World
  | .running state => state.world
  | .ended ending => ending.world

theorem console_writeField {world after : World} {target value : Value} {field : Nat}
    (wrote : world.writeField target field value = .ok after) : after.console = world.console := by
  simp only [WorldOver.writeField] at wrote
  cases reference : target.toReference with
  | error mismatch =>
      rw [reference] at wrote
      cases wrote
  | ok place =>
      simp only [reference, orMismatch, bind, Except.bind] at wrote
      split at wrote
      · obtain rfl := Except.ok.inj wrote
        rfl
      · cases wrote

theorem console_assignField {world after : World} {frame next : Frame} {field : Nat}
    (assigned : assignField world frame field = .ok (next, after)) :
    after.console = world.console := by
  simp only [assignField, bind, Except.bind] at assigned
  split at assigned
  · exact absurd assigned nofun
  split at assigned
  · exact absurd assigned nofun
  split at assigned
  · exact absurd assigned nofun
  · next wrote =>
      obtain ⟨-, rfl⟩ := Prod.mk.inj (Except.ok.inj assigned)
      exact console_writeField wrote

theorem failure_execute (world : World) (frame : Frame) (op : Bytecode.Op) :
    (execute program world frame op).2.console.failure = world.console.failure := by
  cases op with
  | storeField field =>
      simp only [execute, storeField]
      split
      · rfl
      · next assigned => exact congrArg Console.failure (console_assignField assigned)
  | makeClosure routine captures =>
      simp only [execute, makeClosure]
      split <;> rfl
  | callHost imported count =>
      simp only [execute, callHost]
      split
      · rfl
      · split
        · rfl
        · next host _ =>
            cases replied : host.action.reply _ world with
            | value answer after => exact HostAction.failure_reply replied
            | _ => rfl
  | _ => rfl

theorem world_proceed (waiting : List Waiting) (outcome : Except Fault Effect × World) :
    (proceed waiting outcome).world = outcome.2 := by
  obtain ⟨fault | effect, world⟩ := outcome
  · rfl
  · cases effect <;> rfl

/-- A step leaves it to the console whether it refuses to write. -/
theorem failure_step (state : State) :
    (step program state).world.console.failure = state.world.console.failure := by
  obtain ⟨control, waiting, world⟩ := state
  cases control with
  | run frame =>
      simp only [step, runFrame]
      split
      · rfl
      · rw [world_proceed, failure_execute]
  | call routine arguments =>
      simp only [step, startCall]
      split
      · rfl
      · split
        · rfl
        · split <;> rfl
  | construct type =>
      simp only [step, startConstruction]
      cases program.image.types[type]? with
      | none => rfl
      | some definition =>
          simp only
          cases definition.initializer <;> rfl
  | enumerate pending done stages goal => cases stages <;> cases pending <;> rfl
  | answer value =>
      simp only [step, deliver]
      cases waiting with
      | nil => rfl
      | cons first rest =>
          cases first with
          | routine frame => rfl
          | object object => rfl
          | element stage element pending done later goal =>
              cases stage with
              | map mapper => rfl
              | filter predicate =>
                  simp only
                  cases value.toBool with
                  | error mismatch => rfl
                  | ok kept => cases kept <;> rfl

/-- A run leaves it to the console whether it refuses to write. -/
theorem failure_run {fuel : Nat} {state : State} {ending : Ending}
    (ran : run program fuel state = some ending) :
    ending.world.console.failure = state.world.console.failure := by
  induction fuel generalizing state with
  | zero => exact absurd ran nofun
  | succ fuel ih =>
      have kept : (step program state).world.console.failure = _ := failure_step state
      rw [run] at ran
      split at ran
      · next ended =>
          obtain rfl := Option.some.inj ran
          rwa [ended] at kept
      · next taken =>
          rw [taken] at kept
          exact (ih ran).trans kept

/-- A console that has written this text as well. -/
def Console.wrote (console : Console) (written : String) : Console :=
  { console with text := console.text ++ written }

/-- What is written behind the text of a console. -/
theorem Console.behind_eq_wrote {console after : Console} (failure : after.failure = console.failure) :
    after.behind console.text = console.wrote after.text := by
  rw [behind, wrote, failure]

/-- A console is an empty one with its text in front. -/
theorem Console.behind_empty (console : Console) :
    (Console.mk "" console.failure).behind console.text = console := by
  rw [behind, String.append_empty]

end Machine

end GuestScript
