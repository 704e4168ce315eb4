import GuestScript.Proofs.Bytecode.Shapes
import GuestScript.Proofs.Machine.Runs

/-!
# Frames are on paths

Whatever a program is given to work on, each of its frames is where a path through the code of its
routine leads, with as many operands as it has. A frame that waits for an answer is where a path
leads with one operand more. So a place in a routine that no path comes to is never run.
-/

namespace GuestScript.Machine

open Bytecode (Op Routine)

/-! ## Instructions -/

section Instructions

variable {program : Program} {world after : World} {routine : Routine} {position : Nat} {op : Op}
  {locals : Array Value} {operands rest : List Value} {effect : Effect}

/-- An effect goes on where an instruction leads that was given so many operands. -/
def Effect.FollowsFrom (effect : Effect) (op : Op) (routine : Routine) (position height : Nat) :
    Prop :=
  match effect with
  | .next frame =>
      frame.routine = routine ∧ (frame.position, frame.stack.size) ∈ op.next position height
  | .await frame control =>
      frame.routine = routine ∧ (frame.position, frame.stack.size + 1) ∈ op.next position height ∧
        ∀ other, control ≠ .run other
  | .leave _ => op = .ret

/-- Where an instruction leads that only takes operands and leaves its results. -/
theorem mem_next_of_isPlain (isPlain : op.isPlain = true) {height left : Nat}
    (count : left + op.operands = height + op.results) (enough : op.operands ≤ height) :
    (position + 1, left) ∈ op.next position height := by
  have same : left = height - op.operands + op.results := by omega
  subst same
  cases op <;> first | exact List.mem_singleton_self _ | exact absurd isPlain nofun

/-- Where an instruction leads that leaves one result in the place of several operands. -/
theorem mem_next_of_several {several : List Value} (isPlain : op.isPlain = true)
    (count : op.operands = several.length) (one : op.results = 1) :
    (position + 1, rest.length + 1) ∈ op.next position (several ++ rest).length := by
  refine mem_next_of_isPlain isPlain ?_ ?_ <;> rw [List.length_append] <;> omega

/-- What an operation on data gives follows from its instruction. -/
theorem followsFrom_of_map {result : Except Fault Value} (isPlain : op.isPlain = true)
    (count : rest.length + 1 + op.operands = operands.length + op.results)
    (enough : op.operands ≤ operands.length)
    (executed : (result.map fun value ↦
        Effect.next ⟨routine, position + 1, locals, ⟨value :: rest⟩⟩, world)
      = (.ok effect, after)) :
    effect.FollowsFrom op routine position operands.length := by
  cases result with
  | error fault => cases executed
  | ok value =>
      cases executed
      exact ⟨rfl, mem_next_of_isPlain isPlain count enough⟩

/-- What a host function replies follows from its call. -/
theorem followsFrom_of_receive {reply : Reply} {name : String} {imported : Bytecode.ImportIndex}
    {values : List Value}
    (executed : receive ⟨routine, position + 1, locals, ⟨rest⟩⟩ name world reply
      = (.ok effect, after)) :
    effect.FollowsFrom (.callHost imported values.length) routine position
      (values.reverse ++ rest).length := by
  have behind : (position + 1, rest.length + 1) ∈
      (Op.callHost imported values.length).next position (values.reverse ++ rest).length :=
    mem_next_of_several rfl List.length_reverse.symm rfl
  cases reply <;> cases executed
  · exact ⟨rfl, behind⟩
  · exact ⟨rfl, behind, fun _ same ↦ nomatch same⟩

/-- An instruction goes on where it leads. -/
theorem followsFrom_of_execute
    (executed : execute program world ⟨routine, position + 1, locals, ⟨operands⟩⟩ op
      = (.ok effect, after)) :
    effect.FollowsFrom op routine position operands.length := by
  by_cases enough : op.operands ≤ operands.length
  case neg =>
    -- an instruction that lacks operands ends the run
    have few := execute_of_short program world routine (position + 1) locals operands
      (Nat.lt_of_not_le enough)
    rw [executed] at few
    rcases few with same | ⟨_, same⟩ <;> cases same
  cases op with
  | push constant =>
      cases executed
      exact ⟨rfl, mem_next_of_isPlain rfl rfl enough⟩
  | load slot =>
      simp only [execute, load] at executed
      split at executed
      · cases executed
        exact ⟨rfl, mem_next_of_isPlain rfl rfl enough⟩
      · cases executed
  | store slot =>
      obtain ⟨value, rest, rfl⟩ := List.exists_cons_of_length_pos enough
      by_cases inside : slot < locals.size
      · rw [execute_store program world routine _ locals _ inside] at executed
        cases executed
        exact ⟨rfl, List.mem_singleton_self _⟩
      · simp only [execute, store, OperandStack.pop, bind, Except.bind, if_neg inside, goOn]
          at executed
        cases executed
  | loadField field =>
      obtain ⟨target, rest, rfl⟩ := List.exists_cons_of_length_pos enough
      rw [execute_loadField] at executed
      exact followsFrom_of_map rfl rfl enough executed
  | storeField field =>
      obtain ⟨value, target, rest, rfl⟩ := exists_two_operands enough
      rw [execute_storeField] at executed
      split at executed <;> cases executed
      exact ⟨rfl, mem_next_of_isPlain rfl rfl enough⟩
  | pop =>
      obtain ⟨value, rest, rfl⟩ := List.exists_cons_of_length_pos enough
      cases executed
      exact ⟨rfl, mem_next_of_isPlain rfl rfl enough⟩
  | unary operator =>
      obtain ⟨operand, rest, rfl⟩ := List.exists_cons_of_length_pos enough
      rw [execute_unary] at executed
      exact followsFrom_of_map rfl rfl enough executed
  | binary operator =>
      obtain ⟨right, left, rest, rfl⟩ := exists_two_operands enough
      rw [execute_binary] at executed
      exact followsFrom_of_map rfl rfl enough executed
  | index =>
      obtain ⟨position', array, rest, rfl⟩ := exists_two_operands enough
      rw [execute_index] at executed
      exact followsFrom_of_map rfl rfl enough executed
  | makeArray count =>
      obtain ⟨values, rest, rfl, rfl⟩ := exists_operands enough
      rw [execute_makeArray] at executed
      cases executed
      exact ⟨rfl, mem_next_of_several rfl List.length_reverse.symm rfl⟩
  | makeClosure index count =>
      obtain ⟨values, rest, rfl, rfl⟩ := exists_operands enough
      rw [execute_makeClosure] at executed
      cases executed
      exact ⟨rfl, mem_next_of_several rfl List.length_reverse.symm rfl⟩
  | construct type =>
      cases executed
      exact ⟨rfl, mem_next_of_isPlain rfl rfl enough, fun _ same ↦ by cases same⟩
  | call index count =>
      obtain ⟨values, rest, rfl, rfl⟩ := exists_operands enough
      rw [execute_call] at executed
      cases executed
      exact ⟨rfl, mem_next_of_several rfl List.length_reverse.symm rfl, fun _ same ↦ by cases same⟩
  | callClosure count =>
      obtain ⟨values, below, rfl, rfl⟩ := exists_operands (Nat.le_of_succ_le enough)
      have more : 0 < below.length := by
        simp only [Op.operands, List.length_append, List.length_reverse] at enough
        omega
      obtain ⟨callee, rest, rfl⟩ := List.exists_cons_of_length_pos more
      rw [execute_callClosure] at executed
      cases given : callee.toClosure with
      | error mismatch =>
          rw [given] at executed
          cases executed
      | ok closure =>
          rw [given] at executed
          cases executed
          have count : rest.length + 1 + (values.length + 1)
              = (values.reverse ++ callee :: rest).length + 1 := by
            simp only [List.length_append, List.length_reverse, List.length_cons]
            omega
          exact ⟨rfl, mem_next_of_isPlain rfl count enough, fun _ same ↦ by cases same⟩
  | callHost imported count =>
      obtain ⟨values, rest, rfl, rfl⟩ := exists_operands enough
      cases found : program.hosts[imported]? with
      | none =>
          simp only [execute, callHost, OperandStack.popMany_append, found] at executed
          cases executed
      | some host =>
          rw [execute_callHost program world routine _ locals rest found] at executed
          exact followsFrom_of_receive executed
  | iterStart =>
      obtain ⟨value, rest, rfl⟩ := List.exists_cons_of_length_pos enough
      cases value <;> cases executed
      · exact ⟨rfl, List.mem_singleton_self _⟩
      · exact ⟨rfl, List.mem_singleton_self _, fun _ same ↦ by cases same⟩
  | iterNext slot exit =>
      simp only [execute, iterNext] at executed
      split at executed
      · split at executed <;> cases executed
        · exact ⟨rfl, List.mem_cons_self⟩
        · exact ⟨rfl, List.mem_cons_of_mem _ List.mem_cons_self⟩
      · cases executed
      · cases executed
  | jump target =>
      cases executed
      exact ⟨rfl, List.mem_singleton_self _⟩
  | jumpUnless target =>
      obtain ⟨test, rest, rfl⟩ := List.exists_cons_of_length_pos enough
      rw [execute_jumpUnless] at executed
      cases given : test.toBool with
      | error mismatch =>
          rw [given] at executed
          cases executed
      | ok holds =>
          rw [given] at executed
          cases executed
          cases holds with
          | true => exact ⟨rfl, List.mem_cons_self⟩
          | false => exact ⟨rfl, List.mem_cons_of_mem _ List.mem_cons_self⟩
  | ret =>
      obtain ⟨value, rest, rfl⟩ := List.exists_cons_of_length_pos enough
      cases executed
      exact rfl

end Instructions

/-! ## Runs -/

/-- A path through the routine of a frame leads to where the frame is. -/
def Frame.OnPath (frame : Frame) : Prop :=
  frame.routine.Path frame.position frame.stack.size

/-- A path leads to where a frame is, once the answer is there that the frame waits for. -/
def Frame.ToPath (frame : Frame) : Prop :=
  frame.routine.Path frame.position (frame.stack.size + 1)

/-- Every frame of a state is on a path. -/
structure State.OnPaths (state : State) : Prop where
  running : ∀ frame, state.control = .run frame → frame.OnPath
  waiting : ∀ frame, .routine frame ∈ state.waiting → frame.ToPath

variable {program : Program} {state next last : State} {waiting : List Waiting} {world : World}

/-- Whatever is started without a frame is on paths. -/
theorem State.OnPaths.of_started {control : Control} (starts : ∀ frame, control ≠ .run frame) :
    State.OnPaths ⟨control, [], world⟩ :=
  ⟨fun frame same ↦ absurd same (starts frame), nofun⟩

theorem runFrame_onPaths {frame : Frame} (onPath : frame.OnPath)
    (below : ∀ frame, .routine frame ∈ waiting → frame.ToPath)
    (taken : runFrame program frame waiting world = .running next) : next.OnPaths := by
  obtain ⟨routine, position, locals, ⟨operands⟩⟩ := frame
  simp only [runFrame] at taken
  split at taken
  · cases taken
    exact ⟨nofun, below⟩
  · next op found =>
      cases executed : execute program world ⟨routine, position + 1, locals, ⟨operands⟩⟩ op with
      | mk outcome after =>
          rw [Frame.goTo, executed] at taken
          cases outcome with
          | error fault => cases taken
          | ok effect =>
              have follows := followsFrom_of_execute executed
              cases effect with
              | next frame =>
                  cases taken
                  obtain ⟨rfl, led⟩ := follows
                  refine ⟨fun other same ↦ ?_, below⟩
                  cases same
                  exact onPath.step found led
              | await frame control =>
                  cases taken
                  obtain ⟨rfl, led, starts⟩ := follows
                  refine ⟨fun other same ↦ absurd same (starts other), fun other inside ↦ ?_⟩
                  rcases List.mem_cons.mp inside with same | inside
                  · cases same
                    exact onPath.step found led
                  · exact below other inside
              | leave value =>
                  cases taken
                  exact ⟨nofun, below⟩

/-- A step leaves every frame on a path. -/
theorem step_onPaths (taken : step program state = .running next) (onPaths : state.OnPaths) :
    next.OnPaths := by
  obtain ⟨control, waiting, world⟩ := state
  have below {first : Waiting} (others : ∀ frame, first ≠ .routine frame) :
      ∀ frame, .routine frame ∈ first :: waiting → frame.ToPath := by
    intro frame inside
    rcases List.mem_cons.mp inside with same | inside
    · exact absurd same.symm (others frame)
    · exact onPaths.waiting frame inside
  cases control with
  | run frame => exact runFrame_onPaths (onPaths.running frame rfl) onPaths.waiting taken
  | call index arguments =>
      simp only [step, startCall] at taken
      repeat' split at taken
      all_goals cases taken
      refine ⟨fun frame same ↦ ?_, onPaths.waiting⟩
      cases same
      exact .start
  | construct type =>
      simp only [step, startConstruction] at taken
      repeat' split at taken
      all_goals cases taken
      · exact ⟨nofun, onPaths.waiting⟩
      · exact ⟨nofun, below fun _ same ↦ nomatch same⟩
  | enumerate pending done stages goal =>
      simp only [step, enumerate.eq_def] at taken
      split at taken <;> cases taken
      · exact ⟨nofun, onPaths.waiting⟩
      · exact ⟨nofun, onPaths.waiting⟩
      · exact ⟨nofun, below fun _ same ↦ nomatch same⟩
  | answer value =>
      simp only [step, deliver.eq_def] at taken
      have rest {first : Waiting} {others : List Waiting} (same : waiting = first :: others) :
          ∀ frame, .routine frame ∈ others → frame.ToPath :=
        fun frame inside ↦ onPaths.waiting frame (same ▸ List.mem_cons_of_mem _ inside)
      split at taken
      · cases taken
      · next frame others =>
          cases taken
          refine ⟨fun other same ↦ ?_, rest rfl⟩
          cases same
          exact onPaths.waiting frame List.mem_cons_self
      · cases taken
        exact ⟨nofun, rest rfl⟩
      · split at taken
        · cases taken
          exact ⟨nofun, rest rfl⟩
        · split at taken <;> cases taken <;> exact ⟨nofun, rest rfl⟩

/-- Every frame of a state that is reached is on a path. -/
theorem Reaches.onPaths (reached : Reaches program state last) (onPaths : state.OnPaths) :
    last.OnPaths :=
  reached.preserves step_onPaths onPaths

end GuestScript.Machine
