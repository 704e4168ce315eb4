import GuestScript.Proofs.Machine.Instructions
import GuestScript.Proofs.Machine.Work

/-!
# Lazy sequences

A sequence is its source and the stages that wait to be run over it. `applyInOrder` is what one
stage does to elements: its closure is called on one after another, and the first call that does not
answer ends it. `elements` runs the stages of a sequence over its source, the oldest first.

`perform_enumerate` says that the machine enumerates a sequence that way, whatever the elements are
wanted for. So the three instructions that want the elements of a sequence differ only in what they
make of them, and a stage that is put on a sequence is applied to what the sequence had before.
Both sides of each equation are `Work`: they agree on the calls, the worlds and the faults at every
moment.
-/

namespace GuestScript.Machine

open Bytecode (ImportIndex Op Routine)

/-! ## What a sequence stands for -/

/-- The elements that a stage puts in the place of one that its closure has answered for. -/
def keep (stage : Stage) (element answer : Value) : Except Mismatch (List Value) :=
  match stage with
  | .map _ => .ok [answer]
  | .filter _ => answer.toBool.map fun approved ↦ if approved then [element] else []

/-- Apply a stage to elements, one after another. -/
def applyInOrder (program : Program) (depth : Nat) (stage : Stage) : List Value → Work (List Value)
  | [] => pure []
  | element :: rest => do
      let answer ← perform program depth (callClosure stage.closure [element])
      let kept ← Work.settled (orMismatch (keep stage element answer))
      return kept ++ (← applyInOrder program depth stage rest)

/-- The elements of a sequence with this source and these stages. -/
def elements (program : Program) (depth : Nat) : List Stage → List Value → Work (List Value)
  | [], source => pure source
  | stage :: later, source => applyInOrder program depth stage source >>= elements program depth later

variable {program : Program} {depth : Nat} {stage : Stage} {stages later : List Stage}
  {goal : Goal}

/-- A stage behind the others is applied to what the others give. -/
theorem elements_append (stages : List Stage) (stage : Stage) (source : List Value) :
    elements program depth (stages ++ [stage]) source
      = elements program depth stages source >>= applyInOrder program depth stage := by
  induction stages generalizing source with
  | nil =>
      rw [List.nil_append, elements, elements, pure_bind]
      exact bind_pure _
  | cons first rest ih =>
      rw [List.cons_append, elements, elements, bind_assoc]
      exact bind_congr ih

/-! ## How the machine enumerates -/

/-- The machine asks the first stage about the next element. -/
theorem work_enumerate_cons (element : Value) (pending done : List Value) :
    perform program depth (.enumerate (element :: pending) done (stage :: later) goal)
      = perform program depth (callClosure stage.closure [element]) >>= fun answer ↦
          work program depth (.answer answer) [.element stage element pending done later goal] := by
  have asked : perform program depth (.enumerate (element :: pending) done (stage :: later) goal)
      = work program depth (callClosure stage.closure [element])
          [.element stage element pending done later goal] :=
    work_of_step (fun _ _ _ same ↦ nomatch same) (fun _ ↦ rfl) fun _ _ _ ↦ rfl
  have split : work program depth (callClosure stage.closure [element])
        ([] ++ [.element stage element pending done later goal])
      = perform program (0 + depth) (callClosure stage.closure [element]) >>= fun answer ↦
          work program depth (.answer answer) [.element stage element pending done later goal] :=
    work_above _ _ _
  rw [asked]
  rwa [List.nil_append, Nat.zero_add] at split

/-- The machine puts what a stage keeps behind what it has kept before. -/
theorem work_element (element answer : Value) (pending done : List Value) :
    work program depth (.answer answer) [.element stage element pending done later goal]
      = Work.settled (orMismatch (keep stage element answer)) >>= fun kept ↦
          perform program depth (.enumerate pending (kept.reverse ++ done) (stage :: later) goal) := by
  have busy (world : World) : State.Busy
      ⟨.answer answer, [.element stage element pending done later goal], world⟩ :=
    fun _ _ same ↦ nomatch same
  cases stage with
  | map mapper =>
      refine Eq.trans ?_ (pure_bind [answer] _).symm
      exact work_of_step busy (fun _ ↦ rfl) fun _ _ _ ↦ rfl
  | filter predicate =>
      simp only [keep]
      cases approved : answer.toBool with
      | error mismatch =>
          refine Eq.trans ?_ (Work.settled_error_bind (.typeMismatch mismatch) _).symm
          refine work_of_fault _ busy fun base world _ ↦ ?_
          simp only [step, deliver, List.cons_append, approved]
      | ok approves =>
          refine Eq.trans ?_ (pure_bind (if approves then [element] else []) _).symm
          refine work_of_step busy (fun _ ↦ rfl) fun base world _ ↦ ?_
          simp only [step, deliver, List.cons_append, approved]
          cases approves <;> rfl

/-- The machine applies the first stage to what there is, and goes on with the other stages. -/
theorem work_enumerate_stage (pending done : List Value) :
    perform program depth (.enumerate pending done (stage :: later) goal)
      = applyInOrder program depth stage pending >>= fun items ↦
          perform program depth (.enumerate (done.reverse ++ items) [] later goal) := by
  induction pending generalizing done with
  | nil =>
      rw [applyInOrder, pure_bind, List.append_nil]
      exact work_of_step (fun _ _ _ same ↦ nomatch same) (fun _ ↦ rfl) fun _ _ _ ↦ rfl
  | cons element rest ih =>
      rw [work_enumerate_cons, applyInOrder, bind_assoc]
      refine bind_congr fun answer ↦ ?_
      rw [work_element, bind_assoc]
      refine bind_congr fun kept ↦ ?_
      rw [ih, bind_assoc]
      refine bind_congr fun items ↦ ?_
      rw [pure_bind, List.reverse_append, List.reverse_reverse, List.append_assoc]

/-- The machine enumerates a sequence by running its stages over its source. -/
theorem perform_enumerate (stages : List Stage) (source : List Value) :
    perform program depth (.enumerate source [] stages goal)
      = goal.deliver <$> elements program depth stages source := by
  induction stages generalizing source with
  | nil =>
      rw [elements, map_pure, ← work_answer]
      exact work_of_step (fun _ _ _ same ↦ nomatch same) (fun _ ↦ rfl) fun _ _ _ ↦ rfl
  | cons stage later ih =>
      rw [work_enumerate_stage, elements, map_bind]
      exact bind_congr ih

/-! ## Instructions on sequences -/

/-- A host function that puts a stage on a sequence, with the stage that it puts there. -/
inductive Puts : HostAction → (Closure → Stage) → Prop where
  | filter : Puts .seqFilter .filter
  | map : Puts .seqMap .map

/-- An instruction that wants the elements of the sequence on top of the operands, and what for. -/
inductive Forces (program : Program) : Op → Goal → Prop where
  | loop : Forces program .iterStart .cursor
  | array {imported : ImportIndex} {name : String} :
      program.hosts[imported]? = some ⟨name, .seqToArray⟩ →
      Forces program (.callHost imported 1) .array
  | count {imported : ImportIndex} {name : String} :
      program.hosts[imported]? = some ⟨name, .seqCount⟩ →
      Forces program (.callHost imported 1) .count

/-- Sequences of a program are lazy, and all that enumerates them agrees. -/
structure SequencesAreLazy (program : Program) : Prop where
  /-- Putting a stage on a sequence is one step of the same frame. It calls nothing and leaves the
  objects and the console as they are. -/
  builds {action : HostAction} {stage : Closure → Stage} {imported : ImportIndex} {name : String}
      {routine : Routine} {position : Nat} {sequence : Value} {closure : Closure}
      {source : List Value} {stages : List Stage} (locals : Array Value) (rest : List Value)
      (waiting : List Waiting) (world : World) :
    Puts action stage → program.hosts[imported]? = some ⟨name, action⟩ →
    routine.code[position]? = some (.callHost imported 2) →
    sequence.toSeq = .ok (source, stages) → stages.length < maxStages →
    step program
        ⟨.run ⟨routine, position, locals, ⟨.closure closure :: sequence :: rest⟩⟩, waiting, world⟩
      = .running ⟨.run ⟨routine, position + 1, locals,
            ⟨.seq world.nextIdentity source (stages ++ [stage closure]) :: rest⟩⟩,
          waiting, { world with nextIdentity := world.nextIdentity + 1 }⟩
  /-- A sequence with one more stage has the elements that this stage makes, in order, of those
  that the sequence had before. -/
  appends (depth : Nat) (stages : List Stage) (stage : Stage) (source : List Value) :
    elements program depth (stages ++ [stage]) source
      = elements program depth stages source >>= applyInOrder program depth stage
  /-- The machine enumerates a sequence alike for every goal. -/
  enumerates (depth : Nat) (goal : Goal) (stages : List Stage) (source : List Value) :
    perform program depth (.enumerate source [] stages goal)
      = goal.deliver <$> elements program depth stages source
  /-- A frame whose instruction wants the elements of a sequence goes on with what its goal makes of
  them, and a fault of a closure is the fault of the frame. -/
  forces {op : Op} {goal : Goal} {routine : Routine} {position : Nat} {sequence : Value}
      {source : List Value} {stages : List Stage} (depth : Nat) (locals : Array Value)
      (rest : List Value) :
    Forces program op goal → routine.code[position]? = some op →
    sequence.toSeq = .ok (source, stages) →
    perform program depth (.run ⟨routine, position, locals, ⟨sequence :: rest⟩⟩)
      = elements program (depth + 1) stages source >>= fun items ↦
          perform program depth
            (.run ⟨routine, position + 1, locals, ⟨goal.deliver items :: rest⟩⟩)
  /-- Asked for from outside, with no call active, the elements are the same. -/
  outside {source : List Value} {stages : List Stage} {goal : Goal} {world after : World}
      {result : Except Fault Value} :
    (∃ fuel, program.perform fuel (.enumerate source [] stages goal) world
        = some ⟨result, after⟩) ↔
      ∃ calls items, (elements program 0 stages source).comes world calls items after ∧
        result.mapError .fault = items.map goal.deliver

/-- An instruction that wants the elements of a sequence waits for them, unless they are those of an
array already. -/
theorem execute_forces {op : Op} {sequence : Value} {source : List Value}
    (forces : Forces program op goal) (view : sequence.toSeq = .ok (source, stages))
    (routine : Routine) (position : Nat) (locals : Array Value) (rest : List Value) :
    (∀ world, execute program world ⟨routine, position, locals, ⟨sequence :: rest⟩⟩ op
        = (.ok (.await ⟨routine, position, locals, ⟨rest⟩⟩
            (.enumerate source [] stages goal)), world)) ∨
      stages = [] ∧ ∀ world, execute program world ⟨routine, position, locals, ⟨sequence :: rest⟩⟩ op
        = (.ok (.next ⟨routine, position, locals, ⟨goal.deliver source :: rest⟩⟩), world) := by
  have called {imported : ImportIndex} {host : LinkedHost}
      (bound : program.hosts[imported]? = some host) (world : World) :=
    execute_callHost program world routine position locals rest bound [sequence]
  cases forces with
  | loop =>
      cases sequence with
      | array items =>
          cases view
          exact .inr ⟨rfl, fun _ ↦ rfl⟩
      | seq identity source stages =>
          cases view
          exact .inl fun _ ↦ rfl
      | _ => cases view
  | array bound =>
      refine .inl fun world ↦ (called bound world).trans ?_
      simp only [HostAction.reply, view, ReplyOver.withArgument]
      rfl
  | count bound =>
      refine .inl fun world ↦ (called bound world).trans ?_
      simp only [HostAction.reply, view, ReplyOver.withArgument]
      rfl

/-- A frame that waits goes on with the answer. -/
theorem work_answer_routine (value : Value) (frame : Frame) :
    work program depth (.answer value) [.routine frame]
      = perform program depth (.run (frame.push value)) :=
  work_of_step (fun _ _ _ same ↦ nomatch same) (fun _ ↦ rfl) fun _ _ _ ↦ rfl

/-- A frame goes on with the elements that one of its instructions wants. -/
theorem perform_run_forces {op : Op} {routine : Routine} {position : Nat} {sequence : Value}
    {source : List Value} (forces : Forces program op goal)
    (here : routine.code[position]? = some op) (view : sequence.toSeq = .ok (source, stages))
    (locals : Array Value) (rest : List Value) :
    perform program depth (.run ⟨routine, position, locals, ⟨sequence :: rest⟩⟩)
      = elements program (depth + 1) stages source >>= fun items ↦
          perform program depth
            (.run ⟨routine, position + 1, locals, ⟨goal.deliver items :: rest⟩⟩) := by
  have busy (world : World) : State.Busy
      ⟨.run ⟨routine, position, locals, ⟨sequence :: rest⟩⟩, [], world⟩ :=
    fun _ _ same ↦ nomatch same
  rcases execute_forces forces view routine (position + 1) locals rest with
    executed | ⟨rfl, executed⟩
  · let frame : Frame := ⟨routine, position + 1, locals, ⟨rest⟩⟩
    have awaited : perform program depth (.run ⟨routine, position, locals, ⟨sequence :: rest⟩⟩)
        = work program depth (.enumerate source [] stages goal) [.routine frame] := by
      refine work_of_step busy (fun _ ↦ rfl) fun base world _ ↦ ?_
      simp only [step, runFrame, here, Frame.goTo, executed, proceed]
      rfl
    have split : work program depth (.enumerate source [] stages goal) [.routine frame]
        = perform program (depth + 1) (.enumerate source [] stages goal) >>= fun value ↦
            work program depth (.answer value) [.routine frame] := by
      rw [Nat.add_comm depth 1]
      exact work_above (.enumerate source [] stages goal) [] [.routine frame]
    rw [awaited, split, perform_enumerate, bind_map_left]
    exact bind_congr fun items ↦ work_answer_routine (goal.deliver items) frame
  · rw [elements, pure_bind]
    refine work_of_step busy (fun _ ↦ rfl) fun base world _ ↦ ?_
    simp only [step, runFrame, here, Frame.goTo, executed, proceed]

/-- Putting a stage on a sequence is one step that makes the longer sequence. -/
theorem step_puts {action : HostAction} {put : Closure → Stage} {imported : ImportIndex}
    {name : String} {routine : Routine} {position : Nat} {sequence : Value} {source : List Value}
    (puts : Puts action put) (bound : program.hosts[imported]? = some ⟨name, action⟩)
    (here : routine.code[position]? = some (.callHost imported 2))
    (view : sequence.toSeq = .ok (source, stages)) (few : stages.length < maxStages)
    (closure : Closure) (locals : Array Value) (rest : List Value) (waiting : List Waiting)
    (world : World) :
    step program
        ⟨.run ⟨routine, position, locals, ⟨.closure closure :: sequence :: rest⟩⟩, waiting, world⟩
      = .running ⟨.run ⟨routine, position + 1, locals,
            ⟨.seq world.nextIdentity source (stages ++ [put closure]) :: rest⟩⟩,
          waiting, { world with nextIdentity := world.nextIdentity + 1 }⟩ := by
  have replied : action.reply [sequence, .closure closure] world
      = .value (.seq world.nextIdentity source (stages ++ [put closure]))
          { world with nextIdentity := world.nextIdentity + 1 } := by
    have longer : appendStage? stages (put closure) maxStages = some (stages ++ [put closure]) :=
      if_pos few
    cases puts <;>
      simp only [HostAction.reply, HostAction.extend, view, ReplyOver.withArgument,
        ValueOver.toClosure, ReplyOver.extend, longer, WorldOver.makeSeq]
  have executed := execute_callHost program world routine (position + 1) locals rest bound
    [sequence, .closure closure]
  rw [replied] at executed
  simp only [step, runFrame, here, Frame.goTo]
  exact congrArg (proceed waiting) executed

/-- A sequence that is enumerated from outside has its elements. -/
theorem ends_enumerate_iff {source : List Value} {world after : World}
    {result : Except Fault Value} :
    (∃ fuel, program.perform fuel (.enumerate source [] stages goal) world
        = some ⟨result, after⟩) ↔
      ∃ calls items, (elements program 0 stages source).comes world calls items after ∧
        result.mapError .fault = items.map goal.deliver := by
  have same : perform program 0 (.enumerate source [] stages goal)
      = goal.deliver <$> elements program 0 stages source := perform_enumerate stages source
  refine ends_iff_comes.trans (exists_congr fun calls ↦ ?_)
  rw [← Work.comes_map, ← same]
  rfl

/-- Building a sequence never runs the program, and all that enumerates one agrees. -/
theorem sequencesAreLazy (program : Program) : SequencesAreLazy program where
  builds locals rest waiting world puts bound here view few :=
    step_puts puts bound here view few _ locals rest waiting world
  appends _ := elements_append
  enumerates _ _ stages source := perform_enumerate stages source
  forces _ locals rest forces here view := perform_run_forces forces here view locals rest
  outside := ends_enumerate_iff

/-- A program with a closure's routine and the host function that maps a sequence. -/
def mapping : Program where
  image :=
    { name := ""
      imports := #[⟨"seq", 1, 0, "map"⟩]
      types := #[]
      routines := #[⟨"same", none, .owner, .closure 0, 1, 1, #[.load 0, .ret]⟩,
        ⟨"main", none, .everyone, .static, 0, 0, #[.callHost 0 2, .iterStart, .ret]⟩]
      entry := none }
  hosts := #[⟨"seq::map", .seqMap⟩]

theorem sequencesAreLazy_mapping :
    ([] : List Stage).length < maxStages ∧
    step mapping
        ⟨.run ⟨mapping.image.routines[1], 0, #[], ⟨[.closure (.mk 0 0 []), .array [.bool true]]⟩⟩, [],
          .fresh .empty⟩
      = .running ⟨.run ⟨mapping.image.routines[1], 1, #[],
            ⟨[.seq 0 [.bool true] [.map (.mk 0 0 [])]]⟩⟩, [], ⟨#[], 1, .empty⟩⟩ ∧
    perform mapping 0 (.run ⟨mapping.image.routines[1], 1, #[],
        ⟨[.seq 0 [.bool true] [.map (.mk 0 0 [])]]⟩⟩)
      = elements mapping 1 [.map (.mk 0 0 [])] [.bool true] >>= fun items ↦
          perform mapping 0 (.run ⟨mapping.image.routines[1], 2, #[], ⟨[.cursor items 0]⟩⟩) := by
  have few : ([] : List Stage).length < maxStages := by decide
  have lazy := sequencesAreLazy mapping
  exact ⟨few, lazy.builds #[] [] [] (.fresh .empty) .map rfl rfl rfl few,
    lazy.forces 0 #[] [] .loop rfl rfl⟩

end GuestScript.Machine
