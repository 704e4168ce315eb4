import GuestScript.Proofs.Simulation.Steps

/-!
# Calls that values make

A caller of the evaluator `Answers` as the machine does if each call that it makes is met by the call
of the routine. Then calling a closure, running the stages of a sequence, calling a host function and
making an object are met as well: they lead to calls, and the machine keeps in what is waiting what
the evaluator has still to do.
-/

namespace GuestScript.Meaning

open Bytecode (Op RoutineIndex TypeIndex)
open Compile (MethodInfo TypeInfo)
open Evaluation (settled converted)
open Machine

variable {program : Translated}

/-- What is called has this routine. -/
inductive Callee.HasRoutine (program : Translated) :
    Callee → RoutineIndex → Prop where
  | function {owner : TypeIndex} {info : TypeInfo} {method : MethodInfo} :
      program.types[owner]? = some info → method ∈ info.methods →
      HasRoutine program (.function owner method) method.routine
  | initializer {type : TypeIndex} {definition : Bytecode.TypeDefinition} {index : RoutineIndex} :
      program.image.types[type]? = some definition → definition.initializer = some index →
      HasRoutine program (.initializer type) index
  | lambda {index : RoutineIndex} {code : Lambda} :
      LambdaCode program index code → code.IsOf program → HasRoutine program (.lambda code) index

/-- A caller does what the machine does when it calls while so many calls are active. -/
def Answers (program : Translated) (least depth : Nat) (call : Caller) : Prop :=
  ∀ {callee : Callee} {index : RoutineIndex}, callee.HasRoutine program index →
    ∀ (arguments : List (Twin program)) {waiting : List Waiting} (world : TwinWorld program),
      callDepth waiting = depth →
      Meets program least ⟨.call index (arguments.map compiled), waiting, compiledWorld world⟩ world
        (call callee (arguments.map meant)) (IsAnswer waiting)

variable {least depth : Nat} {call : Caller} {waiting : List Waiting}
  {world : TwinWorld program}

/-- Calling a closure is met. -/
theorem Answers.callClosure (answers : Answers program least depth call)
    (closure : ClosureOver (Pair program)) (arguments : List (Twin program))
    (world : TwinWorld program) (active : callDepth waiting = depth) :
    Meets program least
      ⟨Machine.callClosure (closure.recode Pair.routine) (arguments.map compiled), waiting,
        compiledWorld world⟩ world
      (callClosure call (closure.recode Pair.lambda) (arguments.map meant)) (IsAnswer waiting) := by
  have met := answers (.lambda closure.code.2.1 closure.code.2.2)
    (closure.captures ++ arguments) world active
  rw [List.map_append, List.map_append] at met
  rw [Machine.callClosure, Meaning.callClosure, Closure.routine, ClosureOver.code_recode,
    ClosureOver.captures_recode, ClosureOver.code_recode, ClosureOver.captures_recode]
  exact met

/-! ## Sequences -/

/-- A sequence is being enumerated, with these elements for the next of the stages. -/
def Enumerates (pending done : List (Twin program)) (stages : List (StageOver (Pair program)))
    (goal : Goal) (waiting : List Waiting) (world : TwinWorld program) : State :=
  ⟨.enumerate (pending.map compiled) (done.map compiled)
    (stages.map (StageOver.recode Pair.routine)) goal, waiting, compiledWorld world⟩

/-- A filter keeps an element that its closure approves of. -/
theorem step_answer_filter (program : Program) (value : Value) (predicate : Closure) (element : Value)
    (pending done : List Value) (later : List Stage) (goal : Goal) (waiting : List Waiting)
    (world : World) :
    step program
        ⟨.answer value, .element (.filter predicate) element pending done later goal :: waiting, world⟩
      = match value.toBool with
        | .error mismatch => .ended ⟨.error (.typeMismatch mismatch), world⟩
        | .ok true =>
            .running ⟨.enumerate pending (element :: done) (.filter predicate :: later) goal, waiting,
              world⟩
        | .ok false =>
            .running ⟨.enumerate pending done (.filter predicate :: later) goal, waiting, world⟩ :=
  rfl

/-- Running a stage over elements is met. -/
theorem Answers.runStage (answers : Answers program least depth call)
    (stage : StageOver (Pair program)) {later : List (StageOver (Pair program))} {goal : Goal}
    (active : callDepth waiting = depth) :
    (pending done : List (Twin program)) → (world : TwinWorld program) →
    Meets program least (Enumerates pending done (stage :: later) goal waiting world) world
      (runStage call (stage.recode Pair.lambda) (pending.map meant))
      fun kept after next ↦ ∃ more : List (Twin program), kept = more.map meant ∧
        next = Enumerates (done.reverse ++ more) [] later goal waiting after
  | [], done, world => by
      have taken : step program (Enumerates [] done (stage :: later) goal waiting world)
          = .running (Enumerates done.reverse [] later goal waiting world) := by
        rw [Enumerates, Enumerates, List.map_reverse]
        rfl
      exact .step taken (.pure ⟨[], rfl, by rw [List.append_nil]⟩)
  | element :: pending, done, world => by
      -- whatever the closure makes of this element, the others are treated alike behind it
      have others (kept : List (Twin program)) (world : TwinWorld program) :
          Meets program least (Enumerates pending (kept.reverse ++ done) (stage :: later) goal
              waiting world) world
            (do pure (kept.map meant
              ++ (← Meaning.runStage call (stage.recode Pair.lambda) (pending.map meant))))
            fun kept after next ↦ ∃ more : List (Twin program), kept = more.map meant ∧
              next = Enumerates (done.reverse ++ more) [] later goal waiting after := by
        refine .bind (answers.runStage stage active pending (kept.reverse ++ done) world) ?_
        rintro _ after next ⟨more, rfl, rfl⟩
        refine .pure ⟨kept ++ more, List.map_append.symm, ?_⟩
        rw [List.reverse_append, List.reverse_reverse, List.append_assoc]
      have called := answers.callClosure stage.closure [element] world
        (show callDepth (.element (stage.recode Pair.routine) (compiled element)
          (pending.map compiled) (done.map compiled) (later.map (StageOver.recode Pair.routine)) goal
            :: waiting) = depth from active)
      rw [← StageOver.closure_recode, ← StageOver.closure_recode] at called
      refine .step rfl (.bind called ?_)
      rintro _ after next ⟨answer, rfl, rfl⟩
      cases stage with
      | map mapper => exact .step rfl (.congr (others [answer] after) rfl)
      | filter predicate =>
          have held : (compiled answer).toBool = (meant answer).toBool := by
            rw [ValueOver.toBool_recode, ValueOver.toBool_recode]
          have taken := step_answer_filter program (compiled answer)
            (predicate.recode Pair.routine) (compiled element) (pending.map compiled)
            (done.map compiled) (later.map (StageOver.recode Pair.routine)) goal waiting
            (compiledWorld after)
          rw [held] at taken
          simp only [StageOver.recode]
          -- both sides look at the same truth value, since the answer is recoded only
          revert taken
          cases (meant answer).toBool with
          | error mismatch => exact fun taken ↦ .fault rfl (.of_step taken)
          | ok keep =>
              cases keep with
              | true => exact fun taken ↦ .step taken (.congr (others [element] after) rfl)
              | false => exact fun taken ↦ .step taken (.congr (others [] after) rfl)

/-- Running stages over elements is met. -/
theorem Answers.runStages (answers : Answers program least depth call) (goal : Goal)
    (active : callDepth waiting = depth) :
    (stages : List (StageOver (Pair program))) → (pending : List (Twin program)) →
    (world : TwinWorld program) →
    Meets program least (Enumerates pending [] stages goal waiting world) world
      (runStages call (stages.map (StageOver.recode Pair.lambda)) (pending.map meant))
      fun elements after next ↦ ∃ items : List (Twin program), elements = items.map meant ∧
        next = ⟨.answer (compiled (goal.deliver items)), waiting, compiledWorld after⟩
  | [], pending, world => by
      refine .step rfl (.pure ⟨pending, rfl, ?_⟩)
      rw [Goal.deliver_recode]
  | stage :: later, pending, world => by
      refine .bind (answers.runStage stage active pending [] world) ?_
      rintro _ after next ⟨more, rfl, rfl⟩
      exact answers.runStages goal active later more after

/-! ## Loops -/

/-- A loop starts with the elements that the evaluator visits. -/
theorem Answers.elementsOf {activation : Activation} {position : Nat} {slots : Slots program}
    {stack : List Value} (answers : Answers program least depth call)
    (active : callDepth activation.waiting + 1 = depth)
    (has : activation.routine.HasAt position [.iterStart]) (iterable : Twin program) :
    Meets program least (activation.state position slots (compiled iterable :: stack) world) world
      (elementsOf call (meant iterable))
      fun elements after next ↦ ∃ items : List (Twin program), elements = items.map meant ∧
        next = activation.state (position + 1) slots (compiled (.cursor items 0) :: stack) after := by
  have taken : step program (activation.state position slots (compiled iterable :: stack) world)
      = _ := step_state has.op
  cases iterable with
  | array items =>
      rw [meant, ValueOver.recode, recodeAll_eq_map]
      exact .step taken (.pure ⟨items, rfl, rfl⟩)
  | seq identity source stages =>
      let frame := activation.frame (position + 1) slots stack
      have active' : callDepth (.routine frame :: activation.waiting) = depth := active
      have met := answers.runStages .cursor active' stages source world
      rw [meant, ValueOver.recode, recodeAll_eq_map, recodeStages_eq_map]
      refine .step (taken.trans ?_) (met.follow ?_)
      · rw [compiled, ValueOver.recode, recodeAll_eq_map, recodeStages_eq_map]
        rfl
      · rintro _ after next ⟨items, rfl, rfl⟩
        exact ⟨_, .single rfl, items, rfl, rfl⟩
  | _ => exact .settled_error taken

/-! ## Host functions -/

/-- Calling a host function is met. -/
theorem Answers.callHost {activation : Activation} {position : Nat} {slots : Slots program}
    {stack : List Value} (answers : Answers program least depth call)
    (active : callDepth activation.waiting + 1 = depth) {imported : Bytecode.ImportIndex}
    {name : String} {action : HostAction} (arguments : List (Twin program))
    (has : activation.routine.HasAt position [.callHost imported arguments.length])
    (bound : program.hosts[imported]? = some ⟨name, action⟩) :
    Meets program least
      (activation.state position slots ((arguments.map compiled).reverse ++ stack) world) world
      (Meaning.callHost call name action (arguments.map meant))
      (activation.Pushes (position + 1) slots stack) := by
  have taken : step program (activation.state position slots
      ((arguments.map compiled).reverse ++ stack) world) = _ := step_state has.op
  have executed := execute_callHost program (compiledWorld world) activation.routine (position + 1)
    (slots.map compiled) stack bound (arguments.map compiled)
  rw [List.length_map, HostAction.reply_recode] at executed
  rw [Activation.frame, executed] at taken
  -- the reply does not look at what closures run, so it is one reply for both sides
  have same : Meaning.callHost call name action (arguments.map meant) (meantWorld world)
      = answerReply call name ((action.reply arguments world).recode Pair.lambda)
          (meantWorld world) := by
    rw [Meaning.callHost, HostAction.reply_recode]
  refine .congr ?_ same
  cases reply : action.reply arguments world with
  | value value after =>
      rw [reply] at taken
      exact .result rfl (.single taken) ⟨value, rfl, rfl⟩
  | refuse error =>
      rw [reply] at taken
      exact .settled_error taken
  | fault fault =>
      rw [reply] at taken
      exact .settled_error taken
  | enumerate source stages goal =>
      rw [reply] at taken
      let frame := activation.frame (position + 1) slots stack
      have active' : callDepth (.routine frame :: activation.waiting) = depth := active
      refine .step taken (.bind (answers.runStages goal active' stages source world) ?_)
      rintro _ after next ⟨items, rfl, rfl⟩
      exact .step rfl (.pure ⟨goal.deliver items, Goal.deliver_recode _ _ _, rfl⟩)

/-! ## Objects -/

/-- The object that the machine makes is the one that the evaluator makes. -/
theorem step_construct {type : TypeIndex} {info : TypeInfo} {definition : Bytecode.TypeDefinition}
    (found : program.image.types[type]? = some definition)
    (code : TypeCode program program.references program.types type info definition) :
    let made := world.allocate type info.name.full (info.fields.map fun _ ↦ .unit)
    step program ⟨.construct type, waiting, compiledWorld world⟩
      = match definition.initializer with
        | none => .running ⟨.answer (.object made.1), waiting, compiledWorld made.2⟩
        | some initializer => .running ⟨.call initializer [.object made.1],
            .object (.object made.1) :: waiting, compiledWorld made.2⟩ := by
  have fields : definition.fields.map (fun _ ↦ Value.unit)
      = (info.fields.map fun _ ↦ (.unit : Twin program)).map compiled := by
    rw [code.fields, List.map_map, List.map_map]
    exact List.map_congr_left fun _ _ ↦ rfl
  cases starts : definition.initializer with
  | none =>
      simp only [step, startConstruction, found, fields, code.name, compiledWorld,
        WorldOver.allocate_recode, starts]
  | some initializer =>
      simp only [step, startConstruction, found, fields, code.name, compiledWorld,
        WorldOver.allocate_recode, starts]

/-- Making an object is met. -/
theorem Answers.construct {type : TypeIndex} {info : TypeInfo}
    (answers : Answers program least depth call) (found : program.types[type]? = some info)
    (active : callDepth waiting = depth) :
    Meets program least ⟨.construct type, waiting, compiledWorld world⟩ world
      (Meaning.construct call program.types type) (IsAnswer waiting) := by
  obtain ⟨definition, here, type'⟩ := program.code.type found
  let fields : List (Twin program) := info.fields.map fun _ ↦ .unit
  let made := world.allocate type info.name.full fields
  have taken : step program ⟨.construct type, waiting, compiledWorld world⟩ = _ :=
    step_construct here type'
  have evaluated : Evaluation.making (fun world ↦
        world.allocate type info.name.full (info.fields.map fun _ ↦ .unit)) (meantWorld world)
      = some (.ok made.1, meantWorld made.2) := by
    have fields' : info.fields.map (fun _ ↦ (.unit : Datum)) = fields.map meant := by
      rw [List.map_map]
      exact List.map_congr_left fun _ _ ↦ rfl
    rw [Evaluation.making, fields', WorldOver.allocate_recode]
  have initializer := type'.initializer
  rw [Meaning.construct, found]
  refine .congr ?_ (Evaluation.bind_eq_of_ok evaluated)
  -- the machine has a routine for the fields exactly if the evaluator has fields to give values
  cases routine : definition.initializer with
  | none =>
      rw [routine] at taken initializer
      rw [initializer]
      exact .step taken (.pure ⟨.object made.1, rfl, rfl⟩)
  | some index =>
      rw [routine] at taken initializer
      have fields : (!info.fields.isEmpty) = true := by
        rw [Bool.not_eq_true', List.isEmpty_eq_false_iff]
        exact initializer.1
      rw [fields]
      have active' : callDepth (.object (.object made.1) :: waiting) = depth := active
      refine .step taken (.bind (answers (.initializer here routine) [.object made.1] made.2
        active') ?_)
      rintro _ after next ⟨value, rfl, rfl⟩
      exact .step rfl (.pure ⟨.object made.1, rfl, rfl⟩)

end GuestScript.Meaning
