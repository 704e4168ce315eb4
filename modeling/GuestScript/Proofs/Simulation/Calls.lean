import GuestScript.Proofs.Compile.Lambdas
import GuestScript.Proofs.Simulation.Statements

/-!
# Calls do what they mean

A routine starts with its arguments in the first slots, which is where the variables are that its
body starts with. So the body of a function, of a lambda and of what gives fields their first values
does what the evaluator says of it, and since a call checks the number of its arguments and the limit
of active calls as the evaluator does, `answers_invoke` follows by induction on the fuel.
-/

namespace GuestScript.Meaning

open Bytecode (Op Routine RoutineIndex TypeIndex)
open Compile
open Machine
open Syntax

variable {program : Translated}

/-! ## The slots that a routine starts with -/

/-- Slots with arguments in the first of them and unit in the others. -/
def Slots.entered (size : Nat) (arguments : List (Twin program)) : Slots program :=
  (arguments ++ List.replicate (size - arguments.length) ValueOver.unit).toArray

/-- A routine is entered at its first instruction. -/
theorem enter_eq_frame {routine : Routine} {arguments : List (Twin program)}
    (waiting : List Waiting) (fits : arguments.length ≤ routine.locals) :
    Frame.enter routine (arguments.map compiled)
      = Activation.frame ⟨routine, waiting⟩ 0 (.entered routine.locals arguments) [] := by
  have whole : (arguments.map compiled).take routine.locals = arguments.map compiled := by
    rw [List.take_of_length_le]
    rwa [List.length_map]
  rw [Frame.enter, whole, Activation.frame, Slots.entered, List.map_toArray, List.map_append,
    List.map_replicate, List.length_map]
  rfl

theorem Slots.size_entered {size : Nat} {arguments : List (Twin program)}
    (fits : arguments.length ≤ size) : (Slots.entered size arguments).size = size := by
  rw [Slots.entered, List.size_toArray, List.length_append, List.length_replicate]
  omega

theorem Slots.entered_of_argument {size slot : Nat} {arguments : List (Twin program)}
    {value : Twin program} (given : arguments[slot]? = some value) :
    (Slots.entered size arguments)[slot]? = some value := by
  rw [Slots.entered, List.getElem?_toArray]
  rw [List.getElem?_append_left (List.getElem?_eq_some_iff.mp given).1]
  exact given

/-- The environment that a body starts with is that of its variables in slots. -/
theorem values_inSlots (slots : Slots program) : (binders : List (Variable Unit)) →
    (values : List (Twin program)) → (first : Nat) → values.length = binders.length →
    (∀ {index : Nat} {value : Twin program}, values[index]? = some value →
      slots[first + index]? = some value) →
    Scope.values (inSlots binders first) slots = (hold binders (values.map meant)).reverse
  | [], _, _, _, _ => rfl
  | _ :: _, [], _, length, _ => absurd length nofun
  | held :: binders, value :: values, first, length, placed => by
      have here : slots[first]? = some value := placed (rfl : (value :: values)[0]? = some value)
      have rest := values_inSlots slots binders values (first + 1)
        (Nat.succ.inj length) fun {index _} found ↦ by
          rw [Nat.add_assoc, Nat.add_comm 1 index]
          exact placed found
      have starts : hold (held :: binders) ((value :: values).map meant)
          = (held.hold fun _ ↦ meant value) :: hold binders (values.map meant) := rfl
      have last : slots.datum first = meant value := by
        rw [Slots.datum, here]
        rfl
      rw [Scope.values] at rest
      rw [starts, List.reverse_cons, ← rest, ← last, inSlots_cons, Scope.values, List.map_append]
      rfl

/-- Variables in slots stand where a routine starts. -/
theorem standing_inSlots {binders : List (Variable Unit)} {size first next : Nat}
    {slots : Slots program} {receiver : Receiver} {place : Option Nat} (sized : slots.size = size)
    (end' : first + binders.length ≤ next)
    (found : receiver.IsAt (inSlots binders first) next slots place) :
    Standing size receiver place (inSlots binders first) next slots := by
  refine ⟨sized, fun held inside ↦ ?_, ?_, found⟩
  · exact Nat.lt_of_lt_of_le (le_of_mem_inSlots inside).2 end'
  · rw [holders_inSlots]
    exact List.pairwise_reverse.mpr ((List.nodup_range' 1).imp Ne.symm)

/-- The oldest variable of a name is in the slot in which it is found. -/
theorem oldest?_inSlots {name : String} : {binders : List (Variable Unit)} → {first index : Nat} →
    binders.findIdx? (fun held ↦ held.name = name) = some index →
    ∃ held : Variable Nat, (inSlots binders first).oldest? name = some held ∧
      held.holder = first + index
  | [], _, _, found => absurd found nofun
  | held :: rest, first, index, found => by
      let placed : Variable Nat := held.hold fun _ ↦ first
      have reversed : (inSlots (held :: rest) first).reverse
          = placed :: (inSlots rest (first + 1)).reverse := by
        rw [inSlots_cons, List.reverse_append, List.reverse_singleton]
        rfl
      rw [List.findIdx?_cons] at found
      rw [Scope.oldest?, reversed, Scope.named?]
      by_cases same : held.name = name
      · rw [decide_eq_true same, if_pos rfl] at found
        obtain rfl := Option.some.inj found
        exact ⟨placed, List.find?_cons_of_pos (decide_eq_true same), rfl⟩
      · rw [decide_eq_false same, if_neg Bool.false_ne_true] at found
        obtain ⟨before, found', rfl⟩ := Option.map_eq_some_iff.mp found
        obtain ⟨last, oldest, holder⟩ := oldest?_inSlots found'
        refine ⟨last, (List.find?_cons_of_neg ?_).trans oldest, ?_⟩
        · rw [Bool.not_eq_true]
          exact decide_eq_false same
        · rw [holder, Nat.add_assoc, Nat.add_comm 1 before]

/-! ## Bodies -/

variable {setting : Setting} {context : Context} {activation : Activation} {scope inner : Scope Nat}
  {least next middle start : Nat} {slots : Slots program} {code : List Op}
  {stack : List Value} {world : TwinWorld program} {flow : Evaluation Flow}

/-- A routine whose body is not left answers unit. -/
theorem Runs.answer
    (runs : Runs setting context activation least scope next slots start code inner middle flow)
    (has : activation.routine.HasAt start (code ++ epilogue)) :
    Meets program least (activation.state start slots stack world) world (do
      let result ← flow
      pure result.answer) (IsAnswer activation.waiting) := by
  refine .bind (runs has.left stack world) ?_
  intro result world' state flows
  cases result with
  | left value => exact .pure flows
  | next environment =>
      obtain ⟨others, rfl, -, -, rfl⟩ := flows
      exact .retUnit has.right (.pure ⟨.unit, rfl, rfl⟩)

/-! ## Routines that do what a body says -/

/-- A routine does what the body of something says, on as many arguments as it takes. -/
structure Performs (program : Translated) (callee : Callee) (routine : Routine) : Prop where
  signature : callee.signature = (routine.name, routine.arity)
  body : ∀ {fuel : Nat} {call : Caller} {waiting : List Waiting},
    Answers program fuel (callDepth waiting + 1) call →
    ∀ (arguments : List (Twin program)) (world : TwinWorld program),
      arguments.length = routine.arity →
      Meets program fuel
        (Activation.state ⟨routine, waiting⟩ 0 (.entered routine.locals arguments) [] world) world
        (bodyOf program.references program.types call fuel callee (arguments.map meant))
        (IsAnswer waiting)

/-- There are slots for the arguments of a routine. -/
theorem size_entered_of_routine {index : RoutineIndex} {routine : Routine}
    (found : program.image.routines[index]? = some routine) {arguments : List (Twin program)}
    (length : arguments.length = routine.arity) :
    (Slots.entered routine.locals arguments).size = routine.locals := by
  refine Slots.size_entered ?_
  rw [length]
  exact program.verified.arity routine (Array.mem_of_getElem? found)

/-- The context in which the body of a function is evaluated. -/
def functionContext (program : Translated) (call : Caller) (fuel : Nat) (owner : TypeIndex)
    (info : TypeInfo) (method : MethodInfo) (receiver : Receiver) : Context :=
  let site := { siteOf program.references program.types owner info with
    hasReceiver := !method.isStatic, result := method.result }
  ⟨site, method.name, receiver, call, fuel⟩

/-- The setting of the body of a function, with an instance in this slot. -/
def functionSetting (program : Translated) (owner : TypeIndex) (info : TypeInfo)
    (method : MethodInfo) (place : Option Nat) : Setting :=
  { settingOf program.references program.types owner info with
    routineName := method.name
    result := method.result
    receiver := place }

section Functions

variable {owner : TypeIndex} {info : TypeInfo} {method : MethodInfo} {call : Caller} {fuel : Nat}

variable (owner info) in
theorem follows_function {routine : Routine} {waiting : List Waiting} (receiver : Receiver)
    {place : Option Nat} (member : routine ∈ program.image.routines)
    (present : place.isSome = !method.isStatic)
    (answers : Answers program fuel (callDepth waiting + 1) call) :
    Follows program (functionSetting program owner info method place)
      (functionContext program call fuel owner info method receiver) ⟨routine, waiting⟩ := by
  refine ⟨member, rfl, rfl, ?_, rfl, answers⟩
  rw [functionContext, ← present]
  rfl

theorem functionBody_static (found : program.types[owner]? = some info)
    (static : method.isStatic = true) (arguments : List Datum) :
    functionBody program.references program.types call fuel owner method arguments = (do
      let flow ← block (functionContext program call fuel owner info method .absent)
        (hold (parametersOf method) arguments).reverse
        (lambdasBeforeMethod program.types owner method.name) method.declaration.body
      pure flow.answer) := by
  simp only [functionBody, found, static]
  rw [functionContext, static]
  rfl

theorem functionBody_instance (found : program.types[owner]? = some info)
    (instance' : method.isStatic = false) (receiver : Datum) (arguments : List Datum) :
    functionBody program.references program.types call fuel owner method (receiver :: arguments)
      = (do
        let flow ← block (functionContext program call fuel owner info method (.given receiver))
          (hold (parametersOf method) arguments).reverse
          (lambdasBeforeMethod program.types owner method.name) method.declaration.body
        pure flow.answer) := by
  simp only [functionBody, found, instance']
  rw [functionContext, instance']
  rfl

theorem performs_function (found : program.types[owner]? = some info)
    (inside : method ∈ info.methods) :
    ∃ routine, program.image.routines[method.routine]? = some routine ∧
      Performs program (.function owner method) routine := by
  obtain ⟨definition, -, code⟩ := program.code.type found
  cases code.method method inside with
  | @mk code locals here named _ translated =>
      generalize same : ({ routineOf owner method.declaration method.parameters with
        code := (code ++ epilogue).toArray, locals } : Routine) = routine at here
      have settled : (Callee.function owner method).signature = (routine.name, routine.arity) ∧
          routine.code = (code ++ epilogue).toArray ∧ routine.locals = locals := by
        rw [← same]
        exact ⟨rfl, rfl, rfl⟩
      obtain ⟨signature, code', rfl⟩ := settled
      refine ⟨routine, here, signature, ?_⟩
      intro fuel call waiting answers arguments world length
      have has : routine.HasAt 0 (code ++ epilogue) := .of_code code'
      have size := size_entered_of_routine here length
      have member : routine ∈ program.image.routines := Array.mem_of_getElem? here
      have binders := length_parametersOf named
      have arity : routine.arity = method.parameters.length + if method.isStatic then 0 else 1 :=
        (Prod.mk.inj signature).2.symm
      rw [arity] at length
      -- the instance that a function works on takes the first slot, and moves its parameters by one
      cases static : method.isStatic with
      | true =>
          rw [static, if_pos rfl, ← binders] at length
          simp only [static, if_pos] at translated
          have placed := values_inSlots (.entered routine.locals arguments) _ arguments 0
            length fun {index _} found ↦ by
              rw [Nat.zero_add]
              exact Slots.entered_of_argument found
          rw [bodyOf, functionBody_static found static, ← placed]
          have follows := follows_function owner info .absent member
            (show Option.isSome none = !method.isStatic by rw [static]; rfl) answers
          refine Runs.answer (runs_block follows method.declaration.body ?_ translated) has
          exact standing_inSlots size (by rw [binders]; omega) .absent
      | false =>
          rw [static, if_neg Bool.false_ne_true, ← binders] at length
          simp only [static, Bool.false_eq_true, if_neg, not_false_iff] at translated
          obtain ⟨receiver, values, rfl⟩ := List.exists_cons_of_length_eq_add_one length
          have placed := values_inSlots (.entered routine.locals (receiver :: values)) _
            values 1 (Nat.succ.inj length) fun {index _} found ↦ by
              rw [Nat.add_comm]
              exact Slots.entered_of_argument found
          rw [bodyOf, List.map_cons, functionBody_instance found static, ← placed]
          have follows := follows_function owner info (.given (meant receiver))
            member (show Option.isSome (some 0) = !method.isStatic by rw [static]; rfl) answers
          refine Runs.answer (runs_block follows method.declaration.body ?_ translated) has
          refine standing_inSlots size (by rw [binders]; exact Nat.le_of_eq (Nat.add_comm ..)) ?_
          refine .given (Nat.succ_pos _) (fun held inside ↦ ?_)
            (Slots.entered_of_argument (rfl : (receiver :: values)[0]? = some receiver))
          exact Nat.ne_of_gt (le_of_mem_inSlots inside).1

end Functions

/-! ## Lambdas -/

section Lambdas

variable {text : Lambda} {call : Caller} {fuel : Nat}

/-- The context in which the body of a lambda is evaluated. -/
def lambdaContext (call : Caller) (fuel : Nat) (text : Lambda) : Context :=
  ⟨text.site, text.name, if text.site.hasReceiver then .copied else .absent, call, fuel⟩

/-- The instance that a lambda works on is among its copies, which come in the first slots. -/
theorem receiver_lambda (ofText : text.IsOf program) :
    (lambdaContext call fuel text).receiver.IsAt text.scope text.arity slots
      text.setting.receiver := by
  rw [lambdaContext, ofText.receiver]
  cases place : text.setting.receiver with
  | none => exact .absent
  | some slot =>
      have found : (text.copies ++ text.parameters).findIdx?
          (fun copy ↦ copy.name = Mentions.receiverName) = some slot := by
        rw [List.findIdx?_append]
        change text.copies.findIdx? _ = some slot at place
        rw [place]
        rfl
      obtain ⟨held, oldest, holder⟩ : ∃ held : Variable Nat,
          text.scope.oldest? Mentions.receiverName = some held ∧ held.holder = 0 + slot :=
        oldest?_inSlots found
      rw [← Nat.zero_add slot, ← holder]
      exact .copied oldest

theorem performs_lambda {index : RoutineIndex} (compiles : LambdaCode program index text)
    (ofText : text.IsOf program) :
    ∃ routine, program.image.routines[index]? = some routine ∧
      Performs program (.lambda text) routine := by
  cases compiles with
  | @mk _ _ body locals here translated =>
      refine ⟨_, here, rfl, ?_⟩
      intro fuel call waiting answers arguments world length
      let activation : Activation := ⟨text.routine body locals, waiting⟩
      have has : activation.routine.HasAt 0 (body ++ epilogue) := .of_code rfl
      have binders : (text.copies ++ text.parameters).length = text.arity := List.length_append
      -- copies come first, so the arguments of the machine are the variables in their order
      have placed := values_inSlots (.entered locals arguments) (text.copies ++ text.parameters)
        arguments 0 (length.trans binders.symm) fun {index _} found ↦ by
          rw [Nat.zero_add]
          exact Slots.entered_of_argument found
      have follows : Follows program text.setting (lambdaContext call fuel text) activation := by
        refine ⟨Array.mem_of_getElem? here, ofText.references, ofText.types, ?_, rfl, answers⟩
        rw [Setting.site, ← ofText.receiver]
        rfl
      have holds : Holds text.setting (lambdaContext call fuel text) activation text.scope
          text.arity (.entered locals arguments) :=
        standing_inSlots (size_entered_of_routine here length)
          (by rw [Nat.zero_add]; exact Nat.le_of_eq binders) (receiver_lambda ofText)
      rw [bodyOf, lambdaBody, ← placed]
      generalize text.body = inside at translated
      cases translated with
      | expression value _ =>
          have computes := computes_expression follows holds _ value has.left.left
          refine (computes has.left.left [] world).follow ?_
          rintro _ after _ ⟨value, rfl, rfl⟩
          exact ⟨_, .single (step_state has.left.right.op), value, rfl, rfl⟩
      | block inside => exact Runs.answer (runs_block follows _ holds inside) has

end Lambdas

/-! ## First values of fields -/

/-- The first value of a field without an expression is pushed by one instruction. -/
theorem computes_defaultValue (type : Ty) :
    Computes activation least slots start [defaultValue type] (pure (firstValue type)) := by
  cases type with
  | int => exact .push (.int 0)
  | bool => exact .push (.bool false)
  | str => exact .push (.str "")
  | array element => exact .array .nil
  | _ => exact .push .unit

/-- A field of what is in the first slot is given its first value, and then the others are. -/
theorem fills_field {position : Nat} {others : List Op} {one : Evaluation Datum}
    {filling : Evaluation Unit} (inside : 0 < slots.size)
    (value : Computes activation least slots (start + 1) code one)
    (has : activation.routine.HasAt start
      ([Op.load 0] ++ code ++ [Op.storeField position] ++ others))
    (rest : activation.routine.HasAt (start + code.length + 2) others → ∀ world : TwinWorld program,
      Meets program least (activation.state (start + code.length + 2) slots stack world) world filling
        fun _ after next ↦
          next = activation.state (start + code.length + 2 + others.length) slots stack after) :
    Meets program least (activation.state start slots stack world) world (do
        let value ← one
        writeField (slots.datum 0) position value
        filling)
      fun _ after next ↦ next = activation.state
        (start + ([Op.load 0] ++ code ++ [Op.storeField position] ++ others).length) slots stack
        after := by
  have length : start + ([Op.load 0] ++ code ++ [Op.storeField position]).length
      = start + code.length + 2 := by
    rw [length_parts, List.length_singleton]
    omega
  have next : start + 1 + code.length + 1 = start + code.length + 2 := by omega
  have behind := has.right
  rw [length] at behind
  rw [List.length_append, ← Nat.add_assoc, length, ← bind_assoc]
  refine .bind (value.writeField inside has.left) ?_
  rintro _ world' _ rfl
  rw [next]
  exact rest behind world'

/-- Fields are given their first values one after the other. -/
theorem fills_fields (follows : Follows program setting context activation)
    (holds : Holds setting context activation [] 1 slots) (inside : 0 < slots.size) :
    (fields : List FieldInfo) → {number position start : Nat} → {code : List Op} →
    FieldsCode program setting number fields position start code →
    activation.routine.HasAt start code → (world : TwinWorld program) →
    Meets program context.fuel (activation.state start slots stack world) world
      (fillFields context (slots.datum 0) number fields position)
      fun _ after next ↦ next = activation.state (start + code.length) slots stack after
  | [], _, _, _, _, translated, _, world => by
      cases translated
      exact .pure rfl
  | field :: rest, _, _, _, _, translated, has, world => by
      rw [fillFields]
      cases translated with
      | given found value _ others =>
          have first := computes_expression follows holds _ value has.left.parts.2.1
          simp only [found, Option.map_some, Option.getD_some]
          exact fills_field inside first has fun has' world' ↦
            fills_fields follows holds inside rest others has' world'
      | default found others =>
          simp only [found, Option.map_none, Option.getD_none, Nat.add_zero]
          exact fills_field inside (computes_defaultValue field.type) has fun has' world' ↦
            fills_fields follows holds inside rest others has' world'

/-- The context in which the fields of a type are given their first values. -/
def initializerContext (program : Translated) (call : Caller) (fuel : Nat) (type : TypeIndex)
    (info : TypeInfo) (object : Datum) : Context :=
  let site := { siteOf program.references program.types type info with hasReceiver := true }
  ⟨site, initializerName, .given object, call, fuel⟩

theorem initializerBody_eq {type : TypeIndex} {info : TypeInfo} {call : Caller} {fuel : Nat}
    (found : program.types[type]? = some info) (object : Datum) :
    initializerBody program.references program.types call fuel type [object] = (do
      fillFields (initializerContext program call fuel type info object) object
        (lambdasBeforeFields program.types type) info.fields 0
      pure .unit) := by
  simp only [initializerBody, found]
  rfl

theorem performs_initializer {type : TypeIndex} {definition : Bytecode.TypeDefinition}
    {index : RoutineIndex} (found : program.image.types[type]? = some definition)
    (starts : definition.initializer = some index) :
    ∃ routine, program.image.routines[index]? = some routine ∧
      Performs program (.initializer type) routine := by
  have inside : type < program.types.length := by
    rw [← program.code.size]
    exact (Array.getElem?_eq_some_iff.mp found).1
  have known : program.types[type]? = some program.types[type] := List.getElem?_eq_getElem inside
  obtain ⟨_, found', code⟩ := program.code.type known
  obtain rfl := Option.some.inj (found.symm.trans found')
  have initializer := code.initializer
  rw [starts] at initializer
  obtain ⟨-, @⟨text, here, translated⟩⟩ := initializer
  let routine : Routine := { initializerRoutine type with code := (text ++ epilogue).toArray }
  have has : routine.HasAt 0 (text ++ epilogue) := .of_code rfl
  refine ⟨routine, here, rfl, ?_⟩
  intro fuel call waiting answers arguments world length
  obtain ⟨object, rfl⟩ := List.length_eq_one_iff.mp length
  have size : (Slots.entered 1 [object]).size = 1 := size_entered_of_routine here rfl
  have first : (Slots.entered 1 [object])[0]? = some object := Slots.entered_of_argument rfl
  have same : (Slots.entered 1 [object]).datum 0 = meant object := by
    rw [Slots.datum, first]
    rfl
  let context := initializerContext program call fuel type program.types[type] (meant object)
  let setting : Setting :=
    { settingOf program.references program.types type program.types[type] with receiver := some 0 }
  have follows : Follows program setting context ⟨routine, waiting⟩ :=
    ⟨Array.mem_of_getElem? here, rfl, rfl, rfl, rfl, answers⟩
  have holds : Holds setting context ⟨routine, waiting⟩ [] 1 (.entered 1 [object]) :=
    ⟨size, (fun _ same ↦ by cases same), .nil,
      .given Nat.one_pos (fun _ same ↦ by cases same) first⟩
  have inside' : 0 < (Slots.entered 1 [object]).size := by
    rw [size]
    exact Nat.one_pos
  rw [bodyOf, List.map_singleton, initializerBody_eq known, ← same]
  refine .bind (fills_fields follows holds inside' _ translated has.left world) ?_
  rintro _ after _ rfl
  exact .retUnit has.right (.pure ⟨.unit, rfl, rfl⟩)

/-! ## Calls -/

/-- What has a routine is performed by it. -/
theorem performs_of_hasRoutine {callee : Callee} {index : RoutineIndex}
    (has : callee.HasRoutine program index) :
    ∃ routine, program.image.routines[index]? = some routine ∧
      Performs program callee routine := by
  cases has with
  | function found inside => exact performs_function found inside
  | initializer found starts => exact performs_initializer found starts
  | lambda compiles ofText => exact performs_lambda compiles ofText

/-- Calls do what they mean, with as much fuel as there is. -/
theorem answers_invoke (program : Translated) : (fuel active : Nat) →
    Answers program fuel active (invoke program.references program.types fuel active)
  | 0, _, _, _, _, _, _, _, _ => .unanswered rfl (.zero _)
  | fuel + 1, active, callee, index, has, arguments, waiting, world, depth => by
      obtain ⟨routine, found, performs⟩ := performs_of_hasRoutine has
      have taken : step program ⟨.call index (arguments.map compiled), waiting, compiledWorld world⟩
          = startCall program index (arguments.map compiled) waiting (compiledWorld world) := rfl
      rw [startCall, found] at taken
      simp only [List.length_map] at taken
      rw [invoke, performs.signature]
      simp only [List.length_map]
      by_cases arity : arguments.length = routine.arity
      · rw [if_neg (not_not.mpr arity)] at taken ⊢
        rw [depth] at taken
        by_cases deep : maxCallDepth ≤ active
        · rw [if_pos deep] at taken ⊢
          exact .settled_error taken
        · rw [if_neg deep] at taken ⊢
          have fits : arguments.length ≤ routine.locals := by
            rw [arity]
            exact program.verified.arity routine (Array.mem_of_getElem? found)
          rw [enter_eq_frame waiting fits] at taken
          subst depth
          exact .succ taken (performs.body (answers_invoke program fuel _) arguments world arity)
      · rw [if_pos arity] at taken ⊢
        exact .settled_error taken

end GuestScript.Meaning
