import GuestScript.Proofs.Compile.Origins
import GuestScript.Proofs.Meaning.Answers
import GuestScript.Proofs.Simulation.Calls

/-!
# Evaluation without `while` ends

An expression without `while` has an answer if the calls that it makes do, and so has a statement: a
loop over elements visits those that it has been given at the start, so the induction is on the syntax
alone. A call inside another counts against the limit of active calls, and beyond that it ends with a
fault. So the induction over calls is on how many more may be active, and as much fuel is enough:
`serves_invoke`.
-/

namespace GuestScript

namespace Compile

/-- A type that a name means is there. -/
theorem TypeName.lt_of_find? {names : List TypeName} {name namespaceName : String}
    {index : Bytecode.TypeIndex} (found : TypeName.find? names name namespaceName = some index) :
    index < names.length := by
  unfold find? at found
  split at found
  · next here =>
      obtain rfl := Option.some.inj found
      exact (List.findIdx?_eq_some_iff_findIdx_eq.mp here).1
  · exact (List.findIdx?_eq_some_iff_findIdx_eq.mp found).1

end Compile

namespace Meaning

open Bytecode (Op RoutineIndex TypeIndex)
open Compile
open Machine
open Syntax

variable {program : Translated}

/-- What is called has a routine, and there is no `while` in it if it is a lambda. -/
structure Callee.IsWhileFree (program : Translated) (callee : Callee) : Prop where
  routine : ∃ index, callee.HasRoutine program index
  free : ∀ code, callee = .lambda code → code.body.isWhileFree = true

theorem Callee.IsWhileFree.of_member {owner : TypeIndex} {method : MethodInfo}
    (member : IsMember program.types owner method) :
    Callee.IsWhileFree program (.function owner method) :=
  ⟨⟨_, .of_member member⟩, nofun⟩

theorem Callee.IsWhileFree.of_callable {Holder : Type} {site : Site} {scope : Scope Holder}
    {segments : List Identifier} {owner : TypeIndex} {method : MethodInfo}
    (types : site.types = program.types)
    (found : callable? site scope segments = some (.function owner method)) :
    Callee.IsWhileFree program (.function owner method) :=
  ⟨⟨_, .of_callable types found⟩, nofun⟩

/-- The fields of a type are given their first values by a routine if there are some. -/
theorem Callee.IsWhileFree.of_fields {type : TypeIndex} {info : TypeInfo}
    (found : program.types[type]? = some info) (some : info.fields ≠ []) :
    Callee.IsWhileFree program (.initializer type) := by
  obtain ⟨definition, here, code⟩ := program.code.type found
  have initializer := code.initializer
  cases routine : definition.initializer with
  | none =>
      rw [routine] at initializer
      exact absurd initializer some
  | some index => exact ⟨⟨index, .initializer here routine⟩, nofun⟩

/-- The closures of an accepted program without `while` run lambdas without it. -/
abbrev Allowed (program : Translated) : Lambda → Prop :=
  Lambdas (Callee.IsWhileFree program)

/-- An evaluation has a value, unless it ends with a fault. -/
abbrev HasValue (program : Translated) (evaluation : Evaluation Datum) : Prop :=
  Yields (Allowed program) evaluation fun value ↦ value.Over (Allowed program)

/-- An evaluation has values, unless it ends with a fault. -/
abbrev HasValues (program : Translated) (evaluation : Evaluation (List Datum)) : Prop :=
  Yields (Allowed program) evaluation (AllOver (Callee.IsWhileFree program))

/-- The evaluator works on a body of a program, and the calls that it makes are answered. -/
structure Works (program : Translated) (setting : Setting) (context : Context) : Prop where
  references : setting.references = program.references
  types : setting.types = program.types
  site : context.site = setting.site
  name : context.name = setting.routineName
  serves : Serves (Callee.IsWhileFree program) context.call

/-- The environment of a body has values for the variables in scope. -/
abbrev Stands (program : Translated) (setting : Setting) (context : Context) (scope : Scope Nat)
    (environment : Environment) : Prop :=
  Suits (Allowed program) context.receiver setting.receiver scope environment

/-- A statement of a body ends, and leaves values for the variables in scope behind it. -/
abbrev HasFlow (program : Translated) (setting : Setting) (context : Context) (scope : Scope Nat)
    (evaluation : Evaluation Flow) : Prop :=
  Yields (Allowed program) evaluation
    (Flow.Fits (Allowed program) context.receiver setting.receiver scope)

variable {setting : Setting} {context : Context} {scope inner : Scope Nat}
  {environment : Environment} {next middle after number start : Nat} {code : List Op}
  {expected : Option Ty}

/-! ## Expressions -/

/-- An array has its items, and a function its arguments. -/
theorem HasValues.cons {one : Evaluation Datum} {others : Evaluation (List Datum)}
    (first : HasValue program one) (rest : HasValues program others) :
    HasValues program (do
      let value ← one
      pure (value :: (← others))) :=
  .bind first fun _ here ↦ .bind rest fun _ given ↦ .pure (List.forall_mem_cons.mpr ⟨here, given⟩)

/-- A lambda becomes a closure that runs it. -/
theorem Works.hasValue_lambda (works : Works program setting context)
    (stands : Stands program setting context scope environment) {parameters : List Identifier}
    {body : LambdaBody} {index : RoutineIndex} {copies : List (Variable Nat)}
    (free : body.isWhileFree = true)
    (copied : copies = captures setting.ownerType setting.receiver parameters scope body)
    (compiles : LambdaCode program index (lambdaCode setting.site setting.routineName (number + 1)
      (Scope.typing copies) parameters body expected)) :
    HasValue program (makeLambda context environment number parameters body expected) := by
  have typing := stands.typing_captures setting.ownerType parameters body
  rw [← copied] at typing
  have isOf : (lambdaCode setting.site setting.routineName (number + 1) (Scope.typing copies)
      parameters body expected).IsOf program :=
    ⟨works.references, works.types, (List.findIdx?_isSome ..).symm⟩
  have permitted : Allowed program (lambdaCode setting.site setting.routineName (number + 1)
      (Scope.typing copies) parameters body expected) :=
    ⟨⟨index, .lambda compiles isOf⟩, fun _ same ↦ Callee.lambda.inj same ▸ free⟩
  rw [makeLambda, works.site, works.name]
  change HasValue program (do
    let closure ← Evaluation.making fun world ↦ world.makeClosure (lambdaCode setting.site
      setting.routineName (number + 1) (Scope.typing (captures setting.ownerType
        (context.receiver.find? environment) parameters environment body)) parameters body expected)
      ((captures setting.ownerType (context.receiver.find? environment) parameters environment
        body).map Variable.holder)
    pure (.closure closure))
  rw [typing]
  refine .bind (yields_makeClosure permitted ?_) fun _ kept ↦ .pure (ValueOver.over_closure.mpr kept)
  exact List.forall_mem_map.mpr fun copy inside ↦ stands.over_captures inside

/-- A call has a value if what is called and the arguments have values. -/
theorem Works.hasValue_call (works : Works program setting context)
    (stands : Stands program setting context scope environment) {callee : Expression}
    {values : List Expression} {span : Span}
    (translated : ExpressionCode program setting scope number (.call callee values span) expected
      start code)
    (first : ∀ {code : List Op},
      ExpressionCode program setting scope number callee none start code →
      HasValue program (expression context environment number callee none))
    (given : ∀ {number start : Nat} {parameters : List Ty} {code : List Op},
      ArgumentsCode program setting scope number values parameters none start code →
      HasValues program (arguments context environment number values parameters none)) :
    HasValue program (expression context environment number (.call callee values span) expected) := by
  cases translated with
  | callVariable found _ others =>
      obtain ⟨value, here, kept⟩ := stands.callable?_value found
      rw [expression, works.site]
      simp only [here]
      exact .bind (given others) fun _ passed ↦ works.serves.callDatum kept passed
  | callStatic found static _ others =>
      rw [expression, works.site]
      simp only [stands.callable?_function found, callFunction, static, if_true]
      exact .bind (given others) fun _ passed ↦ works.serves.answers (.of_callable works.types found) passed
  | callOwn found static _ receiver _ others =>
      obtain ⟨object, here, kept⟩ := stands.find? receiver
      rw [expression, works.site]
      simp only [stands.callable?_function found, callFunction, static, Bool.false_eq_true, if_false,
        here]
      exact .bind (given others) fun _ passed ↦
        works.serves.answers (.of_callable works.types found) (List.forall_mem_cons.mpr ⟨kept, passed⟩)
  | callHost found _ _ others =>
      rw [expression, works.site]
      simp only [stands.callable?_host found]
      exact .bind (given others) fun _ passed ↦ works.serves.callHost _ _ passed
  | callValue other translated _ others =>
      rw [expression_call_value other, works.site, stands.typing]
      exact .bind (first translated) fun _ kept ↦ .bind (given others) fun _ passed ↦
        works.serves.callDatum kept passed

mutual

/-- An expression has a value or ends with a fault. -/
theorem hasValue_expression (works : Works program setting context)
    (stands : Stands program setting context scope environment) : (value : Expression) →
    value.isWhileFree = true → {number start : Nat} → {expected : Option Ty} → {code : List Op} →
    ExpressionCode program setting scope number value expected start code →
    HasValue program (expression context environment number value expected)
  | .int value _, _, _, _, _, _, _ => by
      rw [expression]
      exact .pure (ValueOver.over_int value)
  | .str value _, _, _, _, _, _, _ => by
      rw [expression]
      exact .pure (ValueOver.over_str value)
  | .bool value _, _, _, _, _, _, _ => by
      rw [expression]
      exact .pure (ValueOver.over_bool value)
  | .array values _, free, _, _, _, _, translated => by
      cases translated with
      | array items =>
          rw [Expression.isWhileFree] at free
          rw [expression]
          exact .bind (hasValues_items works stands values free items) fun _ given ↦
            .pure (ValueOver.over_array.mpr given)
  | .receiver _, _, _, _, _, _, translated => by
      cases translated with
      | receiver found =>
          obtain ⟨value, here, kept⟩ := stands.find? found
          rw [expression]
          simp only [here]
          exact .pure kept
  | .path _ _, _, _, _, _, _, translated => by
      cases translated with
      | path found =>
          obtain ⟨value, here, kept⟩ := stands.named? found
          rw [expression]
          simp only [here]
          exact .pure kept
  | .call callee values span, free, _, _, _, _, translated => by
      rw [Expression.isWhileFree, Bool.and_eq_true] at free
      exact works.hasValue_call stands translated
        (fun first ↦ hasValue_expression works stands callee free.1 first)
        (fun others ↦ hasValues_arguments works stands values free.2 others)
  | .method target name values _, free, _, _, _, _, translated => by
      rw [Expression.isWhileFree, Bool.and_eq_true] at free
      cases translated with
      | method first found _ _ others =>
          have member : IsMember program.types _ _ := isMember_of_methodOn (works.types ▸ found)
          rw [expression]
          simp only [works.site, stands.typing, Setting.site] at found ⊢
          simp only [found]
          exact .bind (hasValue_expression works stands target free.1 first) fun _ kept ↦
            .bind (hasValues_arguments works stands values free.2 others) fun _ passed ↦
              works.serves.answers (.of_member member) (List.forall_mem_cons.mpr ⟨kept, passed⟩)
  | .field target name _, free, _, _, _, _, translated => by
      rw [Expression.isWhileFree] at free
      cases translated with
      | field first found =>
          rw [expression]
          simp only [works.site, stands.typing, Setting.site] at found ⊢
          simp only [found]
          exact .bind (hasValue_expression works stands target free first) fun _ kept ↦
            yields_readField kept _
  | .element target index _, free, _, _, _, _, translated => by
      rw [Expression.isWhileFree, Bool.and_eq_true] at free
      cases translated with
      | element first _ second _ =>
          rw [expression]
          exact .bind (hasValue_expression works stands target free.1 first) fun _ array ↦
            .bind (hasValue_expression works stands index free.2 second) fun _ position ↦
              .settled fun _ found ↦ itemOf_over array position found
  | .construct name _, _, _, _, _, _, translated => by
      cases translated with
      | construct found =>
          have inside := TypeName.lt_of_find? found
          rw [List.length_map, Setting.site, works.types] at inside
          have here := List.getElem?_eq_getElem inside
          rw [expression, works.site]
          simp only [found]
          rw [Setting.site, works.types]
          exact works.serves.construct here fun some ↦ .of_fields here some
  | .lambda parameters body _, free, _, _, _, _, translated => by
      rw [Expression.isWhileFree] at free
      cases translated with
      | lambda copied compiles =>
          rw [expression]
          exact works.hasValue_lambda stands free copied compiles
  | .unary operator operand _, free, _, _, _, _, translated => by
      rw [Expression.isWhileFree] at free
      cases translated with
      | unary first _ =>
          rw [expression]
          exact .bind (hasValue_expression works stands operand free first) fun _ kept ↦
            .settled fun _ applied ↦ applyUnary_over kept applied
  | .binary operator left right _, free, _, _, _, _, translated => by
      rw [Expression.isWhileFree, Bool.and_eq_true] at free
      cases translated with
      | and first _ second _ =>
          rw [expression]
          refine .bind (hasValue_expression works stands left free.1 first) fun value _ ↦
            .bind (.condition value) fun holds _ ↦ ?_
          cases holds with
          | true => exact hasValue_expression works stands right free.2 second
          | false => exact .pure (ValueOver.over_bool false)
      | or first _ second _ =>
          rw [expression]
          refine .bind (hasValue_expression works stands left free.1 first) fun value _ ↦
            .bind (.condition value) fun holds _ ↦ ?_
          cases holds with
          | true => exact .pure (ValueOver.over_bool true)
          | false => exact hasValue_expression works stands right free.2 second
      | binary notAnd notOr first second _ =>
          rw [expression_binary notAnd notOr]
          exact .bind (hasValue_expression works stands left free.1 first) fun _ kept ↦
            .bind (hasValue_expression works stands right free.2 second) fun _ kept' ↦
              .settled fun _ applied ↦ applyBinary_over kept kept' applied

/-- The items of an array have values. -/
theorem hasValues_items (works : Works program setting context)
    (stands : Stands program setting context scope environment) : (values : List Expression) →
    areWhileFree values = true → {number start : Nat} → {wanted : Option Ty} → {code : List Op} →
    ItemsCode program setting scope number values wanted start code →
    HasValues program (items context environment number values wanted)
  | [], _, _, _, _, _, _ => by
      rw [items]
      exact .pure nofun
  | item :: rest, free, _, _, _, _, translated => by
      rw [areWhileFree, Bool.and_eq_true] at free
      rw [items, works.site, stands.typing]
      cases translated with
      | first first others | cons first _ others =>
          exact .cons (hasValue_expression works stands item free.1 first)
            (hasValues_items works stands rest free.2 others)

/-- Arguments have values. -/
theorem hasValues_arguments (works : Works program setting context)
    (stands : Stands program setting context scope environment) : (values : List Expression) →
    areWhileFree values = true → {number start : Nat} → {parameters : List Ty} →
    {binding : Option Ty} → {code : List Op} →
    ArgumentsCode program setting scope number values parameters binding start code →
    HasValues program (arguments context environment number values parameters binding)
  | [], _, _, _, _, _, _, _ => by
      rw [arguments]
      exact .pure nofun
  | argument :: rest, free, _, _, _, _, _, translated => by
      rw [areWhileFree, Bool.and_eq_true] at free
      cases translated with
      | beyond first others =>
          rw [arguments]
          exact .cons (hasValue_expression works stands argument free.1 first)
            (hasValues_arguments works stands rest free.2 others)
      | cons first _ others =>
          rw [arguments, works.site, stands.typing]
          exact .cons (hasValue_expression works stands argument free.1 first)
            (hasValues_arguments works stands rest free.2 others)

end

/-! ## Statements -/

mutual

/-- A block ends, and forgets its variables. -/
theorem hasFlow_block (works : Works program setting context) : (body : Block) →
    body.isWhileFree = true → {scope : Scope Nat} → {next number start after : Nat} →
    {environment : Environment} → {code : List Op} →
    Stands program setting context scope environment →
    BlockCode program setting scope next number body start code after →
    HasFlow program setting context scope (block context environment number body)
  | .mk body _, free, _, _, _, _, _, _, _, stands, translated => by
      rw [Block.isWhileFree] at free
      cases translated with
      | mk inside =>
          rw [block]
          exact .bind (hasFlow_statements works body free stands inside) fun _ fits ↦
            .pure (fits.leaveScope stands (extends_of_statementsCode body inside))

/-- Statements end one after the other. -/
theorem hasFlow_statements (works : Works program setting context) : (body : List Statement) →
    statementsAreWhileFree body = true → {scope inner : Scope Nat} →
    {next number start middle : Nat} → {environment : Environment} → {code : List Op} →
    Stands program setting context scope environment →
    StatementsCode program setting scope next number body start code inner middle →
    HasFlow program setting context inner (statements context environment number body)
  | [], _, _, _, _, _, _, _, _, _, stands, translated => by
      cases translated with
      | nil =>
          rw [statements]
          exact .pure stands
  | first :: rest, free, _, _, _, _, _, _, _, _, stands, translated => by
      rw [statementsAreWhileFree, Bool.and_eq_true] at free
      cases translated with
      | cons first' rest' =>
          rw [statements]
          refine .bind (hasFlow_statement works first free.1 stands first') fun flow fits ↦ ?_
          cases flow with
          | next later => exact hasFlow_statements works rest free.2 fits rest'
          | left value => exact .pure fits

/-- A statement ends. -/
theorem hasFlow_statement (works : Works program setting context) : (one : Statement) →
    one.isWhileFree = true → {scope inner : Scope Nat} → {next number start middle : Nat} →
    {environment : Environment} → {code : List Op} →
    Stands program setting context scope environment →
    StatementCode program setting scope next number one start code inner middle →
    HasFlow program setting context inner (statement context environment number one)
  | .declare name written value _, free, _, _, _, _, _, _, _, _, stands, translated => by
      rw [Statement.isWhileFree] at free
      cases translated with
      | declare first _ =>
          rw [statement, works.site, stands.typing]
          exact .bind (hasValue_expression works stands value free first) fun _ kept ↦
            .pure (stands.declare _ _ _ kept)
  | .assign (.binding name) value _, free, _, _, _, _, _, _, _, _, stands, translated => by
      rw [Statement.isWhileFree] at free
      cases translated with
      | assign found first _ =>
          obtain ⟨_, here, -⟩ := stands.named? found
          rw [statement]
          simp only [here]
          exact .bind (hasValue_expression works stands value free first) fun _ kept ↦
            .pure (stands.assign _ kept)
  | .assign (.field name) value _, free, _, _, _, _, _, _, _, _, stands, translated => by
      rw [Statement.isWhileFree] at free
      cases translated with
      | assignField receiver found first _ =>
          obtain ⟨object, here, kept⟩ := stands.find? receiver
          rw [statement, here, works.site]
          simp only [Setting.site, found]
          exact .bind (hasValue_expression works stands value free first) fun _ kept' ↦
            .bind (yields_writeField kept _ kept') fun _ _ ↦ .pure stands
  | .forEach binding iterable body _, free, _, _, _, _, _, _, _, _, stands, translated => by
      rw [Statement.isWhileFree, Bool.and_eq_true] at free
      cases translated with
      | forEach first found inside =>
          rw [statement, works.site, stands.typing]
          simp only [found, Option.getD_some]
          exact .bind (hasValue_expression works stands iterable free.1 first) fun _ kept ↦
            .bind (works.serves.elementsOf kept) fun elements given ↦
              yields_visit (fun stands ↦ hasFlow_block works body free.2 stands inside) elements given
                stands
  | .whileLoop .., free, _, _, _, _, _, _, _, _, _, _ => absurd free Bool.false_ne_true
  | .conditional test body other _, free, _, _, _, _, _, _, _, _, stands, translated => by
      rw [Statement.isWhileFree, Bool.and_eq_true, Bool.and_eq_true] at free
      obtain ⟨⟨test', body'⟩, other'⟩ := free
      rw [statement]
      cases translated with
      | ifTrue first _ inside =>
          refine .bind (hasValue_expression works stands test test' first) fun value _ ↦
            .bind (.condition value) fun holds _ ↦ ?_
          cases holds with
          | true => exact hasFlow_block works body body' stands inside
          | false =>
              rw [alternative]
              exact .pure stands
      | ifElse _ first _ inside instead =>
          refine .bind (hasValue_expression works stands test test' first) fun value _ ↦
            .bind (.condition value) fun holds _ ↦ ?_
          cases holds with
          | true => exact hasFlow_block works body body' stands inside
          | false => exact hasFlow_alternative works other other' stands instead
  | .returns none _, _, _, _, _, _, _, _, _, _, _, _ => by
      rw [statement]
      exact .pure ValueOver.over_unit
  | .returns (some value) _, free, _, _, _, _, _, _, _, _, stands, translated => by
      rw [Statement.isWhileFree] at free
      cases translated with
      | returnValue first _ =>
          rw [statement, works.site]
          exact .bind (hasValue_expression works stands value free first) fun _ kept ↦ .pure kept
  | .evaluate value, free, _, _, _, _, _, _, _, _, stands, translated => by
      rw [Statement.isWhileFree] at free
      cases translated with
      | evaluate first =>
          rw [statement]
          exact .bind (hasValue_expression works stands value free first) fun _ _ ↦ .pure stands

/-- An alternative ends. -/
theorem hasFlow_alternative (works : Works program setting context) : (other : Alternative) →
    other.isWhileFree = true → {scope : Scope Nat} → {next number start after : Nat} →
    {environment : Environment} → {code : List Op} →
    Stands program setting context scope environment →
    AlternativeCode program setting scope next number other start code after →
    HasFlow program setting context scope (alternative context environment number other)
  | .absent, _, _, _, _, _, _, _, _, _, translated => by cases translated
  | .block body, free, _, _, _, _, _, _, _, stands, translated => by
      rw [Alternative.isWhileFree] at free
      cases translated with
      | block inside =>
          rw [alternative]
          exact hasFlow_block works body free stands inside
  | .chain conditional, free, _, _, _, _, _, _, _, stands, translated => by
      rw [Alternative.isWhileFree] at free
      cases translated with
      | chain inside =>
          rw [alternative]
          exact hasFlow_statement works conditional free stands inside

end

/-! ## Bodies -/

/-- The variables that a body starts with have its arguments as their values. -/
theorem suits_inSlots {allowed : Lambda → Prop} {receiver : Receiver} {place : Option Nat}
    {binders : List (Variable Unit)} {values : List Datum} {first : Nat}
    (length : values.length = binders.length) (given : ∀ value ∈ values, value.Over allowed)
    (fits : receiver.Fits allowed (inSlots binders first) place) :
    Suits allowed receiver place (inSlots binders first) (hold binders values).reverse := by
  refine ⟨?_, fun held inside ↦ ?_, fits⟩
  · rw [typing_inSlots, Scope.typing, List.map_reverse, hold, List.map_map]
    exact congrArg List.reverse (List.map_fst_zip (Nat.le_of_eq length.symm))
  · obtain ⟨⟨binder, value⟩, pair, rfl⟩ := List.mem_map.mp (List.mem_reverse.mp inside)
    exact given value (List.of_mem_zip pair).2

/-- What a program calls has no `while`. -/
def Translated.IsWhileFree (program : Translated) : Prop :=
  ∀ info ∈ program.types, info.IsWhileFree

section Bodies

variable {call : Caller} {fuel : Nat} {arguments : List Datum}

/-- What is called has as many arguments as it takes. -/
abbrev Callee.Takes (callee : Callee) (arguments : List Datum) : Prop :=
  arguments.length = callee.signature.2

theorem hasValue_function (serves : Serves (Callee.IsWhileFree program) call) {owner : TypeIndex}
    {info : TypeInfo} {method : MethodInfo} (found : program.types[owner]? = some info)
    (inside : method ∈ info.methods) (free : method.declaration.body.isWhileFree = true)
    (length : (Callee.function owner method).Takes arguments)
    (given : AllOver (Callee.IsWhileFree program) arguments) :
    HasValue program
      (functionBody program.references program.types call fuel owner method arguments) := by
  obtain ⟨definition, -, code⟩ := program.code.type found
  obtain ⟨-, named, -, translated⟩ := code.method method inside
  have binders := length_parametersOf named
  rw [Callee.Takes, Callee.signature, ← binders] at length
  have works (receiver : Receiver) (place : Option Nat) (present : place.isSome = !method.isStatic) :
      Works program (functionSetting program owner info method place)
        (functionContext program call fuel owner info method receiver) := by
    refine ⟨rfl, rfl, ?_, rfl, serves⟩
    rw [functionContext, ← present]
    rfl
  cases static : method.isStatic with
  | true =>
      rw [static, if_pos rfl] at length
      simp only [static, if_pos] at translated
      rw [functionBody_static found static]
      refine .bind (hasFlow_block (works .absent none (by rw [static]; rfl)) _ free ?_ translated)
        fun _ fits ↦ .pure fits.answer
      exact suits_inSlots length given .absent
  | false =>
      rw [static, if_neg Bool.false_ne_true] at length
      simp only [static, Bool.false_eq_true, if_neg, not_false_iff] at translated
      obtain ⟨receiver, values, rfl⟩ := List.exists_cons_of_length_eq_add_one length
      obtain ⟨kept, given⟩ := List.forall_mem_cons.mp given
      rw [functionBody_instance found static]
      refine .bind (hasFlow_block (works (.given receiver) (some 0) (by rw [static]; rfl)) _ free ?_
        translated) fun _ fits ↦ .pure fits.answer
      exact suits_inSlots (Nat.succ.inj length) given (.given kept)

theorem hasValue_lambda (serves : Serves (Callee.IsWhileFree program) call) {index : RoutineIndex}
    {text : Lambda} (compiles : LambdaCode program index text) (ofText : text.IsOf program)
    (free : text.body.isWhileFree = true) (length : (Callee.lambda text).Takes arguments)
    (given : AllOver (Callee.IsWhileFree program) arguments) :
    HasValue program (lambdaBody call fuel text arguments) := by
  have works : Works program text.setting (lambdaContext call fuel text) := by
    refine ⟨ofText.references, ofText.types, ?_, rfl, serves⟩
    rw [Setting.site, ← ofText.receiver]
    rfl
  have fits : (lambdaContext call fuel text).receiver.Fits (Allowed program) text.scope
      text.setting.receiver := by
    have placed : (lambdaContext call fuel text).receiver.IsAt text.scope text.arity
      (#[] : Slots program) text.setting.receiver := receiver_lambda ofText
    generalize (lambdaContext call fuel text).receiver = receiver at placed
    generalize text.setting.receiver = place at placed
    cases placed with
    | absent => exact .absent
    | given _ _ found => exact absurd found nofun
    | copied found =>
        obtain ⟨inside, name⟩ := Scope.mem_of_named? found
        exact .copied (List.mem_reverse.mp inside) name
  have stands : Stands program text.setting (lambdaContext call fuel text) text.scope
      (hold (text.copies ++ text.parameters) arguments).reverse :=
    suits_inSlots (length.trans List.length_append.symm) given fits
  obtain ⟨-, translated⟩ := compiles
  rw [lambdaBody]
  generalize text.body = body at free translated
  cases translated with
  | expression value _ =>
      rw [LambdaBody.isWhileFree] at free
      exact hasValue_expression works stands _ free value
  | block inside =>
      rw [LambdaBody.isWhileFree] at free
      exact .bind (hasFlow_block works _ free stands inside) fun _ fits ↦ .pure fits.answer

theorem over_firstValue {allowed : Lambda → Prop} (type : Ty) :
    (firstValue type).Over allowed := by
  cases type with
  | int => exact ValueOver.over_int 0
  | bool => exact ValueOver.over_bool false
  | str => exact ValueOver.over_str ""
  | array element => exact ValueOver.over_array.mpr nofun
  | _ => exact ValueOver.over_unit

/-- Fields are given their first values one after the other. -/
theorem yields_fillFields (works : Works program setting context)
    (stands : Stands program setting context [] []) {object : Datum}
    (kept : object.Over (Allowed program)) : (fields : List FieldInfo) →
    (∀ field ∈ fields, ∀ value ∈ field.value, value.isWhileFree = true) →
    {number position start : Nat} → {code : List Op} →
    FieldsCode program setting number fields position start code →
    Yields (Allowed program) (fillFields context object number fields position) fun _ ↦ True
  | [], _, _, _, _, _, _ => .pure trivial
  | field :: rest, free, number, position, _, _, translated => by
      obtain ⟨here, free⟩ := List.forall_mem_cons.mp free
      rw [fillFields]
      cases translated with
      | @given _ _ _ _ _ value _ _ found translated _ others =>
          simp only [found, Option.map_some, Option.getD_some]
          exact .bind (hasValue_expression works stands value (here value found) translated)
            fun _ kept' ↦ .bind (yields_writeField kept _ kept') fun _ _ ↦
              yields_fillFields works stands kept rest free others
      | default found others =>
          simp only [found, Option.map_none, Option.getD_none, Nat.add_zero]
          exact .bind (.pure (over_firstValue field.type)) fun _ kept' ↦
            .bind (yields_writeField kept _ kept') fun _ _ ↦
              yields_fillFields works stands kept rest free others

theorem hasValue_initializer (serves : Serves (Callee.IsWhileFree program) call)
    (free : program.IsWhileFree) {type : TypeIndex} {definition : Bytecode.TypeDefinition}
    {index : RoutineIndex} (here : program.image.types[type]? = some definition)
    (starts : definition.initializer = some index) (length : (Callee.initializer type).Takes arguments)
    (given : AllOver (Callee.IsWhileFree program) arguments) :
    HasValue program
      (initializerBody program.references program.types call fuel type arguments) := by
  have inside : type < program.types.length := by
    rw [← program.code.size]
    exact (Array.getElem?_eq_some_iff.mp here).1
  have known : program.types[type]? = some program.types[type] := List.getElem?_eq_getElem inside
  obtain ⟨_, here', code⟩ := program.code.type known
  obtain rfl := Option.some.inj (here.symm.trans here')
  have initializer := code.initializer
  rw [starts] at initializer
  obtain ⟨-, -, translated⟩ := initializer
  obtain ⟨object, rfl⟩ := List.length_eq_one_iff.mp length
  have kept := List.forall_mem_singleton.mp given
  have works : Works program
      { settingOf program.references program.types type program.types[type] with receiver := some 0 }
      (initializerContext program call fuel type program.types[type] object) :=
    ⟨rfl, rfl, rfl, rfl, serves⟩
  rw [initializerBody_eq known]
  refine .bind (yields_fillFields works ⟨rfl, nofun, .given kept⟩ kept _ ?_ translated) fun _ _ ↦
    .pure ValueOver.over_unit
  exact (free _ (List.getElem_mem inside)).fields

/-- The body of what is called ends if the calls that it makes do. -/
theorem hasValue_bodyOf (serves : Serves (Callee.IsWhileFree program) call)
    (free : program.IsWhileFree) {callee : Callee} (good : callee.IsWhileFree program)
    (length : callee.Takes arguments) (given : AllOver (Callee.IsWhileFree program) arguments) :
    HasValue program (bodyOf program.references program.types call fuel callee arguments) := by
  obtain ⟨⟨index, has⟩, body⟩ := good
  cases has with
  | function found inside =>
      have whole := free _ (List.mem_of_getElem? found)
      exact hasValue_function serves found inside (whole.methods _ inside) length given
  | initializer here starts => exact hasValue_initializer serves free here starts length given
  | lambda compiles ofText => exact hasValue_lambda serves compiles ofText (body _ rfl) length given

end Bodies

/-! ## Calls -/

/-- With fuel for as many calls as may still become active, every call is answered. -/
theorem serves_invoke (free : program.IsWhileFree) : (fuel active : Nat) →
    maxCallDepth - active < fuel →
    Serves (Callee.IsWhileFree program) (invoke program.references program.types fuel active)
  | 0, _, enough => absurd enough (Nat.not_lt_zero _)
  | fuel + 1, active, enough => by
      refine ⟨fun {callee arguments} good given ↦ ?_⟩
      simp only [invoke]
      by_cases length : callee.Takes arguments
      case neg =>
        rw [if_pos length]
        exact .fault _
      rw [if_neg (not_not.mpr length)]
      by_cases deep : maxCallDepth ≤ active
      · rw [if_pos deep]
        exact .fault _
      · rw [if_neg deep]
        -- the call that is made is active while its body runs
        have enough' : maxCallDepth - (active + 1) < fuel := by omega
        exact hasValue_bodyOf (serves_invoke free fuel (active + 1) enough') free good length given

end Meaning

end GuestScript
