import GuestScript.Proofs.Compile.Watches

/-!
# Poison hides no mistake

The type of an expression with a mistake in it agrees with everything, so that one mistake is
reported once. It would let a wrong program pass if it ever came up without a mistake.
`hidesNoMistake_of_isProper` says that it does not: whatever a file is, a type with poison in it is
only computed after an error has been reported, and in a compilation without errors the rule for
poison is never used. The walk over bodies and declarations shows that a watch that minds nothing
else has nothing to do.
-/

namespace GuestScript.Compile

open Bytecode (Op)
open Syntax

/-! ## The walk -/

section Walk

open Lowering

variable {calm : Prop} {watch : Watch}

/-- The type of the items of an array is that of the first one, unless one is wanted. -/
theorem isClosed_arrayElement {element : Option Ty}
    (closed : ∀ type ∈ element, type.IsClosed) : (Ty.array (element.getD .dyn)).IsClosed := by
  cases element with
  | none => rfl
  | some element => exact closed element rfl

mutual

/-- An expression is compiled the same under a watch. -/
theorem undisturbed_expression (spares : watch.Spares calm) : (value : Expression) →
    {needs : Prop} → {setting : Setting} → (needs → setting.IsClosed) →
    Pending.Undisturbed calm needs (watch.expression setting value) (expression setting value)
  | .int .., _, _, _, _, _, _, _, wanted => by
      rw [Watch.expression, expression]
      exact undisturbed_seen spares wanted (.pure fun _ ↦ rfl)
  | .str .., _, _, _, _, _, _, _, wanted => by
      rw [Watch.expression, expression]
      exact undisturbed_seen spares wanted (.pure fun _ ↦ rfl)
  | .bool .., _, _, _, _, _, _, _, wanted => by
      rw [Watch.expression, expression]
      exact undisturbed_seen spares wanted (.pure fun _ ↦ rfl)
  | .array values _, _, _, closed, _, _, start, needed, wanted => by
      rw [Watch.expression, expression]
      exact undisturbed_seen spares wanted <| (undisturbed_items spares values [] start
        (closed ∘ needed) fun more ↦ isClosed_wantedElement (wanted more)).map
          fun _ _ closed ↦ isClosed_arrayElement closed
  | .receiver _, _, _, _, _, _, _, _, wanted => by
      rw [Watch.expression, expression]
      exact undisturbed_seen spares wanted typing_receiverValue
  | .path segments _, _, _, _, _, _, _, _, wanted => by
      rw [Watch.expression, expression]
      exact undisturbed_seen spares wanted (typing_pathValue segments)
  | .call callee values _, _, setting, closed, more, _, start, needed, wanted => by
      have closed' : more → setting.IsClosed := closed ∘ needed
      have each := undisturbed_arguments spares values closed'
      by_cases path : ∃ segments calleeSpan, callee = .path segments calleeSpan
      · obtain ⟨segments, calleeSpan, rfl⟩ := path
        rw [Watch.expression, expression]
        exact undisturbed_seen spares wanted (typing_callNamed closed' segments _ each)
      · have apart (segments : List Identifier) (calleeSpan : Span) :
            callee ≠ .path segments calleeSpan := fun same ↦ path ⟨segments, calleeSpan, same⟩
        rw [Watch.expression, expression]
        · refine undisturbed_seen spares wanted ?_
          exact (undisturbed_expression spares callee closed' start id fun _ ↦ unwanted).bind
            fun _ ↦ typing_callValue (each.needing And.left) And.right
        · exact apart
        · exact apart
  | .method target name values _, _, _, closed, _, _, start, needed, wanted => by
      rw [Watch.expression, expression]
      refine undisturbed_seen spares wanted ?_
      exact (undisturbed_expression spares target (closed ∘ needed) start id fun _ ↦ unwanted).bind
        fun _ ↦ typing_callOnTarget (fun given ↦ closed (needed given.1)) And.right name _
          (undisturbed_arguments spares values fun given ↦ closed (needed given.1))
  | .field target name _, _, _, closed, _, _, start, needed, wanted => by
      rw [Watch.expression, expression]
      refine undisturbed_seen spares wanted ?_
      exact (undisturbed_expression spares target (closed ∘ needed) start id fun _ ↦ unwanted).bind
        fun _ ↦ typing_fieldValue (fun given ↦ closed (needed given.1)) And.right name
  | .element target index _, _, _, closed, _, _, start, needed, wanted => by
      rw [Watch.expression, expression]
      refine undisturbed_seen spares wanted ?_
      refine (undisturbed_expression spares target (closed ∘ needed) start id fun _ ↦
        unwanted).bind fun _ ↦ ?_
      refine (undisturbed_expression spares index (fun given ↦ closed (needed given.1)) _ id
        fun _ _ same ↦ Option.some.inj same ▸ rfl).bind fun _ ↦ unwatched_check.bind fun _ ↦ ?_
      exact (unwatched_itemType fun given ↦ given.1.1.2).map fun _ _ closed ↦ closed
  | .construct name _, _, _, _, _, _, _, _, wanted => by
      rw [Watch.expression, expression]
      exact undisturbed_seen spares wanted (typing_newObject name)
  | .lambda parameters body _, _, _, closed, _, _, _, needed, wanted => by
      rw [Watch.expression, expression]
      exact undisturbed_seen spares wanted <| typing_lambdaValue (closed ∘ needed) parameters _
        wanted fun closed ↦ typing_lambdaBody spares body closed
  | .unary operator operand _, _, _, closed, _, _, start, needed, wanted => by
      rw [Watch.expression, expression]
      refine undisturbed_seen spares wanted ?_
      exact (undisturbed_expression spares operand (closed ∘ needed) start id fun _ _ same ↦
        Option.some.inj same ▸ isClosed_unaryType operator).bind fun _ ↦ typing_unaryValue _ _
  | .binary operator left right _, _, _, closed, _, _, start, needed, wanted => by
      rw [Watch.expression, expression]
      exact undisturbed_seen spares wanted <| typing_binaryValue spares operator
        (undisturbed_expression spares left (closed ∘ needed))
        (undisturbed_expression spares right (closed ∘ needed))

theorem undisturbed_items (spares : watch.Spares calm) : (values : List Expression) →
    {needs : Prop} → {setting : Setting} → {element : Option Ty} → (before : List Op) →
    (start : Nat) → (needs → setting.IsClosed) → (needs → ∀ type ∈ element, type.IsClosed) →
    Lowering.Undisturbed calm needs (watch.items setting values element before start)
      (items setting values element before start) fun result ↦ ∀ type ∈ result.2, type.IsClosed
  | [], _, _, _, _, _, _, closed => by
      rw [Watch.items, items]
      exact .pure closed
  | item :: rest, _, _, _, _, start, closed, closed' => by
      rw [Watch.items, items]
      refine (undisturbed_expression spares item closed start id closed').bind fun _ ↦ ?_
      refine (unwatched_checkedType (fun given ↦ closed' given.1) And.right).bind fun _ ↦ ?_
      exact undisturbed_items spares rest _ _ (fun given ↦ closed given.1.1) fun given _ same ↦
        Option.some.inj same ▸ given.2

/-- Arguments are compiled the same under a watch. -/
theorem undisturbed_arguments (spares : watch.Spares calm) : (values : List Expression) →
    {needs : Prop} → {setting : Setting} → (needs → setting.IsClosed) →
    PendingArguments.Undisturbed calm needs (watch.arguments setting values)
      (arguments setting values)
  | [], _, _, _, _, _, _, _, _, _, _, _, _, bound => by
      rw [Watch.arguments, arguments]
      exact .pure bound
  | argument :: rest, _, _, closed, _, [], _, _, _, _, start, needed, whole, bound => by
      rw [Watch.arguments, arguments]
      refine (undisturbed_expression spares argument (closed ∘ needed) start id fun _ ↦
        unwanted).bind fun _ ↦ ?_
      exact undisturbed_arguments spares rest (fun given ↦ closed (needed given.1)) _ _ _ _ id
        (fun given ↦ whole given.1) fun given ↦ bound given.1
  | argument :: rest, _, _, closed, _, wanted :: others, _, _, _, _, start, needed, whole,
      bound => by
      rw [Watch.arguments, arguments]
      refine (undisturbed_expression spares argument (closed ∘ needed) start id
        fun more _ same ↦ Option.some.inj same ▸
          Ty.isClosed_substitute (bound more) (whole more wanted List.mem_cons_self)).bind
        fun typed ↦ ?_
      refine .after_telling (undisturbed_telling (Draft.undisturbed_compared spares fun given ↦
        .of_closed (whole given.1 wanted List.mem_cons_self) given.2 (bound given.1))) ?_
      refine unwatched_checkArgument.bind fun _ ↦ ?_
      exact undisturbed_arguments spares rest (fun given ↦ closed (needed given.1.1)) _ _ _ _ id
        (fun given type inside ↦ whole given.1.1 type (List.mem_cons_of_mem wanted inside))
        fun given ↦ Ty.accepts_closed wanted typed.type _
          (whole given.1.1 wanted List.mem_cons_self) given.1.2 (bound given.1.1)

/-- The body of a lambda is compiled the same under a watch. -/
theorem typing_lambdaBody (spares : watch.Spares calm) : (body : LambdaBody) →
    {needs : Prop} → {setting : Setting} → (needs → setting.IsClosed) →
    Typing calm needs (watch.lambdaBody setting body) (lambdaBody setting body)
  | .expression value, _, setting, closed => by
      rw [Watch.lambdaBody, lambdaBody]
      refine .after_telling (undisturbed_tellLocals spares) <| .after_telling
        (undisturbed_telling (Draft.undisturbed_computed spares fun needed ↦
          (closed needed).result)) ?_
      refine (undisturbed_expression spares value closed 0 id fun needed _ same ↦
        Option.some.inj same ▸ (closed needed).result).bind fun typed ↦ unwatched_check.map ?_
      intro _ given _
      change (if setting.result.isDyn then typed.type else setting.result).IsClosed
      split
      · exact given.2
      · exact (closed given.1).result
  | .block body, _, _, closed => by
      rw [Watch.lambdaBody, lambdaBody]
      refine .after_telling (undisturbed_telling (Draft.undisturbed_computed spares fun needed ↦
        (closed needed).result)) ?_
      exact (undisturbed_block spares body closed 0 id).map fun _ needed _ ↦ (closed needed).result

/-- A block is compiled the same under a watch. -/
theorem undisturbed_block (spares : watch.Spares calm) : (body : Block) →
    {needs : Prop} → {setting : Setting} → (needs → setting.IsClosed) →
    Unheeded calm needs (watch.block setting body) (block setting body)
  | .mk body _, _, _, closed, _, start, needed => by
      rw [Watch.block, block]
      refine unwatched_openScope.bind fun _ ↦ ?_
      refine (undisturbed_statements spares body (fun given ↦ closed (needed given.1)) [] start)
        |>.bind fun _ ↦ ?_
      exact unwatched_closeScope.map fun _ _ _ ↦ trivial

theorem undisturbed_statements (spares : watch.Spares calm) : (body : List Statement) →
    {needs : Prop} → {setting : Setting} → (needs → setting.IsClosed) →
    (before : List Op) → (start : Nat) →
    Lowering.Undisturbed calm needs (watch.statements setting body before start)
      (statements setting body before start) fun _ ↦ True
  | [], _, _, _, _, _ => by
      rw [Watch.statements, statements]
      exact .after_telling (undisturbed_tellLocals spares) (.pure fun _ ↦ trivial)
  | first :: rest, _, _, closed, _, start => by
      rw [Watch.statements, statements]
      refine .after_telling (undisturbed_tellLocals spares) ?_
      exact (undisturbed_statement spares first closed start id).bind fun _ ↦
        undisturbed_statements spares rest (fun given ↦ closed given.1) _ _

/-- A statement is compiled the same under a watch. -/
theorem undisturbed_statement (spares : watch.Spares calm) : (one : Statement) →
    {needs : Prop} → {setting : Setting} → (needs → setting.IsClosed) →
    Unheeded calm needs (watch.statement setting one) (statement setting one)
  | .declare name type value _, _, setting, closed, _, start, needed => by
      -- the type is declared, or it will be that of the value
      have value' {more : Prop} {declared : Option Ty} (closed : more → setting.IsClosed)
          (closed' : more → ∀ type ∈ declared, type.IsClosed) :
          Lowering.Undisturbed calm more (do
            let typed ← watch.expression setting value declared start
            declareValue name declared typed value.span) (do
            let typed ← expression setting value declared start
            declareValue name declared typed value.span) fun _ ↦ True :=
        (undisturbed_expression spares value closed start id closed').bind fun _ ↦
          unwatched_declareValue name (fun given ↦ closed' given.1) And.right
      cases type with
      | none =>
          rw [Watch.statement, statement]
          exact value' (closed ∘ needed) fun _ ↦ unwanted
      | some written =>
          rw [Watch.statement, statement]
          exact (undisturbed_resolve spares setting written).bind fun declared ↦
            value' (fun given ↦ closed (needed given.1)) fun given _ same ↦
              Option.some.inj same ▸ given.2
  | .assign (.binding name) value _, _, _, closed, _, start, needed => by
      rw [Watch.statement, statement]
      exact undisturbed_assignVariable name
        (undisturbed_expression spares value (closed ∘ needed))
  | .assign (.field name) value _, _, _, closed, _, start, needed => by
      rw [Watch.statement, statement]
      exact undisturbed_assignField (closed ∘ needed) name
        (undisturbed_expression spares value (closed ∘ needed))
  | .forEach binding iterable body _, _, _, closed, _, start, needed => by
      rw [Watch.statement, statement]
      exact undisturbed_forEachLoop binding
        (undisturbed_expression spares iterable (closed ∘ needed))
        (undisturbed_block spares body (closed ∘ needed))
  | .whileLoop test body _, _, _, closed, _, start, needed => by
      rw [Watch.statement, statement]
      exact undisturbed_whileTrue
        (undisturbed_condition (undisturbed_expression spares test (closed ∘ needed)))
        (undisturbed_block spares body (closed ∘ needed))
  | .conditional test body other _, _, setting, closed, _, start, needed => by
      have test' : Unheeded calm _ (condition (watch.expression setting test) test.span)
          (condition (expression setting test) test.span) :=
        undisturbed_condition (undisturbed_expression spares test (closed ∘ needed))
      have body' := undisturbed_block spares body (closed ∘ needed)
      cases other with
      | absent =>
          rw [Watch.statement, statement]
          exact undisturbed_ifTrue test' body'
      | block other =>
          rw [Watch.statement, statement]
          · exact undisturbed_ifElse test' body'
              (undisturbed_alternative spares (.block other) (closed ∘ needed))
          · exact nofun
          · exact nofun
      | chain other =>
          rw [Watch.statement, statement]
          · exact undisturbed_ifElse test' body'
              (undisturbed_alternative spares (.chain other) (closed ∘ needed))
          · exact nofun
          · exact nofun
  | .returns none _, _, _, _, _, _, _ => by
      rw [Watch.statement, statement]
      exact unwatched_returnNothing
  | .returns (some value) _, _, _, closed, _, start, needed => by
      rw [Watch.statement, statement]
      exact undisturbed_returnValue (closed ∘ needed)
        (undisturbed_expression spares value (closed ∘ needed))
  | .evaluate value, _, _, closed, _, start, needed => by
      rw [Watch.statement, statement]
      exact undisturbed_discard (undisturbed_expression spares value (closed ∘ needed))

/-- An alternative is compiled the same under a watch. -/
theorem undisturbed_alternative (spares : watch.Spares calm) : (other : Alternative) →
    {needs : Prop} → {setting : Setting} → (needs → setting.IsClosed) →
    Unheeded calm needs (watch.alternative setting other) (alternative setting other)
  | .absent, _, _, _, _, _, _ => by
      rw [Watch.alternative, alternative]
      exact .pure fun _ ↦ trivial
  | .block body, _, _, closed, _, start, needed => by
      rw [Watch.alternative, alternative]
      exact undisturbed_block spares body closed start needed
  | .chain conditional, _, _, closed, _, start, needed => by
      rw [Watch.alternative, alternative]
      exact undisturbed_statement spares conditional closed start needed

end

end Walk

/-! ## Declarations -/

section Declarations

variable {calm needs : Prop} {watch : Watch}

namespace Draft

theorem undisturbed_of_leaves {Value : Type} {action : Drafting Value} (leaves : Leaves action) :
    Undisturbed calm needs action action fun _ ↦ True :=
  .of_plain (fun draft quiet ↦ quiet.of_extends (leaves draft).extends')
    fun _ _ _ _ ↦ ⟨trivial, trivial⟩

/-- What is done to each of several values is the same under a watch, if it is to any one. -/
theorem undisturbed_mapM {Value Other : Type} {watched plain : Value → Drafting Other}
    {gives : Other → Prop}
    (each : ∀ {more : Prop} value, Undisturbed calm more (watched value) (plain value) gives)
    (values : List Value) : Undisturbed calm needs (values.mapM watched) (values.mapM plain)
      fun results ↦ ∀ result ∈ results, gives result := by
  induction values generalizing needs with
  | nil =>
      rw [List.mapM_nil, List.mapM_nil]
      exact .pure fun _ ↦ nofun
  | cons first rest ih =>
      rw [List.mapM_cons, List.mapM_cons]
      refine (each first).bind fun result ↦ ih.map fun results given others other inside ↦ ?_
      obtain rfl | inside := List.mem_cons.mp inside
      · exact given.2
      · exact others other inside

end Draft

variable {resolve resolve' : TypeExpression → Drafting Ty}
  (each : ∀ {more : Prop} written, Draft.Undisturbed calm more (resolve' written) (resolve written)
    Ty.IsClosed)

include each

theorem undisturbed_acceptFields {accepted : List FieldInfo} (fields : List FieldDeclaration)
    (closed : needs → ∀ field ∈ accepted, field.type.IsClosed) :
    Draft.Undisturbed calm needs (acceptFields resolve' accepted fields)
      (acceptFields resolve accepted fields) fun infos ↦ ∀ field ∈ infos, field.type.IsClosed := by
  induction fields generalizing needs accepted with
  | nil => exact .pure closed
  | cons field rest ih =>
      simp only [acceptFields]
      split
      · exact Draft.undisturbed_report.bind fun _ ↦ ih fun given ↦ closed given.1
      · refine (each field.type).bind fun type ↦ ih fun given info inside ↦ ?_
        obtain inside | inside := List.mem_append.mp inside
        · exact closed given.1 info inside
        · obtain rfl := List.mem_singleton.mp inside
          exact given.2

theorem undisturbed_signatureOf (function : FunctionDeclaration) :
    Draft.Undisturbed calm needs (signatureOf resolve' function) (signatureOf resolve function)
      fun signature ↦ (∀ type ∈ signature.1, type.IsClosed) ∧ signature.2.IsClosed := by
  refine (Draft.undisturbed_mapM (fun parameter ↦ each parameter.type)
    function.parameters).bind fun parameters ↦ ?_
  cases function.result with
  | some result => exact (each result).map fun _ given closed ↦ ⟨given.2, closed⟩
  | none => exact .pure fun given ↦ ⟨given.2, rfl⟩

theorem undisturbed_acceptFunctions (owner : Bytecode.TypeIndex) (ownerName : String)
    {accepted : List MethodInfo} (functions : List FunctionDeclaration)
    (closed : needs → ∀ method ∈ accepted, method.IsClosed) :
    Draft.Undisturbed calm needs (acceptFunctions resolve' owner ownerName accepted functions)
      (acceptFunctions resolve owner ownerName accepted functions) fun methods ↦
        ∀ method ∈ methods, method.IsClosed := by
  induction functions generalizing needs accepted with
  | nil => exact .pure closed
  | cons function rest ih =>
      simp only [acceptFunctions]
      split
      · exact Draft.undisturbed_report.bind fun _ ↦ ih fun given ↦ closed given.1
      · refine (undisturbed_signatureOf each function).bind fun signature ↦
          (Draft.undisturbed_reserve _).bind fun routine ↦ ih fun given method inside ↦ ?_
        obtain inside | inside := List.mem_append.mp inside
        · exact closed given.1.1 method inside
        · obtain rfl := List.mem_singleton.mp inside
          exact ⟨given.1.2.1, given.1.2.2⟩

omit each

theorem undisturbed_acceptMembers (spares : watch.Spares calm) (references : ReferenceSet)
    (names : List TypeName) (index : Bytecode.TypeIndex) (declarations : List TypeDeclaration) :
    Draft.Undisturbed calm needs (watch.acceptMembers references names index declarations)
      (acceptMembers references names index declarations) fun types ↦
        ∀ info ∈ types, info.IsClosed := by
  induction declarations generalizing needs index with
  | nil => exact .pure fun _ ↦ nofun
  | cons declaration rest ih =>
      rw [Watch.acceptMembers, acceptMembers]
      let namespaceName := (nameOf declaration).namespaceName
      have each {more : Prop} (written : TypeExpression) : Draft.Undisturbed calm more
          (watch.meaning references names namespaceName written)
          (resolveType references names namespaceName written) Ty.IsClosed :=
        Draft.undisturbed_meaning spares references names namespaceName written
      have nothing {Value : Type} {holds : Value → Prop} :
          ∀ value ∈ ([] : List Value), holds value := nofun
      refine (undisturbed_acceptFields each _ fun _ ↦ nothing).bind fun fields ↦
        (undisturbed_acceptFunctions each index _ _ fun _ ↦ nothing).bind fun methods ↦ ?_
      refine (ih (index + 1)).map fun others given closed info inside ↦ ?_
      obtain rfl | inside := List.mem_cons.mp inside
      · exact ⟨given.1.2, given.2⟩
      · exact closed info inside

/-- The types of a file are declared the same under a watch. -/
theorem undisturbed_declare (spares : watch.Spares calm) (references : ReferenceSet) (file : File) :
    Draft.Undisturbed calm needs (watch.declare references file) (declare references file)
      fun types ↦ ∀ info ∈ types, info.IsClosed :=
  (Draft.undisturbed_of_leaves (leaves_acceptTypes file.types [])).bind fun accepted ↦
    undisturbed_acceptMembers spares references _ 0 accepted.reverse

end Declarations

/-! ## Routines -/

section Routines

open Lowering

variable {calm needs : Prop} {watch : Watch} {setting : Setting}

theorem undisturbed_firstValueCode (spares : watch.Spares calm) (closed : needs → setting.IsClosed)
    {field : FieldInfo} (closed' : needs → field.type.IsClosed) (start : Nat) :
    Lowering.Undisturbed calm needs (watch.firstValueCode setting field start)
      (firstValueCode setting field start) fun _ ↦ True := by
  unfold Watch.firstValueCode firstValueCode
  cases field.value with
  | some value => exact undisturbed_checked (undisturbed_expression spares value closed) closed'
  | none => exact .pure fun _ ↦ trivial

theorem undisturbed_initializeFields (spares : watch.Spares calm)
    (closed : needs → setting.IsClosed) (receiver : Nat) {fields : List FieldInfo}
    (closed' : needs → ∀ field ∈ fields, field.type.IsClosed) (position : Nat) (before : List Op)
    (start : Nat) : Lowering.Undisturbed calm needs
      (watch.initializeFields setting receiver fields position before start)
      (initializeFields setting receiver fields position before start) fun _ ↦ True := by
  induction fields generalizing needs position before start with
  | nil => exact .pure fun _ ↦ trivial
  | cons field rest ih =>
      rw [Watch.initializeFields, initializeFields]
      refine (undisturbed_firstValueCode spares closed (fun needed ↦
        closed' needed field List.mem_cons_self) _).bind fun _ ↦ ?_
      exact ih (fun given ↦ closed given.1) (fun given other inside ↦
        closed' given.1 other (List.mem_cons_of_mem field inside)) _ _ _

theorem undisturbed_defineInitializer (spares : watch.Spares calm)
    (closed : needs → setting.IsClosed) {fields : List FieldInfo}
    (closed' : needs → ∀ field ∈ fields, field.type.IsClosed) :
    Draft.Undisturbed calm needs (watch.defineInitializer setting fields)
      (defineInitializer setting fields) fun _ ↦ True := by
  have inside : Lowering.Undisturbed calm needs (watch.initializerInside setting fields)
      (initializerInside setting fields) fun _ ↦ True :=
    unwatched_allocate.bind fun receiver ↦ undisturbed_initializeFields spares
      (fun given ↦ (closed given.1).withReceiver (some receiver)) receiver
      (fun given ↦ closed' given.1) 0 [] 0
  unfold Watch.defineInitializer defineInitializer
  split
  · exact .pure fun _ ↦ trivial
  · exact (undisturbed_addRoutine _ _ inside).map fun _ _ _ ↦ trivial

theorem undisturbed_defineMethod (spares : watch.Spares calm) (closed : needs → setting.IsClosed)
    {method : MethodInfo} (closed' : needs → ∀ type ∈ method.parameters, type.IsClosed) :
    Draft.Undisturbed calm needs (watch.defineMethod setting method) (defineMethod setting method)
      fun _ ↦ True := by
  have body {more : Prop} (needed : more → needs) (receiver : Option Nat) :
      Lowering.Undisturbed calm more (do
        declareParameters
          ((method.declaration.parameters.map Syntax.Parameter.name).zip method.parameters)
        watch.block { setting with receiver } method.declaration.body 0) (do
        declareParameters
          ((method.declaration.parameters.map Syntax.Parameter.name).zip method.parameters)
        block { setting with receiver } method.declaration.body 0) fun _ ↦ True :=
    (unwatched_declareParameters fun given ↦ isClosed_zip (closed' (needed given))).bind fun _ ↦
      undisturbed_block spares _ (fun needed ↦ (closed needed).withReceiver receiver) 0
        fun given ↦ needed given.1
  have inside : Lowering.Undisturbed calm needs (watch.methodInside setting method)
      (methodInside setting method) fun _ ↦ True := by
    unfold Watch.methodInside methodInside
    split
    · exact body id none
    · exact unwatched_allocate.bind fun slot ↦ body And.left (some slot)
  refine (undisturbed_alone inside).bind fun result ↦ ?_
  refine (Draft.undisturbed_of_leaves (leaves_checkReturns method)).bind fun _ ↦ ?_
  exact Draft.undisturbed_complete _ _ _

theorem undisturbed_defineMethods (spares : watch.Spares calm) (closed : needs → setting.IsClosed)
    {methods : List MethodInfo} (closed' : needs → ∀ method ∈ methods, method.IsClosed) :
    Draft.Undisturbed calm needs (watch.defineMethods setting methods)
      (defineMethods setting methods) fun _ ↦ True := by
  induction methods generalizing needs with
  | nil => exact .pure fun _ ↦ trivial
  | cons method rest ih =>
      rw [Watch.defineMethods, defineMethods]
      have here (needed : needs) := closed' needed method List.mem_cons_self
      have closed'' (needed : needs) : Setting.IsClosed
          { setting with routineName := method.name, result := method.result } :=
        ⟨(closed needed).references, (closed needed).types, (here needed).result⟩
      refine (undisturbed_defineMethod spares closed'' fun needed ↦
        (here needed).parameters).bind fun _ ↦ ?_
      exact ih (fun given ↦ closed given.1) fun given other inside ↦
        closed' given.1 other (List.mem_cons_of_mem method inside)

/-- The routines of types are compiled the same under a watch. -/
theorem undisturbed_defineTypes (spares : watch.Spares calm) {references : ReferenceSet}
    (proper : references.IsProper) {types : List TypeInfo}
    (closed : needs → ∀ info ∈ types, info.IsClosed) (owner : Bytecode.TypeIndex)
    {rest : List TypeInfo} (among : ∀ info ∈ rest, info ∈ types) :
    Draft.Undisturbed calm needs (watch.defineTypes references types owner rest)
      (defineTypes references types owner rest) fun _ ↦ True := by
  induction rest generalizing needs owner with
  | nil => exact .pure fun _ ↦ trivial
  | cons info rest ih =>
      have here (needed : needs) := closed needed info (among info List.mem_cons_self)
      have one : Draft.Undisturbed calm needs (watch.defineType references types owner info)
          (defineType references types owner info) fun _ ↦ True :=
        (undisturbed_defineInitializer spares (fun needed ↦ ⟨proper, closed needed, rfl⟩)
          fun needed ↦ (here needed).field).bind fun _ ↦
          (undisturbed_defineMethods spares (fun given ↦ ⟨proper, closed given.1, rfl⟩)
            fun given ↦ (here given.1).method).map fun _ _ _ ↦ trivial
      rw [Watch.defineTypes, defineTypes]
      refine one.bind fun _ ↦ ?_
      exact (ih (fun given ↦ closed given.1) (owner + 1) fun other inside ↦
        among other (List.mem_cons_of_mem info inside)).map fun _ _ _ ↦ trivial

end Routines

/-! ## Units -/

/-- A file is compiled the same under a watch. -/
theorem undisturbed_compileFile {calm : Prop} {watch : Watch} (spares : watch.Spares calm)
    {references : ReferenceSet} (proper : references.IsProper) (kind : OutputKind) (file : File) :
    Draft.Undisturbed calm True (watch.compileFile references kind file)
      (compileFile references kind file) fun _ ↦ True := by
  refine (undisturbed_declare spares references file).bind fun types ↦ ?_
  refine (undisturbed_defineTypes spares proper And.right 0 fun _ inside ↦ inside).bind fun _ ↦ ?_
  cases kind with
  | executable =>
      exact (Draft.undisturbed_of_leaves (leaves_selectEntry types)).map fun _ _ _ ↦ trivial
  | library => exact .pure fun _ ↦ trivial

/-- A watch does nothing in a draft that is excused, nor at a type without poison in it, nor at a
comparison of such types that turns out the same without the rule for poison. -/
structure Watch.IsIdle (excused : Draft → Prop) (watch : Watch) : Prop where
  computed : ∀ type draft, excused draft ∨ type.isWhole true = true →
    watch.computed type draft = ((), draft)
  compared : ∀ expected actual binding draft,
    excused draft ∨ expected.ComparesSoberly actual binding →
    watch.compared expected actual binding draft = ((), draft)

/-- Poison hides no mistake when a file is compiled. A watch that would do something at a type with
poison in it in a draft without an error never does anything, so whenever such a type is computed an
error has been reported before. If no error is reported at all, even a watch that would do something
at poison in any draft never does: no type that is compared has poison in it, and the rule that lets
poison agree with everything is of no use. -/
structure HidesNoMistake (references : ReferenceSet) (kind : OutputKind) (file : File) : Prop where
  reported : ∀ watch : Watch, watch.IsIdle (fun draft ↦ ¬ draft.Quiet) →
    watch.compileFile references kind file .empty = compileFile references kind file .empty
  unused : (compileFile references kind file .empty).2.Quiet →
    ∀ watch : Watch, watch.IsIdle (fun _ ↦ False) →
      watch.compileFile references kind file .empty = compileFile references kind file .empty

/-- A watch that minds poison whenever it comes up, after an error too. -/
def Watch.minding : Watch where
  computed type :=
    if type.isWhole true then pure ()
    else Draft.report .unknownType ("there is poison in " ++ type.text) ⟨0, 0⟩
  compared _ _ _ := pure ()

/-- A field whose type is unknown, and a function that returns its value. -/
def unknownFieldSource : SourceUnit :=
  ⟨"type P { field x: Gone; fn f() -> int { return self.x; } }", .v2⟩

end GuestScript.Compile
