import GuestScript.Proofs.Compile.Statements

/-!
# The code of bodies

What the walk over a body emits is its code: by induction on the syntax tree, one lemma for each
form. The tree has to be chained, as that of every source text is.
-/

namespace GuestScript.Compile

open Bytecode (Op)
open Lowering
open Machine (Program)
open Meaning
open Syntax

variable {program : Program} {setting : Setting}

/-- Code behind other code, and the type of the items, are those of the items of an array. -/
structure ItemsTranslated (program : Program) (setting : Setting) (scope : Scope Nat) (number : Nat)
    (values : List Expression) (element : Option Ty) (before : List Op) (start : Nat)
    (result : List Op × Option Ty) : Prop where
  code : ∃ code, result.1 = before ++ code ∧
    ItemsCode program setting scope number values element start code
  type : result.2 = itemsType? setting.site scope.typing values element
  closed : ∀ element ∈ result.2, element.IsClosed

/-- Code behind other code is that of statements, which bring variables into the innermost scope
only. -/
def StatementsTranslated (program : Program) (setting : Setting) (outer : List (Scope Nat))
    (scope : Scope Nat) (slot number : Nat) (body : List Statement) (before : List Op) (start : Nat)
    (emitted : List Op) (view : List (Scope Nat)) (after : Nat) : Prop :=
  ∃ code inner, emitted = before ++ code ∧ view = inner :: outer ∧
    StatementsCode program setting (scope :: outer).flatten slot number body start code
      (inner :: outer).flatten after

/-- Code is that of a statement, which brings variables into the innermost scope only, and none if
it is a conditional. -/
structure StatementTranslated (program : Program) (setting : Setting) (outer : List (Scope Nat))
    (scope : Scope Nat) (slot number : Nat) (one : Statement) (start : Nat)
    (emitted : List Op) (view : List (Scope Nat)) (after : Nat) : Prop where
  code : ∃ inner, view = inner :: outer ∧
    StatementCode program setting (scope :: outer).flatten slot number one start emitted
      (inner :: outer).flatten after
  closed : Scope.IsClosed view.flatten
  conditional : one.isConditional = true → view = scope :: outer

theorem isClosed_wantedElement {expected : Option Ty} (closed : ∀ wanted ∈ expected, wanted.IsClosed) :
    ∀ wanted ∈ wantedElement expected, wanted.IsClosed := by
  intro wanted inside
  rw [wantedElement.eq_def] at inside
  split at inside
  · next element => exact Option.some.inj inside ▸ closed (.array element) rfl
  · next element => exact Option.some.inj inside ▸ closed (.seq element) rfl
  · exact absurd inside nofun

theorem ItemsTranslated.array {scope : Scope Nat} {number start : Nat} {values : List Expression}
    {expected : Option Ty} {span : Span} {result : List Op × Option Ty}
    (translated : ItemsTranslated program setting scope number values (wantedElement expected) []
      start result) :
    IsTranslated program setting scope number (.array values span) expected start
      ⟨result.1 ++ [.makeArray values.length], .array (result.2.getD .dyn)⟩ := by
  obtain ⟨⟨code, same, translated⟩, type, closed⟩ := translated
  refine ⟨?_, by rw [typeOf, type], ?_⟩
  · rw [same, List.nil_append]
    exact .array translated
  · change (result.2.getD .dyn).IsClosed
    cases found : result.2 with
    | none => rfl
    | some element => exact closed element found

section

variable {scope : Scope Nat} {number start : Nat} {typed : Typed} {before : List Op}
  {result : List Op × Option Ty}

/-- The code of the items of an array is that of the first one and of the others. -/
theorem ItemsTranslated.cons {item : Expression} {rest : List Expression} {element : Option Ty}
    (others : ItemsTranslated program setting scope (number + lambdasIn item) rest
      (some (element.getD typed.type)) (before ++ typed.code) (start + typed.code.length) result)
    (first : IsTranslated program setting scope number item element start typed)
    (admitted : ∀ wanted ∈ element, wanted.admits typed.type = true) :
    ItemsTranslated program setting scope number (item :: rest) element before start result := by
  obtain ⟨⟨code, same, translated⟩, type, closed⟩ := others
  have last : itemsType? setting.site scope.typing rest (some (element.getD typed.type))
      = some (element.getD typed.type) := by
    cases rest <;> rfl
  rw [last] at type
  refine ⟨⟨typed.code ++ code, by rw [same, List.append_assoc], ?_⟩, ?_, closed⟩
  · cases element with
    | none => exact .first first.code (first.type ▸ translated)
    | some wanted => exact .cons first.code (first.type ▸ admitted wanted rfl) translated
  · rw [type]
    cases element with
    | none => exact congrArg some first.type
    | some wanted => rfl

variable {argument : Expression} {rest : List Expression} {binding : Option Ty}

theorem AreTranslated.beyond
    (others : AreTranslated program setting scope (number + lambdasIn argument) rest [] binding
      (before ++ typed.code) (start + typed.code.length) result)
    (first : IsTranslated program setting scope number argument none start typed) :
    AreTranslated program setting scope number (argument :: rest) [] binding before start
      result := by
  obtain ⟨⟨code, same, translated⟩, bound, closed⟩ := others
  exact ⟨⟨typed.code ++ code, by rw [same, List.append_assoc], .beyond first.code translated⟩,
    bound, closed⟩

/-- The code of arguments is that of the first one and of the others. -/
theorem AreTranslated.cons {wanted : Ty} {parameters : List Ty}
    (others : AreTranslated program setting scope (number + lambdasIn argument) rest parameters
      (wanted.accepts typed.type binding).2 (before ++ typed.code) (start + typed.code.length)
      result)
    (first : IsTranslated program setting scope number argument (some (wanted.substitute binding))
      start typed)
    (accepted : (wanted.accepts typed.type binding).1 = true) :
    AreTranslated program setting scope number (argument :: rest) (wanted :: parameters) binding
      before start result := by
  obtain ⟨⟨code, same, translated⟩, bound, closed⟩ := others
  rw [first.type] at accepted translated bound
  exact ⟨⟨typed.code ++ code, by rw [same, List.append_assoc],
    .cons first.code accepted translated⟩, bound, closed⟩

end

section

variable {outer : List (Scope Nat)} {scope : Scope Nat} {slot number start : Nat} {one : Statement}
  {action : Lowering (List Op)}

/-- A statement that leaves the variables as they are. -/
theorem Leads.translated (leads : Leads program setting.home (scope :: outer) slot number
      action fun code view after ↦ view = scope :: outer ∧
        StatementCode program setting (scope :: outer).flatten slot number one start code
          (scope :: outer).flatten after)
    (closed : Scope.IsClosed (scope :: outer).flatten) :
    Leads program setting.home (scope :: outer) slot number action
      (StatementTranslated program setting outer scope slot number one start) := by
  refine leads.mono ?_
  rintro code _ after ⟨rfl, translated⟩
  exact ⟨⟨scope, rfl, translated⟩, closed, fun _ ↦ rfl⟩

theorem leads_declare {name : Identifier} {written : Option TypeExpression} {value : Expression}
    {span : Span} {pending : Pending} {wanted : Option Ty}
    (closed : Scope.IsClosed (scope :: outer).flatten)
    (given : Translates program setting value pending)
    (meant : wanted = written.map setting.site.meant)
    (closed' : ∀ type ∈ wanted, type.IsClosed) :
    Leads program setting.home (scope :: outer) slot number (do
      let typed ← pending wanted start
      declareValue name wanted typed value.span)
      (StatementTranslated program setting outer scope slot number (.declare name written value span)
        start) := by
  refine .bind_gives (given.gives closed closed' start) (given.steady _ _)
    (fun _ ↦ grows_declareValue _ _ _) fun typed translated ↦ ?_
  subst meant
  refine (leads_declareValue name written span translated).mono ?_
  rintro code _ after ⟨rfl, translated'⟩
  refine ⟨⟨_, rfl, translated'⟩, ?_, nofun⟩
  intro held inside
  obtain rfl | inside := List.mem_cons.mp inside
  · change ((written.map setting.site.meant).getD typed.type).IsClosed
    cases same : written.map setting.site.meant with
    | none => exact translated.closed
    | some wanted => exact closed' wanted same
  · exact closed held inside

theorem leads_simple {count : Nat} (closed : Scope.IsClosed (scope :: outer).flatten)
    (gives : Gives program setting.home (scope :: outer).flatten number action
      (IsSimple program setting (scope :: outer).flatten number one start))
    (steady : Steady count action) :
    Leads program setting.home (scope :: outer) slot number action
      (StatementTranslated program setting outer scope slot number one start) := by
  refine Leads.translated ((Leads.of_gives gives steady).mono ?_) closed
  rintro code _ _ ⟨simple, rfl, rfl⟩
  exact ⟨rfl, simple _⟩

end

mutual

/-- What an expression is compiled to is its code. -/
theorem translates_expression {setting : Setting} (proper : setting.IsProper) :
    (value : Expression) → value.isChained = true →
    Translates program setting value (expression setting value)
  | .int .., _ => ⟨steady_expression setting _, fun _ _ _ ↦ .pure ⟨.int, rfl, rfl⟩⟩
  | .str .., _ => ⟨steady_expression setting _, fun _ _ _ ↦ .pure ⟨.str, rfl, rfl⟩⟩
  | .bool .., _ => ⟨steady_expression setting _, fun _ _ _ ↦ .pure ⟨.bool, rfl, rfl⟩⟩
  | .array values _, chained => by
      refine ⟨steady_expression setting _, fun closed closed' start ↦ ?_⟩
      rw [expression]
      exact .map ((gives_items proper values chained closed (isClosed_wantedElement closed') []
        start).mono fun _ translated ↦ translated.array)
  | .receiver _, _ => ⟨steady_expression setting _, fun _ _ _ ↦ gives_receiverValue⟩
  | .path segments _, _ =>
      ⟨steady_expression setting _, fun closed _ _ ↦ gives_pathValue closed segments⟩
  | .call callee values span, chained => by
      rw [Expression.isChained, Bool.and_eq_true] at chained
      have given := translatesAll_arguments proper values chained.2
      have called := translates_expression proper callee chained.1
      refine ⟨steady_expression setting _, fun closed closed' start ↦ ?_⟩
      cases callee with
      | path segments pathSpan =>
          rw [expression]
          exact gives_callNamed proper closed given segments pathSpan
      | _ =>
          rw [expression]
          · exact gives_callOfValue closed given called nofun
          · exact nofun
  | .method target name values span, chained => by
      rw [Expression.isChained, Bool.and_eq_true] at chained
      have given := translates_expression proper target chained.1
      have given' := translatesAll_arguments proper values chained.2
      refine ⟨steady_expression setting _, fun closed closed' start ↦ ?_⟩
      rw [expression]
      exact .bind (given.gives closed unwanted start) (given.steady _ _)
        (fun _ ↦ (steady_callOnTarget _ _ _ given'.steady).1)
        fun typed translated ↦ gives_callOnTarget proper closed given' translated name
  | .field target name _, chained => by
      have given := translates_expression proper target chained
      refine ⟨steady_expression setting _, fun closed closed' start ↦ ?_⟩
      rw [expression]
      exact .bind (given.gives closed unwanted start) (given.steady _ _)
        (fun _ ↦ (steady_fieldValue _ _).1)
        fun typed translated ↦ gives_fieldValue proper name translated
  | .element target index _, chained => by
      rw [Expression.isChained, Bool.and_eq_true] at chained
      have given := translates_expression proper target chained.1
      have given' := translates_expression proper index chained.2
      refine ⟨steady_expression setting _, fun closed closed' start ↦ ?_⟩
      rw [expression]
      exact gives_element closed given given'
  | .construct name _, _ => ⟨steady_expression setting _, fun _ _ _ ↦ gives_newObject name⟩
  | .lambda parameters body _, chained => by
      refine ⟨steady_expression setting _, fun closed closed' start ↦ ?_⟩
      rw [expression]
      refine .bind (gives_capturesOf parameters _) (steady_capturesOf parameters _)
        (fun captured ↦ (steady_closureValue parameters captured _
          fun inner ↦ grows_lambdaBody inner body).1) fun captured same ↦ ?_
      exact gives_closureValue proper closed closed' same
        (fun inner proper' ↦ translatesBody_lambdaBody proper' body chained)
        fun inner ↦ grows_lambdaBody inner body
  | .unary operator operand _, chained => by
      have given := translates_expression proper operand chained
      have closedType : ∀ wanted ∈ some (unaryType operator), wanted.IsClosed := fun _ same ↦
        Option.some.inj same ▸ isClosed_unaryType operator
      refine ⟨steady_expression setting _, fun closed closed' start ↦ ?_⟩
      rw [expression]
      exact .bind (given.gives closed closedType start) (given.steady _ _)
        (fun _ ↦ (steady_unaryValue _ _).1) fun typed translated ↦ gives_unaryValue operator translated
  | .binary operator left right _, chained => by
      rw [Expression.isChained, Bool.and_eq_true] at chained
      have given := translates_expression proper left chained.1
      have given' := translates_expression proper right chained.2
      refine ⟨steady_expression setting _, fun closed closed' start ↦ ?_⟩
      rw [expression]
      exact gives_binaryValue closed operator given given'

/-- What the items of an array are compiled to is their code. -/
theorem gives_items {setting : Setting} (proper : setting.IsProper) {scope : Scope Nat}
    {number : Nat} {element : Option Ty} :
    (values : List Expression) → areChained values = true → scope.IsClosed →
    (∀ wanted ∈ element, wanted.IsClosed) → (before : List Op) → (start : Nat) →
    Gives program setting.home scope number (items setting values element before start)
      (ItemsTranslated program setting scope number values element before.reverse start)
  | [], _, _, closed', _, _ => by
      rw [items]
      exact .pure ⟨⟨[], (List.append_nil _).symm, .nil⟩, rfl, closed'⟩
  | item :: rest, chained, closed, closed', before, start => by
      rw [areChained, Bool.and_eq_true] at chained
      have given := translates_expression proper item chained.1
      rw [items]
      refine .bind (given.gives closed closed' start) (given.steady _ _)
        (fun _ ↦ ((steady_checkedType _ _).after fun _ ↦ steady_items setting rest _ _ _).1)
        fun typed translated ↦ ?_
      refine .bind gives_checkedType (steady_checkedType _ _)
        (fun _ ↦ (steady_items setting rest _ _ _).1) ?_
      rintro _ ⟨rfl, admitted⟩
      have closed'' : ∀ wanted ∈ some (element.getD typed.type), wanted.IsClosed := by
        intro wanted same
        cases element with
        | none => exact Option.some.inj same ▸ translated.closed
        | some element => exact Option.some.inj same ▸ closed' element rfl
      refine (gives_items proper rest chained.2 closed closed'' _ _).mono fun result done ↦ ?_
      rw [List.reverse_append, List.reverse_reverse] at done
      exact done.cons translated admitted

/-- What arguments are compiled to is their code. -/
theorem translatesAll_arguments {setting : Setting} (proper : setting.IsProper) :
    (values : List Expression) → areChained values = true →
    TranslatesAll program setting values (arguments setting values)
  | [], _ => by
      refine ⟨steady_arguments setting [], fun closed whole closed' callee count before start ↦ ?_⟩
      rw [arguments]
      exact .pure ⟨⟨[], (List.append_nil _).symm, .nil⟩, rfl, closed'⟩
  | argument :: rest, chained => by
      rw [areChained, Bool.and_eq_true] at chained
      have given := translates_expression proper argument chained.1
      have others := translatesAll_arguments proper rest chained.2
      refine ⟨steady_arguments setting _, fun {scope number parameters binding} closed whole closed'
        callee count before start ↦ ?_⟩
      cases parameters with
      | nil =>
          rw [arguments]
          refine .bind (given.gives closed unwanted start) (given.steady _ _)
            (fun _ ↦ (others.steady _ _ _ _ _ _).1) fun typed translated ↦ ?_
          refine (others.gives closed whole closed' _ _ _ _).mono fun result done ↦ ?_
          rw [List.reverse_append, List.reverse_reverse] at done
          exact done.beyond translated
      | cons wanted parameters =>
          rw [arguments]
          have closedWanted : ∀ type ∈ some (wanted.substitute binding), type.IsClosed :=
            fun _ same ↦ Option.some.inj same ▸
              Ty.isClosed_substitute closed' (whole wanted List.mem_cons_self)
          refine .bind (given.gives closed closedWanted start) (given.steady _ _)
            (fun _ ↦ ((steady_checkArgument _ _ _ _ _).after
              fun _ ↦ others.steady _ _ _ _ _ _).1) fun typed translated ↦ ?_
          refine .bind gives_checkArgument (steady_checkArgument _ _ _ _ _)
            (fun _ ↦ (others.steady _ _ _ _ _ _).1) fun _ accepted ↦ ?_
          -- what the parameter has bound is closed, so the later parameters are closed with it
          have closedBound := Ty.accepts_closed wanted typed.type binding
            (whole wanted List.mem_cons_self) translated.closed closed'
          refine (others.gives closed
            (fun wanted inside ↦ whole wanted (List.mem_cons_of_mem _ inside)) closedBound _ _ _
            _).mono fun result done ↦ ?_
          rw [List.reverse_append, List.reverse_reverse] at done
          exact done.cons translated accepted

/-- What the body of a lambda is compiled to is its code. -/
theorem translatesBody_lambdaBody {setting : Setting} (proper : setting.IsProper) :
    (body : LambdaBody) → body.isChained = true →
    TranslatesBody program setting body (lambdaBody setting body)
  | .expression value, chained => by
      have given := translates_expression proper value chained
      have closed' : ∀ wanted ∈ some setting.result, wanted.IsClosed := fun _ same ↦
        Option.some.inj same ▸ proper.result
      refine ⟨grows_lambdaBody setting _, fun {scope slot number} closed ↦ ?_⟩
      have flat : [scope].flatten = scope := List.append_nil scope
      rw [lambdaBody]
      refine .bind_gives (flat.symm ▸ given.gives closed closed' 0) (given.steady _ _)
        (fun _ ↦ (steady_check _ _ _).map.1) fun typed translated ↦ ?_
      refine .bind_gives .check (steady_check _ _ _) (fun _ ↦ Grows.pure _) fun _ admitted ↦ .pure ?_
      rw [flat] at translated
      refine ⟨.expression translated.code (translated.type ▸ admitted), ?_, ?_⟩
      · rw [bodyType]
        change (if setting.result.isDyn then typed.type else setting.result)
          = if setting.result.isDyn then typeOf setting.site scope.typing value (some setting.result)
            else setting.result
        rw [translated.type]
      · simp only
        split
        · exact translated.closed
        · exact proper.result
  | .block body, chained => by
      have given := translatesBlock_block proper body chained
      refine ⟨grows_lambdaBody setting _, fun {scope slot number} closed ↦ ?_⟩
      have flat : [scope].flatten = scope := List.append_nil scope
      rw [lambdaBody]
      refine .map ((given.leads (flat.symm ▸ closed) 0).mono ?_)
      rintro code _ after ⟨rfl, translated⟩
      rw [flat] at translated
      exact ⟨.block translated, rfl, proper.result⟩

/-- What a block is compiled to is its code. -/
theorem translatesBlock_block {setting : Setting} (proper : setting.IsProper) :
    (body : Block) → body.isChained = true →
    TranslatesBlock program setting body (block setting body)
  | .mk inside span, chained => by
      refine ⟨grows_block setting _, fun {view slot number} closed start ↦ ?_⟩
      rw [block]
      have closed' : Scope.IsClosed ([] :: view).flatten := closed
      refine .openScope_bind (.bind (leads_statements proper inside chained closed' [] start)
        (grows_statements setting inside _ _) (fun _ ↦ grows_closeScope.map) ?_)
      rintro _ _ after ⟨code, inner, rfl, rfl, translated⟩
      exact .closeScope_bind (.pure ⟨rfl, .mk translated⟩)

/-- What statements are compiled to is their code. -/
theorem leads_statements {setting : Setting} (proper : setting.IsProper)
    {outer : List (Scope Nat)} {scope : Scope Nat} {slot number : Nat} :
    (body : List Statement) → statementsAreChained body = true →
    Scope.IsClosed (scope :: outer).flatten → (before : List Op) → (start : Nat) →
    Leads program setting.home (scope :: outer) slot number
      (statements setting body before start)
      (StatementsTranslated program setting outer scope slot number body before.reverse start)
  | [], _, _, _, _ => by
      rw [statements]
      exact .pure ⟨[], _, (List.append_nil _).symm, rfl, .nil⟩
  | first :: rest, chained, closed, before, start => by
      rw [statementsAreChained, Bool.and_eq_true] at chained
      rw [statements]
      refine .bind (leads_statement proper first chained.1 closed start)
        (grows_statement setting first start) (fun _ ↦ grows_statements setting rest _ _) ?_
      rintro code _ middle ⟨⟨inner, rfl, translated⟩, closed', -⟩
      refine (leads_statements proper rest chained.2 closed' _ _).mono ?_
      rintro _ _ after ⟨others, last, rfl, rfl, translated'⟩
      refine ⟨code ++ others, last, ?_, rfl, .cons translated translated'⟩
      rw [List.reverse_append, List.reverse_reverse, List.append_assoc]

/-- What a statement is compiled to is its code. -/
theorem leads_statement {setting : Setting} (proper : setting.IsProper)
    {outer : List (Scope Nat)} {scope : Scope Nat} {slot number : Nat} :
    (one : Statement) → one.isChained = true → Scope.IsClosed (scope :: outer).flatten →
    (start : Nat) →
    Leads program setting.home (scope :: outer) slot number (statement setting one start)
      (StatementTranslated program setting outer scope slot number one start)
  | .declare name written value _, chained, closed, start => by
      have given := translates_expression proper value chained
      cases written with
      | none =>
          rw [statement]
          exact .pure_bind (leads_declare closed given rfl unwanted)
      | some written =>
          rw [statement]
          refine .bind_gives (gives_resolve written) (steady_resolve setting written)
            (fun _ ↦ Grows.after (.pure _) fun _ ↦ (steady_expression setting value _ _).1.before
              fun _ ↦ grows_declareValue _ _ _) ?_
          rintro _ ⟨rfl, closed'⟩
          refine .pure_bind (leads_declare closed given rfl ?_)
          exact fun _ same ↦ Option.some.inj same ▸ closed'
  | .assign (.binding name) value _, chained, closed, start => by
      have given := translates_expression proper value chained
      rw [statement]
      exact leads_simple closed (gives_assignVariable closed given name)
        (steady_assignVariable name given.steady)
  | .assign (.field name) value _, chained, closed, start => by
      have given := translates_expression proper value chained
      rw [statement]
      exact leads_simple closed (gives_assignField proper closed given name)
        (steady_assignField name _ given.steady)
  | .forEach binding iterable body _, chained, closed, start => by
      rw [Statement.isChained, Bool.and_eq_true] at chained
      have given := translates_expression proper iterable chained.1
      have given' := translatesBlock_block proper body chained.2
      rw [statement]
      exact (leads_forEachLoop closed given given' binding).translated closed
  | .whileLoop test body _, chained, closed, start => by
      rw [Statement.isChained, Bool.and_eq_true] at chained
      have given := translates_expression proper test chained.1
      have given' := translatesBlock_block proper body chained.2
      rw [statement]
      exact (leads_whileTrue closed given given').translated closed
  | .conditional test body other _, chained, closed, start => by
      rw [Statement.isChained, Bool.and_eq_true, Bool.and_eq_true] at chained
      have given := translates_expression proper test chained.1.1
      have given' := translatesBlock_block proper body chained.1.2
      have given'' := translatesAlternative_alternative proper other chained.2
      cases other with
      | absent =>
          rw [statement]
          exact (leads_ifTrue closed given given').translated closed
      | block | chain =>
          rw [statement]
          · have instead := given'' nofun
            refine Leads.translated (leads_ifElse closed (List.cons_ne_nil _ _) given given' ?_
              instead) closed
            exact nofun
          · exact nofun
  | .returns none _, _, closed, start => by
      rw [statement]
      exact leads_simple closed gives_returnNothing steady_returnNothing
  | .returns (some value) _, chained, closed, start => by
      have given := translates_expression proper value chained
      rw [statement]
      exact leads_simple closed (gives_returnValue proper closed given)
        (steady_returnValue given.steady)
  | .evaluate value, chained, closed, start => by
      have given := translates_expression proper value chained
      rw [statement]
      exact leads_simple closed (gives_discard closed given) (steady_discard given.steady)

/-- What an alternative is compiled to is its code. -/
theorem translatesAlternative_alternative {setting : Setting} (proper : setting.IsProper) :
    (other : Alternative) → other.isChained = true → other ≠ .absent →
    TranslatesAlternative program setting other (alternative setting other)
  | .absent, _, present => absurd rfl present
  | .block body, chained, _ => by
      have given := translatesBlock_block proper body chained
      refine ⟨grows_alternative setting _, fun closed _ start ↦ ?_⟩
      rw [alternative]
      refine (given.leads closed start).mono ?_
      rintro code _ after ⟨rfl, translated⟩
      exact ⟨rfl, .block translated⟩
  | .chain conditional, chained, _ => by
      rw [Alternative.isChained, Bool.and_eq_true] at chained
      refine ⟨grows_alternative setting _, fun {view slot number} closed here start ↦ ?_⟩
      rw [alternative]
      cases view with
      | nil => exact absurd rfl here
      | cons scope outer =>
          refine (leads_statement proper conditional chained.2 closed start).mono ?_
          rintro code _ after ⟨⟨inner, rfl, translated⟩, -, same⟩
          obtain ⟨rfl, -⟩ := List.cons.inj (same chained.1)
          exact ⟨rfl, .chain translated⟩

end

end GuestScript.Compile
