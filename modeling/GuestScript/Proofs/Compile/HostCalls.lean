import GuestScript.Proofs.Compile.Emits

/-!
# The host calls of bodies

The code of a body calls the host functions that its text calls, in the same order, and so does that
of each lambda in it, whether or not there is a mistake in the body. If there is none, each call has
as many arguments as its function has parameters.
-/

namespace GuestScript.Compile

open Bytecode (ImportIndex Op)
open Meaning (HostCall HostCalls callsIn callsInAll callsInAlternative callsInBlock callsInBody
  callsInStatement callsInStatements namingOf)
open Syntax

/-! ## Expressions -/

section Expressions

open Lowering

variable {setting : Setting} {calls others : HostCalls} {start : Nat} {span : Span}
  {given : List (ImportIndex × Nat)}

theorem emits_noValue (references : ReferenceSet) (code : Code) (message : String) (span : Span) :
    Emits references Typed.code [] .none (noValue code message span) :=
  .after (spares_mistake _ _ _) fun _ ↦ .pure rfl

theorem emits_receiverValue :
    Emits setting.references Typed.code [] .none (receiverValue setting span) := by
  unfold receiverValue
  split
  · exact .pure rfl
  · exact emits_noValue _ _ _ _

theorem emits_pathValue (references : ReferenceSet) (segments : List Identifier) :
    Emits references Typed.code [] .none (pathValue segments span) := by
  unfold pathValue
  split
  · refine .after (spares_lookup _) fun found ↦ ?_
    cases found with
    | some found => exact .pure rfl
    | none => exact emits_noValue _ _ _ _
  · exact emits_noValue _ _ _ _

/-- A part that was compiled before, and that a mistake may be reported about. -/
theorem emits_mistaken (references : ReferenceSet) (emitted : List Op) (code : Code)
    (message : String) (span : Span) :
    Emits references Typed.code (hostOps emitted) .none (do
      let type ← mistake code message span
      Pure.pure ⟨emitted, type⟩) :=
  .after (spares_mistake _ _ _) fun _ ↦ .pure rfl

theorem emits_fieldValue (target : Typed) (name : Identifier) :
    Emits setting.references Typed.code (hostOps target.code) .none
      (fieldValue setting target name) := by
  unfold fieldValue
  split
  · split
    · exact .pure (by simp [hostOps])
    · exact emits_mistaken _ _ _ _ _
  · exact .pure rfl
  · exact emits_mistaken _ _ _ _ _

theorem spares_checkedType (wanted : Option Ty) (found : Ty) :
    Spares (checkedType wanted found span) := by
  cases wanted with
  | some wanted => exact (spares_check _ _ _).bind fun _ ↦ .pure _
  | none => exact .pure _

theorem spares_itemType (target : Ty) : Spares (itemType target span) := by
  unfold itemType
  split
  iterate 3 exact .pure _
  exact spares_mistake _ _ _

theorem emits_newObject (name : Identifier) :
    Emits setting.references Typed.code [] .none (newObject setting name) := by
  unfold newObject
  simp only
  split
  · exact .pure rfl
  · exact emits_noValue _ _ _ _

theorem emits_unaryValue (references : ReferenceSet) (operator : UnaryOperator) (operand : Typed) :
    Emits references Typed.code (hostOps operand.code) .none
      (unaryValue operator operand span) := by
  have same : hostOps operand.code = hostOps (operand.code ++ [.unary operator]) := by
    simp [hostOps]
  unfold unaryValue
  rw [same]
  exact .ite (.pure rfl) (emits_mistaken _ _ _ _ _)

theorem emits_shortCircuit (references : ReferenceSet) (operator : BinaryOperator)
    (code : List Op) (left right : Ty) (same : hostOps code = given) :
    Emits references Typed.code given .none (shortCircuit operator code left right span) := by
  subst same
  exact .ite (.pure rfl) (emits_mistaken _ _ _ _ _)

theorem emits_strictOperator (references : ReferenceSet) (operator : BinaryOperator)
    (code : List Op) (left right : Ty) (same : hostOps code = given) :
    Emits references Typed.code given .none (strictOperator operator code left right span) := by
  subst same
  unfold strictOperator
  split
  · exact .pure rfl
  · exact emits_mistaken _ _ _ _ _

variable {left right : Pending} {arguments : PendingArguments} {references : ReferenceSet}

theorem emits_binaryValue (operator : BinaryOperator)
    (first : ∀ expected start, Emits references Typed.code [] calls (left expected start))
    (second : ∀ expected start, Emits references Typed.code [] others (right expected start)) :
    Emits references Typed.code [] (calls ++ others)
      (binaryValue operator left right span start) := by
  unfold binaryValue
  split
  · refine (first _ _).bind fun typed ↦ ((second _ _).behind typed.code).before fun typed' ↦ ?_
    exact emits_shortCircuit _ _ _ _ _ (by simp [hostOps])
  · refine (first _ _).bind fun typed ↦ ((second _ _).behind typed.code).before fun typed' ↦ ?_
    exact emits_shortCircuit _ _ _ _ _ (by simp [hostOps])
  · refine (first _ _).bind fun typed ↦ ((second _ _).behind typed.code).before fun typed' ↦ ?_
    exact emits_strictOperator _ _ _ _ _ (by simp [hostOps])

/-! ### Calls -/

/-- Arguments behind other code, which comes in reverse, make these host calls. -/
def EmitsArguments (references : ReferenceSet) (calls : HostCalls) (arguments : PendingArguments) :
    Prop :=
  ∀ parameters callee number bound before start, Emits references Prod.fst
    (hostOps before.reverse) calls (arguments parameters callee number bound before start)

theorem spares_checkArgument (accepted : Bool) (number : Nat) (callee : String)
    (wanted found : Ty) : Spares (checkArgument accepted number callee wanted found span) :=
  .ite (spares_report _ _ _) (.pure ())

theorem emits_checkedArguments (total : Nat) (parameters : List Ty) (callee : String)
    (before : List Op) (each : EmitsArguments references calls arguments) :
    Emits references Prod.fst (hostOps before) calls
      (checkedArguments arguments total parameters callee span before start) := by
  have given (start : Nat) : Emits references Prod.fst (hostOps before) calls
      (arguments parameters callee 1 none before.reverse start) := by
    have given := each parameters callee 1 none before.reverse start
    rwa [List.reverse_reverse] at given
  simp only [checkedArguments]
  exact .ite (.after (spares_report _ _ _) fun _ ↦ given _) (given _)

theorem emits_uncheckedArguments (before : List Op)
    (each : EmitsArguments references calls arguments) :
    Emits references id (hostOps before) calls (uncheckedArguments arguments before start) := by
  have given := each [] "" 1 none before.reverse (start + before.length)
  rw [List.reverse_reverse] at given
  exact given.map fun _ ↦ rfl

theorem emits_badCall (before : List Op) (code : Code) (message : String)
    (each : EmitsArguments references calls arguments) :
    Emits references Typed.code (hostOps before) calls
      (badCall arguments before start code message span) :=
  (emits_uncheckedArguments before each).before fun _ ↦ emits_mistaken _ _ _ _ _

theorem emits_callValue (callee : Typed) (total : Nat) (what : String)
    (each : EmitsArguments references calls arguments) :
    Emits references Typed.code (hostOps callee.code) calls
      (callValue callee arguments total what span start) := by
  have called (code : List Op) : hostOps (code ++ [.callClosure total]) = hostOps code := by
    simp [hostOps]
  unfold callValue
  split
  · exact (emits_checkedArguments _ _ _ _ each).map fun _ ↦ called _
  · exact (emits_uncheckedArguments _ each).map fun _ ↦ called _
  · exact (emits_uncheckedArguments _ each).map fun _ ↦ rfl
  · exact emits_badCall _ _ _ each

theorem emits_implicitReceiver (method : MethodInfo) :
    Emits references id [] .none (implicitReceiver setting method span) := by
  unfold implicitReceiver
  refine .ite (.pure rfl) ?_
  split
  · exact .pure rfl
  · exact .after (spares_report _ _ _) fun _ ↦ .pure rfl

theorem emits_callMethod (method : MethodInfo) (receiver : List Op) (total : Nat)
    (each : EmitsArguments references calls arguments) :
    Emits references Typed.code (hostOps receiver) calls
      (callMethod method receiver arguments total span start) :=
  (emits_checkedArguments _ _ _ _ each).map fun _ ↦ by simp [hostOps]

theorem spares_checkVisible (type : Bytecode.TypeIndex) (method : MethodInfo) :
    Spares (checkVisible setting type method span) :=
  .ite (spares_report _ _ _) (.pure ())

theorem emits_callName (name : Identifier) (total : Nat)
    (each : EmitsArguments references calls arguments) :
    Emits references Typed.code [] calls (callName setting name arguments total span start) := by
  unfold callName
  refine .after (spares_lookup _) fun found ↦ ?_
  cases found with
  | some found => exact emits_callValue _ _ _ each
  | none =>
      simp only
      split
      · exact (emits_implicitReceiver _).lead fun receiver ↦ emits_callMethod _ receiver _ each
      · exact emits_badCall [] _ _ each

theorem emits_callStatic (type : Bytecode.TypeIndex) (path : String) (function : Identifier)
    (total : Nat) (each : EmitsArguments references calls arguments) :
    Emits references Typed.code [] calls
      (callStatic setting type path function arguments total span start) := by
  unfold callStatic
  split
  · exact .ite (.after (spares_checkVisible _ _) fun _ ↦ emits_callMethod _ [] _ each)
      (emits_badCall [] _ _ each)
  · exact emits_badCall [] _ _ each

/-- Arguments that are not as many as the parameters are a mistake. -/
theorem not_quiet_checkedArguments (total : Nat) (parameters : List Ty) (callee : String)
    (before : List Op) (each : EmitsArguments references calls arguments)
    (different : parameters.length ≠ total) {body : Body}
    (imports : ImportsFrom references body.draft.imports) :
    ¬ (checkedArguments arguments total parameters callee span before start body).2.draft.Quiet := by
  simp only [checkedArguments, if_pos different]
  intro quiet
  let message := "`" ++ callee
    ++ s!"` takes {parameters.length} arguments but {total} were supplied"
  let reported := report .argumentCount message span body
  obtain ⟨_, -, gains⟩ := each parameters callee 1 none before.reverse (start + before.length)
    reported.2 imports
  exact Draft.not_quiet_report .argumentCount message span body.draft (quiet.of_extends gains.grown)

theorem emits_callHostFunction {binding : ModuleBinding}
    (known : references.lookup? binding.name = some binding) (path : String)
    (function : Identifier) (total : Nat) (each : EmitsArguments references calls arguments) :
    Emits references Typed.code []
      (calls ++ .ofCall? ((binding.host.function? function.name).map fun host ↦
        ⟨binding, host, total⟩))
      (callHostFunction binding path function arguments total span start) := by
  unfold callHostFunction
  cases member : binding.host.function? function.name with
  | none =>
      change Emits references Typed.code [] (calls ++ HostCalls.none) _
      rw [HostCalls.append_none]
      exact emits_badCall [] _ _ each
  | some host =>
      have name : host.name = function.name := by
        simpa using List.find?_some member
      intro body imports
      have emits : Emits references Prod.fst (hostOps []) calls
          (checkedArguments arguments total host.parameters path span [] start) :=
        emits_checkedArguments total host.parameters path [] each
      obtain ⟨ops, made, gains⟩ := emits body imports
      let checked := checkedArguments arguments total host.parameters path span [] start body
      have count : total = host.parameters.length ∨ ¬ checked.2.draft.Quiet := by
        by_cases same : host.parameters.length = total
        · exact .inl same.symm
        · exact .inr (not_quiet_checkedArguments total host.parameters path [] each same imports)
      have gains' := Draft.gains_importIndex ⟨binding, host, total⟩ gains.imports known
        (name ▸ member) count
      rw [HostCall.imported, name] at gains'
      refine ⟨_, ?_, gains.trans gains'⟩
      change hostOps (checked.1.1 ++ [.callHost _ total]) = _
      rw [hostOps_append, made]
      rfl

theorem emits_callNamed (segments : List Identifier) (calleeSpan : Span) (total : Nat)
    (each : EmitsArguments setting.references calls arguments) :
    Emits setting.references Typed.code []
      (calls ++ .ofCall? ((namingOf setting).hostCall? segments total))
      (callNamed setting segments calleeSpan arguments total span start) := by
  have silent {action : Lowering Typed} (emits : Emits setting.references Typed.code [] calls action) :
      Emits setting.references Typed.code [] (calls ++ .ofCall? none) action := by
    rwa [show HostCalls.ofCall? none = HostCalls.none from rfl, HostCalls.append_none]
  unfold callNamed
  split
  · exact silent (emits_callName _ _ each)
  · next qualifier function =>
      simp only [callPath, Meaning.Naming.hostCall?, namingOf]
      cases TypeName.find? (setting.types.map TypeInfo.name) qualifier.name
          setting.ownerName.namespaceName with
      | some type => exact silent (emits_callStatic _ _ _ _ each)
      | none =>
          cases found : setting.references.lookup? qualifier.name with
          | none => exact silent (emits_badCall [] _ _ each)
          | some binding =>
              have known : setting.references.lookup? binding.name = some binding := by
                rw [(ReferenceSet.mem_of_lookup? found).2]
                exact found
              exact emits_callHostFunction known _ function _ each
  · next other =>
      have none : (namingOf setting).hostCall? segments total = none := by
        unfold Meaning.Naming.hostCall?
        split
        · exact absurd rfl (other _ _)
        · rfl
      rw [none]
      exact silent (emits_badCall [] _ _ each)

theorem emits_callOnTarget (target : Typed) (method : Identifier) (total : Nat)
    (each : EmitsArguments references calls arguments) :
    Emits references Typed.code (hostOps target.code) calls
      (callOnTarget setting target method arguments total span start) := by
  unfold callOnTarget
  split
  · simp only
    split
    · exact .ite (emits_badCall _ _ _ each)
        (.after (spares_checkVisible _ _) fun _ ↦ emits_callMethod _ _ _ each)
    · exact emits_badCall _ _ _ each
  · exact (emits_uncheckedArguments _ each).map fun _ ↦ rfl
  · exact emits_badCall _ _ _ each

/-! ### Lambdas -/

theorem spares_captureOf (parameters : List Identifier) (name : String) :
    Spares (captureOf setting parameters name) :=
  .ite (.pure _) (.ite (.pure _) ((spares_lookup name).bind fun _ ↦ .pure _))

theorem spares_capturesOf (parameters : List Identifier) :
    (mentioned : List String) → Spares (capturesOf setting parameters mentioned)
  | [] => .pure []
  | name :: rest => by
      rw [capturesOf_cons]
      exact (spares_captureOf parameters name).bind fun _ ↦
        (spares_capturesOf parameters rest).bind fun _ ↦ .pure _

theorem spares_declareCaptures : (captures : List Capture) → Spares (declareCaptures captures)
  | [] => .pure ()
  | capture :: rest => by
      rw [declareCaptures]
      exact (spares_declareLocal _ _ _).bind fun _ ↦ spares_declareCaptures rest

theorem spares_declareParameters :
    (parameters : List (Identifier × Ty)) → Spares (declareParameters parameters)
  | [] => .pure ()
  | (name, type) :: rest => by
      have local' : Spares (declareLocal name.name type none >>= fun _ ↦ Pure.pure ()) :=
        (spares_declareLocal _ _ _).bind fun _ ↦ .pure _
      have one : Spares (declareParameter name type) := by
        simp only [declareParameter]
        refine .bind (.of_draft fun _ ↦ rfl) fun body ↦ ?_
        exact .ite ((spares_report _ _ _).bind fun _ ↦ local') local'
      rw [declareParameters]
      exact one.bind fun _ ↦ spares_declareParameters rest

theorem emits_closureValue (parameters : List Identifier) (captures : List Capture)
    (expected : Option Ty) {inside : Setting → Lowering Typed}
    (body : ∀ number result,
      Emits references Typed.code [] calls (inside (setting.inside number captures result))) :
    Emits references Typed.code [] calls.enclosed
      (closureValue setting parameters captures inside expected) := by
  have numbered : Spares (onDraft Draft.nextLambda) :=
    fun _ ↦ ⟨⟨⟨[], rfl⟩, id, Nat.le_refl _, fun _ ↦ rfl⟩, rfl, rfl⟩
  have loads : hostOps (captures.map fun capture ↦ Op.load capture.slot) = [] := by
    simp [hostOps, List.filterMap_map]
  unfold closureValue
  rcases lambdaSignature parameters.length expected with ⟨types, result⟩
  refine .after numbered fun number ↦ ?_
  let inner := setting.inside number captures result
  have own : Emits references Typed.code [] calls
      (lambdaInside captures (parameters.zip types) (inside inner)) :=
    .after (spares_declareCaptures _) fun _ ↦ .after (spares_declareParameters _) fun _ ↦
      body number result
  have added : Emits references (fun _ ↦ []) [] calls.enclosed (onDraft
      (addRoutine (closureRoutine inner captures.length parameters.length)
        (fun body ↦ body.code ++ epilogue)
        (lambdaInside captures (parameters.zip types) (inside inner)))) :=
    fun body imports ↦ ⟨[], rfl, gains_addRoutine own _ epilogue rfl imports⟩
  exact added.map fun _ ↦ by rw [hostOps_append, loads]; rfl

theorem emits_lambdaValue (parameters : List Identifier) (mentioned : List String)
    (expected : Option Ty) {inside : Setting → Lowering Typed}
    (body : ∀ number captures result,
      Emits references Typed.code [] calls (inside (setting.inside number captures result))) :
    Emits references Typed.code [] calls.enclosed
      (lambdaValue setting parameters mentioned inside expected) :=
  .after (spares_capturesOf parameters mentioned) fun captures ↦
    emits_closureValue parameters captures expected fun number ↦ body number captures

end Expressions

/-! ## Statements -/

section Statements

open Lowering

variable {setting : Setting} {references : ReferenceSet} {calls others : HostCalls} {start : Nat}
  {span : Span}

theorem emits_declareValue (name : Identifier) (declared : Option Ty) (value : Typed) :
    Emits references id (hostOps value.code) .none (declareValue name declared value span) :=
  .after (spares_checkedType _ _) fun _ ↦ .after (spares_declareLocal _ _ _) fun _ ↦
    .pure (by simp [hostOps])

variable {value : Pending}

theorem emits_assignVariable (name : Identifier)
    (each : ∀ expected start, Emits references Typed.code [] calls (value expected start)) :
    Emits references id [] calls (assignVariable name value span start) := by
  unfold assignVariable
  refine .after (spares_lookupTarget _) fun found ↦ ?_
  cases found with
  | some found =>
      exact (each _ _).before fun _ ↦ .after (spares_check _ _ _) fun _ ↦ .pure (by simp [hostOps])
  | none => exact .after (spares_report _ _ _) fun _ ↦ (each _ _).map fun _ ↦ rfl

theorem emits_assignField (name : Identifier) (valueSpan : Span)
    (each : ∀ expected start, Emits references Typed.code [] calls (value expected start)) :
    Emits references id [] calls (assignField setting name value valueSpan span start) := by
  unfold assignField
  split
  · exact .after (spares_report _ _ _) fun _ ↦ (each _ _).map fun _ ↦ rfl
  · split
    · exact .after (spares_report _ _ _) fun _ ↦ (each _ _).map fun _ ↦ rfl
    · exact (each _ _).before fun _ ↦ .after (spares_check _ _ _) fun _ ↦ .pure (by simp [hostOps])

theorem emits_condition
    (each : ∀ expected start, Emits references Typed.code [] calls (value expected start)) :
    Emits references id [] calls (condition value span start) :=
  (each _ _).before fun _ ↦ .after (spares_check _ _ _) fun _ ↦ .pure rfl

theorem spares_warnDiscarded (type : Ty) : Spares (warnDiscarded type span) := by
  unfold warnDiscarded
  split
  · exact .of_notes fun body ↦ .note _ body.draft
  · exact .pure ()

theorem emits_discard
    (each : ∀ expected start, Emits references Typed.code [] calls (value expected start)) :
    Emits references id [] calls (discard value span start) :=
  (each _ _).before fun _ ↦ .after (spares_warnDiscarded _) fun _ ↦ .pure (by simp [hostOps])

theorem emits_returnNothing : Emits references id [] .none (returnNothing setting span) := by
  simp only [returnNothing]
  exact .ite (.after (spares_report _ _ _) fun _ ↦ .pure rfl) (.pure rfl)

theorem emits_returnValue
    (each : ∀ expected start, Emits references Typed.code [] calls (value expected start)) :
    Emits references id [] calls (returnValue setting value span start) :=
  (each _ _).before fun _ ↦ .after (spares_check _ _ _) fun _ ↦ .pure (by simp [hostOps])

theorem spares_elementType (iterated : Ty) : Spares (elementType iterated span) := by
  unfold elementType
  split
  · exact .pure _
  · exact spares_mistake _ _ _

variable {inside test body other : Nat → Lowering (List Op)}

theorem emits_loopOver (binding : Identifier) (element : Ty) (iterated : List Op)
    (each : ∀ start, Emits references id [] calls (inside start)) :
    Emits references id (hostOps iterated) calls
      (loopOver binding element iterated inside start) :=
  .after spares_allocate fun _ ↦ .after spares_openScope fun _ ↦
    .after (spares_declareLocal _ _ _) fun _ ↦ ((each _).behind iterated).before fun _ ↦
      .after spares_closeScope fun _ ↦ .pure (by simp [hostOps])

theorem emits_forEachLoop (binding : Identifier) (iterableSpan : Span)
    (each : ∀ expected start, Emits references Typed.code [] calls (value expected start))
    (body : ∀ start, Emits references id [] others (inside start)) :
    Emits references id [] (calls ++ others)
      (forEachLoop binding value iterableSpan inside start) :=
  (each _ _).bind fun _ ↦ .after (spares_elementType _) fun _ ↦ emits_loopOver _ _ _ body

theorem emits_whileTrue (first : ∀ start, Emits references id [] calls (test start))
    (second : ∀ start, Emits references id [] others (body start)) :
    Emits references id [] (calls ++ others) (whileTrue test body start) :=
  (first _).bind fun tested ↦ ((second _).behind tested).map fun _ ↦ by simp [hostOps]

theorem emits_ifTrue (first : ∀ start, Emits references id [] calls (test start))
    (second : ∀ start, Emits references id [] others (body start)) :
    Emits references id [] (calls ++ others) (ifTrue test body start) :=
  (first _).bind fun tested ↦ ((second _).behind tested).map fun _ ↦ by simp [hostOps]

theorem emits_ifElse {last : HostCalls}
    (first : ∀ start, Emits references id [] calls (test start))
    (second : ∀ start, Emits references id [] others (body start))
    (third : ∀ start, Emits references id [] last (other start)) :
    Emits references id [] (calls ++ (others ++ last)) (ifElse test body other start) := by
  refine (first _).bind fun tested ↦ ((second _).behind tested).bind fun inside ↦ ?_
  refine ((third _).behind (tested ++ id inside)).map fun _ ↦ by simp [hostOps]

end Statements

/-! ## The walk -/

section Walk

open Lowering

mutual

/-- The code of an expression makes the host calls in it. -/
theorem emits_expression (setting : Setting) : (value : Expression) → (expected : Option Ty) →
    (start : Nat) → Emits setting.references Typed.code [] (callsIn (namingOf setting) value)
      (expression setting value expected start)
  | .int .., _, _ | .str .., _, _ | .bool .., _, _ => .pure rfl
  | .array values _, expected, start => by
      rw [callsIn, expression]
      exact (emits_items setting values _ [] _).map fun _ ↦ by simp [hostOps]
  | .receiver _, _, _ => emits_receiverValue
  | .path segments _, _, _ => emits_pathValue _ segments
  | .call callee values span, expected, start => by
      have each := emits_arguments setting values
      cases callee with
      | path segments calleeSpan =>
          rw [callsIn, expression]
          exact emits_callNamed _ _ _ each
      | _ =>
          rw [callsIn, expression]
          · exact (emits_expression setting _ _ _).bind fun _ ↦ emits_callValue _ _ _ each
          · exact nofun
          · exact nofun
  | .method target name values span, expected, start => by
      rw [callsIn, expression]
      exact (emits_expression setting target _ _).bind fun _ ↦
        emits_callOnTarget _ _ _ (emits_arguments setting values)
  | .field target name _, expected, start => by
      rw [callsIn, expression]
      exact (emits_expression setting target _ _).before fun _ ↦ emits_fieldValue _ _
  | .element target index _, expected, start => by
      rw [callsIn, expression]
      exact (emits_expression setting target _ _).bind fun typed ↦
        ((emits_expression setting index _ _).behind typed.code).before fun _ ↦
          .after (spares_check _ _ _) fun _ ↦ .after (spares_itemType _) fun _ ↦
            .pure (by simp [hostOps])
  | .construct name _, _, _ => emits_newObject name
  | .lambda parameters body _, expected, start => by
      rw [callsIn, expression]
      exact emits_lambdaValue _ _ _ fun number captures result ↦
        emits_lambdaBody (setting.inside number captures result) body
  | .unary operator operand _, expected, start => by
      rw [callsIn, expression]
      exact (emits_expression setting operand _ _).before fun _ ↦ emits_unaryValue _ _ _
  | .binary operator left right _, expected, start => by
      rw [callsIn, expression]
      exact emits_binaryValue operator (emits_expression setting left)
        (emits_expression setting right)

/-- The code of the items of an array makes the host calls in them. -/
theorem emits_items (setting : Setting) : (values : List Expression) → (element : Option Ty) →
    (before : List Op) → (start : Nat) → Emits setting.references Prod.fst (hostOps before.reverse)
      (callsInAll (namingOf setting) values) (items setting values element before start)
  | [], _, _, _ => .pure rfl
  | item :: rest, element, before, start => by
      rw [callsInAll, items]
      refine ((emits_expression setting item _ _).behind before.reverse).bind fun typed ↦
        .after (spares_checkedType _ _) fun type ↦ ?_
      have others := emits_items setting rest (some type) (typed.code.reverse ++ before)
        (start + typed.code.length)
      rwa [List.reverse_append, List.reverse_reverse] at others

/-- The code of arguments makes the host calls in them. -/
theorem emits_arguments (setting : Setting) : (values : List Expression) →
    EmitsArguments setting.references (callsInAll (namingOf setting) values)
      (arguments setting values)
  | [], _, _, _, _, _, _ => .pure rfl
  | argument :: rest, [], callee, number, bound, before, start => by
      rw [callsInAll, arguments]
      refine ((emits_expression setting argument _ _).behind before.reverse).bind fun typed ↦ ?_
      have others := emits_arguments setting rest [] callee (number + 1) bound
        (typed.code.reverse ++ before) (start + typed.code.length)
      rwa [List.reverse_append, List.reverse_reverse] at others
  | argument :: rest, wanted :: parameters, callee, number, bound, before, start => by
      rw [callsInAll, arguments]
      refine ((emits_expression setting argument _ _).behind before.reverse).bind fun typed ↦
        .after (spares_checkArgument _ _ _ _ _) fun _ ↦ ?_
      have others := emits_arguments setting rest parameters callee (number + 1)
        (wanted.accepts typed.type bound).2 (typed.code.reverse ++ before)
        (start + typed.code.length)
      rwa [List.reverse_append, List.reverse_reverse] at others

/-- The code of the body of a lambda makes the host calls in it. -/
theorem emits_lambdaBody (setting : Setting) : (body : LambdaBody) →
    Emits setting.references Typed.code [] (callsInBody (namingOf setting) body)
      (lambdaBody setting body)
  | .expression value => by
      rw [callsInBody, lambdaBody]
      exact (emits_expression setting value _ _).before fun _ ↦
        .after (spares_check _ _ _) fun _ ↦ .pure (by simp [hostOps])
  | .block body => by
      rw [callsInBody, lambdaBody]
      exact (emits_block setting body 0).map fun _ ↦ rfl

/-- The code of a block makes the host calls in it. -/
theorem emits_block (setting : Setting) : (body : Block) → (start : Nat) →
    Emits setting.references id [] (callsInBlock (namingOf setting) body)
      (block setting body start)
  | .mk inside _, start => by
      rw [callsInBlock, block]
      exact .after spares_openScope fun _ ↦
        (emits_statements setting inside [] _).before fun _ ↦
          .after spares_closeScope fun _ ↦ .pure rfl

/-- The code of statements makes the host calls in them. -/
theorem emits_statements (setting : Setting) : (body : List Statement) → (before : List Op) →
    (start : Nat) → Emits setting.references id (hostOps before.reverse)
      (callsInStatements (namingOf setting) body) (statements setting body before start)
  | [], _, _ => .pure rfl
  | first :: rest, before, start => by
      rw [callsInStatements, statements]
      refine ((emits_statement setting first start).behind before.reverse).bind fun code ↦ ?_
      have others := emits_statements setting rest (code.reverse ++ before) (start + code.length)
      rwa [List.reverse_append, List.reverse_reverse] at others

/-- The code of a statement makes the host calls in it. -/
theorem emits_statement (setting : Setting) : (one : Statement) → (start : Nat) →
    Emits setting.references id [] (callsInStatement (namingOf setting) one)
      (statement setting one start)
  | .declare name written value _, start => by
      have rest (declared : Option Ty) : Emits setting.references id []
          (callsIn (namingOf setting) value) (do
            let typed ← expression setting value declared start
            declareValue name declared typed value.span) :=
        (emits_expression setting value _ _).before fun _ ↦ emits_declareValue _ _ _
      rw [callsInStatement]
      cases written with
      | some written =>
          rw [statement]
          exact .after (spares_resolve _ _) fun _ ↦ .after (.pure _) rest
      | none =>
          rw [statement]
          exact .after (.pure _) rest
  | .assign (.binding name) value _, start => by
      rw [callsInStatement, statement]
      exact emits_assignVariable name (emits_expression setting value)
  | .assign (.field name) value _, start => by
      rw [callsInStatement, statement]
      exact emits_assignField name _ (emits_expression setting value)
  | .forEach binding iterable body _, start => by
      rw [callsInStatement, statement]
      exact emits_forEachLoop binding _ (emits_expression setting iterable)
        (emits_block setting body)
  | .whileLoop test body _, start => by
      rw [callsInStatement, statement]
      exact emits_whileTrue (fun _ ↦ emits_condition (emits_expression setting test))
        (emits_block setting body)
  | .conditional test body other _, start => by
      have tested (start : Nat) : Emits setting.references id []
          (callsIn (namingOf setting) test)
          (condition (expression setting test) test.span start) :=
        emits_condition (emits_expression setting test)
      rw [callsInStatement]
      cases other with
      | absent =>
          rw [callsInAlternative, HostCalls.append_none, statement]
          exact emits_ifTrue tested (emits_block setting body)
      | block | chain =>
          rw [statement]
          · exact emits_ifElse tested (emits_block setting body) (emits_alternative setting _)
          · exact nofun
  | .returns none _, _ => by
      rw [callsInStatement, statement]
      exact emits_returnNothing
  | .returns (some value) _, start => by
      rw [callsInStatement, statement]
      exact emits_returnValue (emits_expression setting value)
  | .evaluate value, start => by
      rw [callsInStatement, statement]
      exact emits_discard (emits_expression setting value)

/-- The code of an alternative makes the host calls in it. -/
theorem emits_alternative (setting : Setting) : (other : Alternative) → (start : Nat) →
    Emits setting.references id [] (callsInAlternative (namingOf setting) other)
      (alternative setting other start)
  | .absent, _ => .pure rfl
  | .block body, start => by
      rw [callsInAlternative, alternative]
      exact emits_block setting body start
  | .chain conditional, start => by
      rw [callsInAlternative, alternative]
      exact emits_statement setting conditional start

end

end Walk

end GuestScript.Compile
