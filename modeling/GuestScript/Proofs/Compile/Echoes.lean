import GuestScript.Proofs.Compile.BareUnits
import GuestScript.Proofs.Compile.Growth

/-!
# Compiling again with more modules

A body is compiled twice: once as it is, and once without its positions and with more modules to use.
The second compilation echoes the first one, which is `Echoing`: from the bare state it gives the same
and leaves the bare state. Where the modules differ, this needs that the first one is not about to
report an error, since a module that was missing may be there then. So the walk asks for states that are
calm in the end: no error has been found, or the modules are the same.
-/

namespace GuestScript

/-- Each module that may be used by one set of references may be used by another, with the same
binding, whatever order they are in and whatever else there is. -/
def ReferenceSet.IsWithin (references wider : ReferenceSet) : Prop :=
  ∀ {name : String} {binding : ModuleBinding}, references.lookup? name = some binding →
    wider.lookup? name = some binding

/-- One set of references is within another, which has no more modules if `settled`. -/
structure ReferenceSet.Within (settled : Prop) (references wider : ReferenceSet) : Prop where
  lookup : references.IsWithin wider
  only : settled → ∀ name, wider.lookup? name = references.lookup? name

namespace ReferenceSet.Within

variable {settled : Prop} {references wider : ReferenceSet}

theorem contains (within : references.Within settled wider) {name : String}
    (known : references.contains name = true) : wider.contains name = true := by
  obtain ⟨binding, found⟩ := Option.isSome_iff_exists.mp known
  rw [ReferenceSet.contains, within.lookup found]
  rfl

theorem contains_eq (within : references.Within settled wider) (same : settled) (name : String) :
    wider.contains name = references.contains name := by
  rw [ReferenceSet.contains, within.only same, ReferenceSet.contains]

end ReferenceSet.Within

namespace Compile

open Bytecode (Import Op Routine RoutineIndex)
open Syntax

/-- Where an action ends calmly it has started calmly, and from the bare state its echo gives what is
to be seen of its result and leaves the bare state. -/
def Echoing {State Value Other : Type} (calm : State → Prop) (bare : State → State)
    (see : Value → Other) (action : StateM State Value) (echo : StateM State Other) : Prop :=
  ∀ state, calm (action state).2 →
    calm state ∧ echo (bare state) = (see (action state).1, bare (action state).2)

namespace Echoing

variable {State Value Other Next Last : Type} {calm : State → Prop} {bare : State → State}
  {see : Value → Other} {see' : Next → Last} {action : StateM State Value}
  {echo : StateM State Other}

protected theorem pure (see : Value → Other) (value : Value) :
    Echoing calm bare see (Pure.pure value) (Pure.pure (see value)) :=
  fun _ quiet ↦ ⟨quiet, rfl⟩

protected theorem bind {next : Value → StateM State Next} {next' : Other → StateM State Last}
    (first : Echoing calm bare see action echo)
    (second : ∀ value, Echoing calm bare see' (next value) (next' (see value))) :
    Echoing calm bare see' (action >>= next) (echo >>= next') := by
  intro state quiet
  obtain ⟨between, after⟩ := second (action state).1 (action state).2 quiet
  obtain ⟨before, same⟩ := first state between
  refine ⟨before, ?_⟩
  change next' (echo (bare state)).1 (echo (bare state)).2 = _
  rw [same]
  exact after

protected theorem map {make : Value → Next} {make' : Other → Last}
    (first : Echoing calm bare see action echo)
    (same : ∀ value, make' (see value) = see' (make value)) :
    Echoing calm bare see' (action >>= fun value ↦ Pure.pure (make value))
      (echo >>= fun value ↦ Pure.pure (make' value)) :=
  first.bind fun value ↦ same value ▸ .pure see' (make value)

/-- What is seen as it is may be made into something else. -/
theorem give {echo : StateM State Value} {make : Value → Next}
    (first : Echoing calm bare (fun value ↦ value) action echo) :
    Echoing calm bare (fun value ↦ value) (action >>= fun value ↦ Pure.pure (make value))
      (echo >>= fun value ↦ Pure.pure (make value)) :=
  first.map fun _ ↦ rfl

protected theorem ite {condition : Prop} [Decidable condition] {other : StateM State Value}
    {other' : StateM State Other} (first : Echoing calm bare see action echo)
    (second : Echoing calm bare see other other') :
    Echoing calm bare see (if condition then action else other)
      (if condition then echo else other') := by
  split
  · exact first
  · exact second

end Echoing

/-! ## Actions on drafts -/

namespace Draft

variable {settled : Prop} {references wider : ReferenceSet}

/-- No error has been found, unless nothing depends on it. -/
def Calm (settled : Prop) (draft : Draft) : Prop :=
  settled ∨ draft.Quiet

theorem Calm.of_added {before after : Draft} (calm : after.Calm settled)
    (added : List (Diagnostic Span)) (same : after.findings = added ++ before.findings) :
    before.Calm settled :=
  calm.imp_right fun quiet finding inside ↦ quiet finding (same ▸ List.mem_append_right added inside)

/-- An error that is not calm settles the matter. -/
theorem settled_of_report {code : Code} {message : String} {span : Span} {draft : Draft}
    (calm : (report code message span draft).2.Calm settled) : settled :=
  calm.resolve_right (not_quiet_report code message span draft)

/-- An action on a draft is echoed, and what it gives is seen so. -/
abbrev EchoesAs {Value Other : Type} (settled : Prop) (see : Value → Other)
    (action : Drafting Value) (echo : Drafting Other) : Prop :=
  Echoing (Calm settled) bare see action echo

/-- An action on a draft is echoed. -/
abbrev Echoes {Value : Type} (settled : Prop) (action echo : Drafting Value) : Prop :=
  EchoesAs settled (fun value ↦ value) action echo

theorem echoes_note (finding : Diagnostic Span) :
    Echoes settled (note finding) (note finding.bare) :=
  fun _ calm ↦ ⟨calm.of_added [finding] rfl, rfl⟩

theorem echoes_report (code : Code) (message : String) (span : Span) :
    Echoes settled (report code message span) (report code message .nowhere) :=
  echoes_note _

theorem echoes_reserve (routine : Routine) : Echoes settled (reserve routine) (reserve routine) :=
  fun _ calm ↦ ⟨calm.of_added [] rfl, rfl⟩

theorem echoes_complete (index : RoutineIndex) (code : List Op) (locals : Nat) :
    Echoes settled (complete index code locals) (complete index code locals) :=
  fun _ calm ↦ ⟨calm.of_added [] rfl, rfl⟩

theorem echoes_nextLambda : Echoes settled nextLambda nextLambda :=
  fun _ calm ↦ ⟨calm.of_added [] rfl, rfl⟩

theorem echoes_importIndex (wanted : Import) :
    Echoes settled (importIndex wanted) (importIndex wanted) := by
  intro draft calm
  have same : draft.bare.imports = draft.imports := rfl
  rw [importIndex_apply, importIndex_apply, same]
  rw [importIndex_apply] at calm
  cases known : draft.imports.findIdx? (isImport wanted) with
  | some index =>
      rw [known] at calm
      exact ⟨calm, rfl⟩
  | none =>
      rw [known] at calm
      exact ⟨calm.of_added [] rfl, rfl⟩

mutual

/-- What a written type means is the same where there are more modules, if it means something. -/
theorem echoes_resolveType (within : references.Within settled wider) (names : List TypeName)
    (namespaceName : String) : (written : TypeExpression) →
    Echoes settled (resolveType references names namespaceName written)
      (resolveType wider names namespaceName written.bare)
  | .int _ | .str _ | .bool _ | .unit _ => .pure _ _
  | .dyn span => by
      rw [TypeExpression.bare, resolveType, resolveType]
      intro draft
      cases known : references.contains "dynamic" with
      | true =>
          simp only [within.contains known, if_true]
          exact fun calm ↦ ⟨calm, rfl⟩
      | false =>
          simp only [Bool.false_eq_true, if_false]
          intro calm
          have unknown := within.contains_eq (settled_of_report calm) "dynamic"
          simp only [unknown, known, Bool.false_eq_true, if_false]
          exact (echoes_report _ _ span).map (fun _ ↦ rfl) draft calm
  | .array element _ | .seq element _ => by
      rw [TypeExpression.bare, resolveType, resolveType]
      exact (echoes_resolveType within names namespaceName element).map fun _ ↦ rfl
  | .function parameters result _ => by
      rw [TypeExpression.bare, resolveType, resolveType]
      exact (echoes_resolveTypes within names namespaceName parameters).bind fun _ ↦
        (echoes_resolveType within names namespaceName result).map fun _ ↦ rfl
  | .named name span => by
      rw [TypeExpression.bare, resolveType, resolveType]
      cases TypeName.find? names name namespaceName with
      | some index => exact .pure _ _
      | none => exact (echoes_report _ _ span).map fun _ ↦ rfl

theorem echoes_resolveTypes (within : references.Within settled wider) (names : List TypeName)
    (namespaceName : String) : (written : List TypeExpression) →
    Echoes settled (resolveTypes references names namespaceName written)
      (resolveTypes wider names namespaceName (bareTypes written))
  | [] => .pure _ _
  | first :: rest => by
      rw [bareTypes, resolveTypes, resolveTypes]
      exact (echoes_resolveType within names namespaceName first).bind fun _ ↦
        (echoes_resolveTypes within names namespaceName rest).map fun _ ↦ rfl

end

end Draft

/-! ## Actions on bodies -/

/-- What a body may use, without positions and with more modules. -/
def Setting.bare (setting : Setting) (wider : ReferenceSet) : Setting :=
  { setting with references := wider, types := setting.types.map TypeInfo.bare }

namespace Lowering

variable {settled : Prop} {wider : ReferenceSet}

/-- An action on a body is echoed, and what it gives is seen so. -/
abbrev EchoesAs {Value Other : Type} (settled : Prop) (see : Value → Other)
    (action : Lowering Value) (echo : Lowering Other) : Prop :=
  Echoing (fun body : Body ↦ body.draft.Calm settled) Body.bare see action echo

/-- An action on a body is echoed. -/
abbrev Echoes {Value : Type} (settled : Prop) (action echo : Lowering Value) : Prop :=
  EchoesAs settled (fun value ↦ value) action echo

theorem echoes_onDraft {Value Other : Type} {see : Value → Other} {action : Drafting Value}
    {echo : Drafting Other} (inner : Draft.EchoesAs settled see action echo) :
    EchoesAs settled see (onDraft action) (onDraft echo) := by
  intro body calm
  obtain ⟨before, same⟩ := inner body.draft calm
  refine ⟨before, ?_⟩
  change ((echo body.draft.bare).1, { body.bare with draft := (echo body.draft.bare).2 }) = _
  rw [same]
  rfl

theorem echoes_report (code : Code) (message : String) (span : Span) :
    Echoes settled (report code message span) (report code message .nowhere) :=
  echoes_onDraft (Draft.echoes_report code message span)

theorem echoes_mistake (code : Code) (message : String) (span : Span) :
    Echoes settled (mistake code message span) (mistake code message .nowhere) :=
  (echoes_report code message span).map fun _ ↦ rfl

theorem echoes_check (expected actual : Ty) (span : Span) :
    Echoes settled (check expected actual span) (check expected actual .nowhere) :=
  .ite (.pure _ ()) (echoes_report _ _ span)

theorem echoes_resolve {setting : Setting} (within : setting.references.Within settled wider)
    (written : TypeExpression) : Echoes settled (resolve setting written)
      (resolve (setting.bare wider) written.bare) := by
  have names : (setting.bare wider).types.map TypeInfo.name = setting.types.map TypeInfo.name :=
    names_bare setting.types
  unfold resolve
  rw [names]
  exact echoes_onDraft (Draft.echoes_resolveType within _ _ written)

theorem echoes_allocate : Echoes settled allocate allocate :=
  fun _ calm ↦ ⟨calm, rfl⟩

theorem echoes_declareLocal (name : String) (type : Ty) (lint : Option Span) :
    Echoes settled (declareLocal name type lint)
      (declareLocal name type (lint.map fun _ ↦ .nowhere)) := by
  refine echoes_allocate.bind fun slot ↦ Echoing.give ?_
  intro body calm
  obtain ⟨draft, scopes, nextSlot⟩ := body
  cases scopes <;> exact ⟨calm, rfl⟩

theorem echoes_openScope : Echoes settled openScope openScope :=
  fun _ calm ↦ ⟨calm, rfl⟩

theorem echoes_closeScope : Echoes settled closeScope closeScope := by
  intro body calm
  obtain ⟨draft, scopes, nextSlot⟩ := body
  cases scopes with
  | nil => exact ⟨calm, rfl⟩
  | cons scope outer =>
      have findings : (scope.map Local.bare).filterMap unusedWarning? ++
          draft.findings.map Diagnostic.bare
            = (scope.filterMap unusedWarning? ++ draft.findings).map Diagnostic.bare := by
        rw [unusedWarnings_bare, List.map_append]
      exact ⟨Draft.Calm.of_added calm _ rfl, congrArg
        (fun findings ↦ ((), (⟨{ draft with findings }, bareScopes outer, nextSlot⟩ : Body)))
        findings⟩

theorem echoes_lookup (name : String) :
    EchoesAs settled (Option.map Local.bare) (lookup name) (lookup name) := by
  intro body calm
  have scopes : body.bare.scopes = bareScopes body.scopes := rfl
  rw [lookup_eq] at calm
  rw [lookup_eq, lookup_eq, scopes, findAndMark_bare]
  cases found : findAndMark name body.scopes with
  | some result =>
      rw [found] at calm
      exact ⟨calm, rfl⟩
  | none =>
      rw [found] at calm
      exact ⟨calm, rfl⟩

theorem echoes_lookupTarget (name : String) :
    EchoesAs settled (Option.map Local.bare) (lookupTarget name) (lookupTarget name) :=
  fun body calm ↦ ⟨calm, congrArg (·, body.bare) (findSome_findIn_bare name body.scopes)⟩

/-! ### Routines inside routines -/

theorem echoes_alone {Value Other : Type} {see : Value → Other} {action : Lowering Value}
    {echo : Lowering Other} (inner : EchoesAs settled see action echo) :
    Draft.EchoesAs settled (fun result ↦ (see result.1, result.2)) (alone action) (alone echo) := by
  intro draft calm
  obtain ⟨before, same⟩ := inner ⟨draft, [[]], 0⟩ calm
  refine ⟨before, ?_⟩
  change (((echo (Body.bare ⟨draft, [[]], 0⟩)).1, (echo (Body.bare ⟨draft, [[]], 0⟩)).2.nextSlot),
    (echo (Body.bare ⟨draft, [[]], 0⟩)).2.draft) = _
  rw [same]
  rfl

theorem echoes_addRoutine {Value : Type} {action echo : Lowering Value} (routine : Routine)
    (code : Value → List Op) (inner : Echoes settled action echo) :
    Draft.Echoes settled (addRoutine routine code action) (addRoutine routine code echo) :=
  (Draft.echoes_reserve routine).bind fun _ ↦ (echoes_alone inner).bind fun _ ↦
    (Draft.echoes_complete _ _ _).map fun _ ↦ rfl

end Lowering

/-! ## Expressions -/

/-- A pending expression is echoed, whatever it is wanted for and wherever it will stand. -/
def Pending.Echoes (settled : Prop) (value echo : Pending) : Prop :=
  ∀ expected start, Lowering.Echoes settled (value expected start) (echo expected start)

/-- Pending arguments are echoed, whatever they are for and wherever they will stand. -/
def PendingArguments.Echoes (settled : Prop) (arguments echo : PendingArguments) : Prop :=
  ∀ parameters callee number bound before start, Lowering.Echoes settled
    (arguments parameters callee number bound before start)
    (echo parameters callee number bound before start)

section Expressions

open Lowering

variable {settled : Prop} {wider : ReferenceSet} {setting : Setting} {start : Nat} {span : Span}

theorem echoes_noValue (code : Code) (message : String) :
    Echoes settled (noValue code message span) (noValue code message .nowhere) :=
  (echoes_mistake code message span).map fun _ ↦ rfl

theorem echoes_receiverValue : Echoes settled (receiverValue setting span)
    (receiverValue (setting.bare wider) .nowhere) := by
  have receiver : (setting.bare wider).receiver = setting.receiver := rfl
  unfold receiverValue
  rw [receiver]
  cases setting.receiver with
  | some slot => exact .pure _ _
  | none => exact echoes_noValue _ _

theorem echoes_pathValue (segments : List Identifier) : Echoes settled (pathValue segments span)
    (pathValue (segments.map Identifier.bare) .nowhere) := by
  match segments with
  | [name] =>
      refine (echoes_lookup name.name).bind fun found ↦ ?_
      cases found with
      | some found => exact .pure _ _
      | none => exact echoes_noValue _ _
  | [] => exact echoes_noValue _ _
  | first :: second :: rest =>
      unfold pathValue
      rw [pathText_bare]
      exact echoes_noValue _ _

theorem echoes_fieldValue (target : Typed) (name : Identifier) :
    Echoes settled (fieldValue setting target name)
      (fieldValue (setting.bare wider) target name.bare) := by
  have field (fullName : String) : fieldOf? (setting.bare wider).types fullName name.bare.name
      = fieldOf? setting.types fullName name.name := fieldOf_bare setting.types fullName name.name
  unfold fieldValue
  simp only [field]
  split
  · split
    · exact .pure _ _
    · exact (echoes_mistake _ _ _).map fun _ ↦ rfl
  · exact .pure _ _
  · exact (echoes_mistake _ _ _).map fun _ ↦ rfl

theorem echoes_checkedType (wanted : Option Ty) (found : Ty) :
    Echoes settled (checkedType wanted found span) (checkedType wanted found .nowhere) := by
  cases wanted with
  | some wanted => exact (echoes_check _ _ _).map fun _ ↦ rfl
  | none => exact .pure _ _

theorem echoes_itemType (target : Ty) :
    Echoes settled (itemType target span) (itemType target .nowhere) := by
  unfold itemType
  split
  iterate 3 exact .pure _ _
  exact echoes_mistake _ _ _

theorem echoes_newObject (name : Identifier) : Echoes settled (newObject setting name)
    (newObject (setting.bare wider) name.bare) := by
  have names : (setting.bare wider).types.map TypeInfo.name = setting.types.map TypeInfo.name :=
    names_bare setting.types
  have fullName (index : Bytecode.TypeIndex) : fullNameOf (setting.bare wider).types index
      = fullNameOf setting.types index := fullNameOf_bare setting.types index
  simp only [newObject, names, fullName]
  have meant : TypeName.find? (setting.types.map TypeInfo.name) name.bare.name
      (setting.bare wider).ownerName.namespaceName
    = TypeName.find? (setting.types.map TypeInfo.name) name.name setting.ownerName.namespaceName :=
    rfl
  rw [meant]
  split
  · exact .pure _ _
  · exact echoes_noValue _ _

theorem echoes_unaryValue (operator : UnaryOperator) (operand : Typed) :
    Echoes settled (unaryValue operator operand span) (unaryValue operator operand .nowhere) := by
  unfold unaryValue
  exact .ite (.pure _ _) ((echoes_mistake _ _ _).map fun _ ↦ rfl)

theorem echoes_shortCircuit (operator : BinaryOperator) (code : List Op) (left right : Ty) :
    Echoes settled (shortCircuit operator code left right span)
      (shortCircuit operator code left right .nowhere) := by
  unfold shortCircuit
  exact .ite (.pure _ _) ((echoes_mistake _ _ _).map fun _ ↦ rfl)

theorem echoes_strictOperator (operator : BinaryOperator) (code : List Op) (left right : Ty) :
    Echoes settled (strictOperator operator code left right span)
      (strictOperator operator code left right .nowhere) := by
  unfold strictOperator
  split
  · exact .pure _ _
  · exact (echoes_mistake _ _ _).map fun _ ↦ rfl

variable {left right left' right' : Pending} {arguments arguments' : PendingArguments}

theorem echoes_binaryValue (operator : BinaryOperator) (first : left.Echoes settled left')
    (second : right.Echoes settled right') :
    Echoes settled (binaryValue operator left right span start)
      (binaryValue operator left' right' .nowhere start) := by
  unfold binaryValue
  split
  · exact (first _ _).bind fun _ ↦ (second _ _).bind fun _ ↦ echoes_shortCircuit _ _ _ _
  · exact (first _ _).bind fun _ ↦ (second _ _).bind fun _ ↦ echoes_shortCircuit _ _ _ _
  · exact (first _ _).bind fun _ ↦ (second _ _).bind fun _ ↦ echoes_strictOperator _ _ _ _

/-! ### Calls -/

theorem echoes_checkArgument (accepted : Bool) (number : Nat) (callee : String)
    (wanted found : Ty) : Echoes settled (checkArgument accepted number callee wanted found span)
      (checkArgument accepted number callee wanted found .nowhere) :=
  .ite (echoes_report _ _ _) (.pure _ ())

theorem echoes_checkedArguments (count : Nat) (parameters : List Ty) (callee : String)
    (before : List Op) (each : arguments.Echoes settled arguments') :
    Echoes settled (checkedArguments arguments count parameters callee span before start)
      (checkedArguments arguments' count parameters callee .nowhere before start) := by
  simp only [checkedArguments]
  exact .ite ((echoes_report _ _ _).bind fun _ ↦ each _ _ _ _ _ _) (each _ _ _ _ _ _)

theorem echoes_uncheckedArguments (before : List Op) (each : arguments.Echoes settled arguments') :
    Echoes settled (uncheckedArguments arguments before start)
      (uncheckedArguments arguments' before start) :=
  (each _ _ _ _ _ _).map fun _ ↦ rfl

theorem echoes_badCall (before : List Op) (code : Code) (message : String)
    (each : arguments.Echoes settled arguments') :
    Echoes settled (badCall arguments before start code message span)
      (badCall arguments' before start code message .nowhere) :=
  (echoes_uncheckedArguments before each).bind fun _ ↦ (echoes_mistake _ _ _).map fun _ ↦ rfl

theorem echoes_callValue (callee : Typed) (count : Nat) (what : String)
    (each : arguments.Echoes settled arguments') :
    Echoes settled (callValue callee arguments count what span start)
      (callValue callee arguments' count what .nowhere start) := by
  unfold callValue
  split
  · exact (echoes_checkedArguments _ _ _ _ each).map fun _ ↦ rfl
  · exact (echoes_uncheckedArguments _ each).map fun _ ↦ rfl
  · exact (echoes_uncheckedArguments _ each).map fun _ ↦ rfl
  · exact echoes_badCall _ _ _ each

theorem echoes_implicitReceiver (method : MethodInfo) :
    Echoes settled (implicitReceiver setting method span)
      (implicitReceiver (setting.bare wider) method.bare .nowhere) := by
  have receiver : (setting.bare wider).receiver = setting.receiver := rfl
  unfold implicitReceiver
  rw [receiver]
  refine .ite (.pure _ _) ?_
  cases setting.receiver with
  | some slot => exact .pure _ _
  | none => exact (echoes_report _ _ _).map fun _ ↦ rfl

theorem echoes_callMethod (method : MethodInfo) (receiver : List Op) (count : Nat)
    (each : arguments.Echoes settled arguments') :
    Echoes settled (callMethod method receiver arguments count span start)
      (callMethod method.bare receiver arguments' count .nowhere start) :=
  (echoes_checkedArguments _ _ _ _ each).map fun _ ↦ rfl

theorem echoes_checkVisible (type : Bytecode.TypeIndex) (method : MethodInfo) :
    Echoes settled (checkVisible setting type method span)
      (checkVisible (setting.bare wider) type method.bare .nowhere) := by
  have fullName : fullNameOf (setting.bare wider).types type = fullNameOf setting.types type :=
    fullNameOf_bare setting.types type
  unfold checkVisible
  rw [fullName]
  exact .ite (echoes_report _ _ _) (.pure _ ())

theorem echoes_callName (name : Identifier) (count : Nat)
    (each : arguments.Echoes settled arguments') :
    Echoes settled (callName setting name arguments count span start)
      (callName (setting.bare wider) name.bare arguments' count .nowhere start) := by
  have method : methodOf? (setting.bare wider).types (setting.bare wider).owner name.bare.name
      = (methodOf? setting.types setting.owner name.name).map MethodInfo.bare :=
    methodOf_bare setting.types setting.owner name.name
  unfold callName
  rw [method]
  refine (echoes_lookup name.name).bind fun found ↦ ?_
  cases found with
  | some found => exact echoes_callValue _ _ _ each
  | none =>
      cases methodOf? setting.types setting.owner name.name with
      | some method =>
          exact (echoes_implicitReceiver method).bind fun _ ↦ echoes_callMethod _ _ _ each
      | none => exact echoes_badCall _ _ _ each

theorem echoes_callStatic (type : Bytecode.TypeIndex) (path : String) (function : Identifier)
    (count : Nat) (each : arguments.Echoes settled arguments') :
    Echoes settled (callStatic setting type path function arguments count span start)
      (callStatic (setting.bare wider) type path function.bare arguments' count .nowhere start) := by
  have method : methodOf? (setting.bare wider).types type function.bare.name
      = (methodOf? setting.types type function.name).map MethodInfo.bare :=
    methodOf_bare setting.types type function.name
  unfold callStatic
  rw [method]
  cases methodOf? setting.types type function.name with
  | some method =>
      exact .ite ((echoes_checkVisible type method).bind fun _ ↦ echoes_callMethod _ _ _ each)
        (echoes_badCall _ _ _ each)
  | none => exact echoes_badCall _ _ _ each

theorem echoes_callHostFunction (binding : ModuleBinding) (path : String) (function : Identifier)
    (count : Nat) (each : arguments.Echoes settled arguments') :
    Echoes settled (callHostFunction binding path function arguments count span start)
      (callHostFunction binding path function.bare arguments' count .nowhere start) := by
  have name : function.bare.name = function.name := rfl
  unfold callHostFunction
  rw [name]
  split
  · exact (echoes_checkedArguments _ _ _ _ each).bind fun _ ↦
      (echoes_onDraft (Draft.echoes_importIndex _)).map fun _ ↦ rfl
  · exact echoes_badCall _ _ _ each

/-- A bad call settles the matter if it ends calmly. -/
theorem settled_of_badCall {before : List Op} {code : Code} {message : String} {body : Body}
    (calm : (badCall arguments before start code message span body).2.draft.Calm settled) :
    settled :=
  Draft.settled_of_report calm

/-- A call by a path is that of the same function where there are more modules: the types come first,
and a module that is missing is an error. -/
theorem echoes_callPath (within : setting.references.Within settled wider)
    (qualifier function : Identifier) (count : Nat) (each : arguments.Echoes settled arguments') :
    Echoes settled (callPath setting qualifier function arguments count span start)
      (callPath (setting.bare wider) qualifier.bare function.bare arguments' count .nowhere
        start) := by
  have names : (setting.bare wider).types.map TypeInfo.name = setting.types.map TypeInfo.name :=
    names_bare setting.types
  have meant : TypeName.find? (setting.types.map TypeInfo.name) qualifier.bare.name
      (setting.bare wider).ownerName.namespaceName
    = TypeName.find? (setting.types.map TypeInfo.name) qualifier.name
        setting.ownerName.namespaceName := rfl
  have references : (setting.bare wider).references.lookup? qualifier.bare.name
      = wider.lookup? qualifier.name := rfl
  simp only [callPath, names, meant, references]
  split
  · exact echoes_callStatic _ _ _ _ each
  · cases known : setting.references.lookup? qualifier.name with
    | some binding =>
        rw [within.lookup known]
        exact echoes_callHostFunction _ _ _ _ each
    | none =>
        intro body calm
        rw [within.only (settled_of_badCall calm), known]
        exact echoes_badCall _ _ _ each body calm

theorem echoes_callNamed (within : setting.references.Within settled wider)
    (segments : List Identifier) {calleeSpan : Span} (count : Nat)
    (each : arguments.Echoes settled arguments') :
    Echoes settled (callNamed setting segments calleeSpan arguments count span start)
      (callNamed (setting.bare wider) (segments.map Identifier.bare) .nowhere arguments' count
        .nowhere start) := by
  match segments with
  | [name] => exact echoes_callName name count each
  | [qualifier, function] => exact echoes_callPath within qualifier function count each
  | [] => exact echoes_badCall _ _ _ each
  | first :: second :: third :: rest =>
      unfold callNamed
      rw [pathText_bare]
      exact echoes_badCall _ _ _ each

theorem echoes_callOnTarget (target : Typed) (method : Identifier) (count : Nat)
    (each : arguments.Echoes settled arguments') :
    Echoes settled (callOnTarget setting target method arguments count span start)
      (callOnTarget (setting.bare wider) target method.bare arguments' count .nowhere start) := by
  unfold callOnTarget
  split
  · next fullName type =>
      have named : typeNamed? (setting.bare wider).types fullName
          = typeNamed? setting.types fullName := typeNamed_bare setting.types fullName
      have declared (index : Bytecode.TypeIndex) :
          methodOf? (setting.bare wider).types index method.bare.name
            = (methodOf? setting.types index method.name).map MethodInfo.bare :=
        methodOf_bare setting.types index method.name
      simp only [named, declared]
      cases typeNamed? setting.types fullName with
      | none => exact echoes_badCall _ _ _ each
      | some index =>
          simp only [Option.bind_eq_bind, Option.bind_some]
          cases methodOf? setting.types index method.name with
          | none => exact echoes_badCall _ _ _ each
          | some info =>
              exact .ite (echoes_badCall _ _ _ each)
                ((echoes_checkVisible index info).bind fun _ ↦ echoes_callMethod _ _ _ each)
  · exact (echoes_uncheckedArguments _ each).map fun _ ↦ rfl
  · exact echoes_badCall _ _ _ each

/-! ### Lambdas -/

theorem echoes_captureOf (parameters : List Identifier) (name : String) :
    Echoes settled (captureOf setting parameters name)
      (captureOf (setting.bare wider) (parameters.map Identifier.bare) name) := by
  have hidden : (parameters.map Identifier.bare).any (fun parameter ↦ parameter.name = name)
      = parameters.any fun parameter ↦ parameter.name = name := List.any_map
  simp only [captureOf, hidden]
  refine .ite (.pure _ _) (.ite (.pure _ _) ((echoes_lookup name).bind fun found ↦ ?_))
  cases found <;> exact .pure _ _

theorem echoes_capturesOf (parameters : List Identifier) : (mentioned : List String) →
    Echoes settled (capturesOf setting parameters mentioned)
      (capturesOf (setting.bare wider) (parameters.map Identifier.bare) mentioned)
  | [] => .pure _ _
  | name :: rest => by
      simp only [capturesOf_cons]
      exact (echoes_captureOf parameters name).bind fun _ ↦
        (echoes_capturesOf parameters rest).bind fun _ ↦ .pure _ _

theorem echoes_declareCaptures : (captures : List Capture) →
    Echoes settled (declareCaptures captures) (declareCaptures captures)
  | [] => .pure _ ()
  | capture :: rest => by
      rw [declareCaptures]
      exact (echoes_declareLocal _ _ _).bind fun _ ↦ echoes_declareCaptures rest

theorem echoes_declareParameter (name : Identifier) (type : Ty) :
    Echoes settled (declareParameter name type) (declareParameter name.bare type) := by
  have local' : Echoes settled (declareLocal name.name type none >>= fun _ ↦ Pure.pure ())
      (declareLocal name.name type none >>= fun _ ↦ Pure.pure ()) :=
    (echoes_declareLocal _ _ _).map fun _ ↦ rfl
  have body : EchoesAs settled Body.bare get get := fun _ calm ↦ ⟨calm, rfl⟩
  have branch {taken taken' : Bool} (same : taken' = taken) : Echoes settled
      (if taken = true then do
          report .duplicateDefinition ("parameter `" ++ name.name ++ "` is declared more than once")
            name.span
          let _ ← declareLocal name.name type none
        else do
          let _ ← declareLocal name.name type none)
      (if taken' = true then do
          report .duplicateDefinition ("parameter `" ++ name.name ++ "` is declared more than once")
            .nowhere
          let _ ← declareLocal name.name type none
        else do
          let _ ← declareLocal name.name type none) := by
    subst same
    exact .ite ((echoes_report _ _ _).bind fun _ ↦ local') local'
  refine body.bind fun body ↦ branch ?_
  obtain ⟨draft, scopes, nextSlot⟩ := body
  cases scopes with
  | nil => rfl
  | cons scope outer => exact List.any_map

theorem echoes_declareParameters : (parameters : List (Identifier × Ty)) →
    Echoes settled (declareParameters parameters)
      (declareParameters (parameters.map fun (name, type) ↦ (name.bare, type)))
  | [] => .pure _ ()
  | (name, type) :: rest => by
      rw [List.map_cons, declareParameters, declareParameters]
      exact (echoes_declareParameter name type).bind fun _ ↦ echoes_declareParameters rest

theorem zip_bare (names : List Identifier) (types : List Ty) :
    (names.map Identifier.bare).zip types
      = (names.zip types).map fun (name, type) ↦ (name.bare, type) :=
  List.zip_map_left

variable {inside inside' : Setting → Lowering Typed}

theorem echoes_closureValue (parameters : List Identifier) (captures : List Capture)
    (expected : Option Ty)
    (body : ∀ inner, inner.references = setting.references →
      Echoes settled (inside inner) (inside' (inner.bare wider))) :
    Echoes settled (closureValue setting parameters captures inside expected)
      (closureValue (setting.bare wider) (parameters.map Identifier.bare) captures inside'
        expected) := by
  simp only [closureValue, List.length_map, zip_bare]
  rcases lambdaSignature parameters.length expected with ⟨types, result⟩
  refine (echoes_onDraft Draft.echoes_nextLambda).bind fun number ↦
    Echoing.map (echoes_onDraft (echoes_addRoutine _ _ ?_)) fun _ ↦ rfl
  exact (echoes_declareCaptures captures).bind fun _ ↦
    (echoes_declareParameters _).bind fun _ ↦ body _ rfl

theorem echoes_lambdaValue (parameters : List Identifier) (mentioned : List String)
    (expected : Option Ty)
    (body : ∀ inner, inner.references = setting.references →
      Echoes settled (inside inner) (inside' (inner.bare wider))) :
    Echoes settled (lambdaValue setting parameters mentioned inside expected)
      (lambdaValue (setting.bare wider) (parameters.map Identifier.bare) mentioned inside'
        expected) :=
  (echoes_capturesOf parameters mentioned).bind fun captures ↦
    echoes_closureValue parameters captures expected body

end Expressions

/-! ## Statements -/

section Statements

open Lowering

variable {settled : Prop} {wider : ReferenceSet} {setting : Setting} {start : Nat} {span : Span}

theorem echoes_declareValue (name : Identifier) (declared : Option Ty) (value : Typed) :
    Echoes settled (declareValue name declared value span)
      (declareValue name.bare declared value .nowhere) :=
  (echoes_checkedType _ _).bind fun _ ↦ (echoes_declareLocal _ _ _).map fun _ ↦ rfl

variable {value value' : Pending}

theorem echoes_assignVariable (name : Identifier) (each : value.Echoes settled value') :
    Echoes settled (assignVariable name value span start)
      (assignVariable name.bare value' .nowhere start) := by
  unfold assignVariable
  refine (echoes_lookupTarget name.name).bind fun found ↦ ?_
  cases found with
  | some found => exact (each _ _).bind fun _ ↦ (echoes_check _ _ _).map fun _ ↦ rfl
  | none => exact (echoes_report _ _ _).bind fun _ ↦ (each _ _).map fun _ ↦ rfl

theorem echoes_assignField (name : Identifier) {valueSpan : Span}
    (each : value.Echoes settled value') :
    Echoes settled (assignField setting name value valueSpan span start)
      (assignField (setting.bare wider) name.bare value' .nowhere .nowhere start) := by
  have receiver : (setting.bare wider).receiver = setting.receiver := rfl
  have field : fieldOf? (setting.bare wider).types (setting.bare wider).ownerName.full
      name.bare.name = fieldOf? setting.types setting.ownerName.full name.name :=
    fieldOf_bare setting.types setting.ownerName.full name.name
  unfold assignField
  rw [receiver, field]
  split
  · exact (echoes_report _ _ _).bind fun _ ↦ (each _ _).map fun _ ↦ rfl
  · split
    · exact (echoes_report _ _ _).bind fun _ ↦ (each _ _).map fun _ ↦ rfl
    · exact (each _ _).bind fun _ ↦ (echoes_check _ _ _).map fun _ ↦ rfl

theorem echoes_condition (each : value.Echoes settled value') :
    Echoes settled (condition value span start) (condition value' .nowhere start) :=
  (each _ _).bind fun _ ↦ (echoes_check _ _ _).map fun _ ↦ rfl

theorem echoes_discard (each : value.Echoes settled value') :
    Echoes settled (discard value span start) (discard value' .nowhere start) := by
  refine (each _ _).bind fun typed ↦ Echoing.give ?_
  unfold warnDiscarded
  split
  · exact echoes_onDraft (Draft.echoes_note _)
  · exact .pure _ ()

theorem echoes_returnNothing : Echoes settled (returnNothing setting span)
    (returnNothing (setting.bare wider) .nowhere) := by
  have result : (setting.bare wider).result = setting.result := rfl
  simp only [returnNothing, result]
  exact .ite ((echoes_report _ _ _).map fun _ ↦ rfl) (.pure _ _)

theorem echoes_returnValue (each : value.Echoes settled value') :
    Echoes settled (returnValue setting value span start)
      (returnValue (setting.bare wider) value' .nowhere start) :=
  (each _ _).bind fun _ ↦ (echoes_check _ _ _).map fun _ ↦ rfl

theorem echoes_elementType (iterated : Ty) :
    Echoes settled (elementType iterated span) (elementType iterated .nowhere) := by
  unfold elementType
  split
  · exact .pure _ _
  · exact echoes_mistake _ _ _

variable {test test' body body' other other' : Nat → Lowering (List Op)}

theorem echoes_loopOver (binding : Identifier) (element : Ty) (iterated : List Op)
    (inner : ∀ start, Echoes settled (body start) (body' start)) :
    Echoes settled (loopOver binding element iterated body start)
      (loopOver binding.bare element iterated body' start) :=
  echoes_allocate.bind fun _ ↦ echoes_openScope.bind fun _ ↦ (echoes_declareLocal _ _ _).bind
    fun _ ↦ (inner _).bind fun _ ↦ echoes_closeScope.map fun _ ↦ rfl

theorem echoes_forEachLoop (binding : Identifier) {iterableSpan : Span}
    (each : value.Echoes settled value')
    (inner : ∀ start, Echoes settled (body start) (body' start)) :
    Echoes settled (forEachLoop binding value iterableSpan body start)
      (forEachLoop binding.bare value' .nowhere body' start) :=
  (each _ _).bind fun _ ↦ (echoes_elementType _).bind fun _ ↦ echoes_loopOver _ _ _ inner

theorem echoes_whileTrue (first : ∀ start, Echoes settled (test start) (test' start))
    (second : ∀ start, Echoes settled (body start) (body' start)) :
    Echoes settled (whileTrue test body start) (whileTrue test' body' start) :=
  (first _).bind fun _ ↦ (second _).map fun _ ↦ rfl

theorem echoes_ifTrue (first : ∀ start, Echoes settled (test start) (test' start))
    (second : ∀ start, Echoes settled (body start) (body' start)) :
    Echoes settled (ifTrue test body start) (ifTrue test' body' start) :=
  (first _).bind fun _ ↦ (second _).map fun _ ↦ rfl

theorem echoes_ifElse (first : ∀ start, Echoes settled (test start) (test' start))
    (second : ∀ start, Echoes settled (body start) (body' start))
    (third : ∀ start, Echoes settled (other start) (other' start)) :
    Echoes settled (ifElse test body other start) (ifElse test' body' other' start) :=
  (first _).bind fun _ ↦ (second _).bind fun _ ↦ (third _).map fun _ ↦ rfl

end Statements

/-! ## The walk -/

section Walk

open Lowering

variable {settled : Prop} {wider : ReferenceSet}

theorem span_bare (value : Expression) : value.bare.span = .nowhere := by
  cases value <;> rfl

theorem bare_ne_path {callee : Expression}
    (apart : ∀ segments span, callee ≠ .path segments span) :
    ∀ segments span, callee.bare ≠ .path segments span := by
  cases callee with
  | path segments span => exact absurd rfl (apart segments span)
  | _ => exact nofun

/-- A call of something that is no path compiles what is called first. -/
theorem expression_call {setting : Setting} {callee : Expression}
    (apart : ∀ segments span, callee ≠ .path segments span) {values : List Expression} {span : Span}
    {expected : Option Ty} {start : Nat} :
    expression setting (.call callee values span) expected start = (do
      let typed ← expression setting callee none start
      callValue typed (arguments setting values) values.length "expression" span start) := by
  rw [expression]
  exact apart

/-- A conditional with an alternative. -/
theorem statement_conditional {setting : Setting} (other : Alternative) (present : other ≠ .absent)
    {test : Expression} {body : Block} {span : Span} {start : Nat} :
    statement setting (.conditional test body other span) start
      = ifElse (condition (expression setting test) test.span) (block setting body)
          (alternative setting other) start := by
  rw [statement]
  exact present

mutual

/-- An expression is compiled the same without positions and with more modules. -/
theorem echoes_expression (setting : Setting) (within : setting.references.Within settled wider) :
    (value : Expression) → Pending.Echoes settled (expression setting value)
      (expression (setting.bare wider) value.bare)
  | .int .., _, _ | .str .., _, _ | .bool .., _, _ => .pure _ _
  | .array values _, expected, start => by
      rw [Expression.bare, expression, expression, bareExpressions_eq_map, List.length_map,
        ← bareExpressions_eq_map]
      exact (echoes_items setting within values _ _ _).map fun _ ↦ rfl
  | .receiver _, _, _ => echoes_receiverValue
  | .path segments _, _, _ => echoes_pathValue segments
  | .call callee values span, expected, start => by
      have each := echoes_arguments setting within values
      have length : (bareExpressions values).length = values.length := by
        rw [bareExpressions_eq_map, List.length_map]
      by_cases path : ∃ segments calleeSpan, callee = .path segments calleeSpan
      · obtain ⟨segments, calleeSpan, rfl⟩ := path
        rw [Expression.bare, Expression.bare, expression, expression, length]
        exact echoes_callNamed within segments _ each
      · have apart (segments : List Identifier) (calleeSpan : Span) :
            callee ≠ .path segments calleeSpan := fun same ↦ path ⟨segments, calleeSpan, same⟩
        rw [Expression.bare, expression_call apart, expression_call (bare_ne_path apart), length]
        exact (echoes_expression setting within callee _ _).bind fun _ ↦
          echoes_callValue _ _ _ each
  | .method target name values span, expected, start => by
      have length : (bareExpressions values).length = values.length := by
        rw [bareExpressions_eq_map, List.length_map]
      rw [Expression.bare, expression, expression, length]
      exact (echoes_expression setting within target _ _).bind fun _ ↦
        echoes_callOnTarget _ _ _ (echoes_arguments setting within values)
  | .field target name _, expected, start => by
      rw [Expression.bare, expression, expression]
      exact (echoes_expression setting within target _ _).bind fun _ ↦ echoes_fieldValue _ _
  | .element target index _, expected, start => by
      rw [Expression.bare, expression, expression, span_bare, span_bare]
      exact (echoes_expression setting within target _ _).bind fun _ ↦
        (echoes_expression setting within index _ _).bind fun _ ↦
          (echoes_check _ _ _).bind fun _ ↦ (echoes_itemType _).map fun _ ↦ rfl
  | .construct name _, _, _ => echoes_newObject name
  | .lambda parameters body _, expected, start => by
      rw [Expression.bare, expression, expression, Mentions.inLambda_bare]
      exact echoes_lambdaValue parameters _ expected fun inner same ↦
        echoes_lambdaBody inner (same ▸ within) body
  | .unary operator operand _, expected, start => by
      rw [Expression.bare, expression, expression]
      exact (echoes_expression setting within operand _ _).bind fun _ ↦ echoes_unaryValue _ _
  | .binary operator left right _, expected, start => by
      rw [Expression.bare, expression, expression]
      exact echoes_binaryValue operator (echoes_expression setting within left)
        (echoes_expression setting within right)

theorem echoes_items (setting : Setting) (within : setting.references.Within settled wider) :
    (values : List Expression) → (element : Option Ty) → (before : List Op) → (start : Nat) →
    Echoes settled (items setting values element before start)
      (items (setting.bare wider) (bareExpressions values) element before start)
  | [], _, _, _ => .pure _ _
  | item :: rest, element, before, start => by
      rw [bareExpressions, items, items, span_bare]
      exact (echoes_expression setting within item _ _).bind fun _ ↦
        (echoes_checkedType _ _).bind fun _ ↦ echoes_items setting within rest _ _ _

theorem echoes_arguments (setting : Setting) (within : setting.references.Within settled wider) :
    (values : List Expression) → PendingArguments.Echoes settled (arguments setting values)
      (arguments (setting.bare wider) (bareExpressions values))
  | [], _, _, _, _, _, _ => .pure _ _
  | argument :: rest, [], callee, number, bound, before, start => by
      rw [bareExpressions, arguments, arguments]
      exact (echoes_expression setting within argument _ _).bind fun _ ↦
        echoes_arguments setting within rest _ _ _ _ _ _
  | argument :: rest, wanted :: others, callee, number, bound, before, start => by
      rw [bareExpressions, arguments, arguments, span_bare]
      exact (echoes_expression setting within argument _ _).bind fun _ ↦
        (echoes_checkArgument _ _ _ _ _).bind fun _ ↦
          echoes_arguments setting within rest _ _ _ _ _ _

/-- The body of a lambda is compiled the same without positions and with more modules. -/
theorem echoes_lambdaBody (setting : Setting) (within : setting.references.Within settled wider) :
    (body : LambdaBody) → Echoes settled (lambdaBody setting body)
      (lambdaBody (setting.bare wider) body.bare)
  | .expression value => by
      rw [LambdaBody.bare, lambdaBody, lambdaBody, span_bare]
      exact (echoes_expression setting within value _ _).bind fun _ ↦
        (echoes_check _ _ _).map fun _ ↦ rfl
  | .block body => by
      rw [LambdaBody.bare, lambdaBody, lambdaBody]
      exact (echoes_block setting within body 0).map fun _ ↦ rfl

/-- A block is compiled the same without positions and with more modules. -/
theorem echoes_block (setting : Setting) (within : setting.references.Within settled wider) :
    (body : Block) → (start : Nat) → Echoes settled (block setting body start)
      (block (setting.bare wider) body.bare start)
  | .mk body _, start => by
      rw [Block.bare, block, block]
      exact echoes_openScope.bind fun _ ↦ (echoes_statements setting within body _ _).bind fun _ ↦
        echoes_closeScope.map fun _ ↦ rfl

theorem echoes_statements (setting : Setting) (within : setting.references.Within settled wider) :
    (body : List Statement) → (before : List Op) → (start : Nat) →
    Echoes settled (statements setting body before start)
      (statements (setting.bare wider) (bareStatements body) before start)
  | [], _, _ => .pure _ _
  | first :: rest, before, start => by
      rw [bareStatements, statements, statements]
      exact (echoes_statement setting within first start).bind fun _ ↦
        echoes_statements setting within rest _ _

/-- A statement is compiled the same without positions and with more modules. -/
theorem echoes_statement (setting : Setting) (within : setting.references.Within settled wider) :
    (body : Statement) → (start : Nat) → Echoes settled (statement setting body start)
      (statement (setting.bare wider) body.bare start)
  | .declare name none value _, start => by
      rw [Statement.bare, Option.map_none, statement, statement, span_bare]
      exact Echoing.bind (.pure (fun declared ↦ declared) none) fun _ ↦
        (echoes_expression setting within value _ _).bind fun _ ↦ echoes_declareValue _ _ _
  | .declare name (some type) value _, start => by
      rw [Statement.bare, Option.map_some, statement, statement, span_bare]
      exact (echoes_resolve within type).bind fun declared ↦
        Echoing.bind (.pure (fun declared ↦ declared) (some declared)) fun _ ↦
          (echoes_expression setting within value _ _).bind fun _ ↦ echoes_declareValue _ _ _
  | .assign (.binding name) value _, start => by
      rw [Statement.bare, Place.bare, statement, statement, span_bare]
      exact echoes_assignVariable name (echoes_expression setting within value)
  | .assign (.field name) value _, start => by
      rw [Statement.bare, Place.bare, statement, statement, span_bare]
      exact echoes_assignField name (echoes_expression setting within value)
  | .forEach binding iterable body _, start => by
      rw [Statement.bare, statement, statement, span_bare]
      exact echoes_forEachLoop binding (echoes_expression setting within iterable)
        (echoes_block setting within body)
  | .whileLoop test body _, start => by
      rw [Statement.bare, statement, statement, span_bare]
      exact echoes_whileTrue (fun _ ↦ echoes_condition (echoes_expression setting within test))
        (echoes_block setting within body)
  | .conditional test body .absent _, start => by
      rw [Statement.bare, Alternative.bare, statement, statement, span_bare]
      exact echoes_ifTrue (fun _ ↦ echoes_condition (echoes_expression setting within test))
        (echoes_block setting within body)
  | .conditional test body (.block other) _, start => by
      rw [Statement.bare, Alternative.bare, statement_conditional (.block other) nofun,
        statement_conditional (.block other.bare) nofun, span_bare]
      exact echoes_ifElse (fun _ ↦ echoes_condition (echoes_expression setting within test))
        (echoes_block setting within body) (echoes_alternative setting within (.block other))
  | .conditional test body (.chain other) _, start => by
      rw [Statement.bare, Alternative.bare, statement_conditional (.chain other) nofun,
        statement_conditional (.chain other.bare) nofun, span_bare]
      exact echoes_ifElse (fun _ ↦ echoes_condition (echoes_expression setting within test))
        (echoes_block setting within body) (echoes_alternative setting within (.chain other))
  | .returns none _, _ => echoes_returnNothing
  | .returns (some value) _, start => by
      rw [Statement.bare, statement, statement, span_bare]
      exact echoes_returnValue (echoes_expression setting within value)
  | .evaluate value, start => by
      rw [Statement.bare, statement, statement, span_bare]
      exact echoes_discard (echoes_expression setting within value)

/-- An alternative is compiled the same without positions and with more modules. -/
theorem echoes_alternative (setting : Setting) (within : setting.references.Within settled wider) :
    (other : Alternative) → (start : Nat) → Echoes settled (alternative setting other start)
      (alternative (setting.bare wider) other.bare start)
  | .absent, _ => .pure _ _
  | .block body, start => echoes_block setting within body start
  | .chain conditional, start => echoes_statement setting within conditional start

end

end Walk

end Compile

end GuestScript
