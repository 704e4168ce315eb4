import GuestScript.Proofs.Compile.Twins
import GuestScript.Proofs.Compile.Echoes

/-!
# Bodies in step

Every part of a body stays in step with itself in a unit whose types are in another order. The
lemmas follow the compiler, one for each of its functions, and the walk over the syntax puts them
together. A name is looked up in the same way in both units; where a position comes out of it, the
renumbering leads from the one to the other.
-/

namespace GuestScript.Compile

open Bytecode (Import Op Renumbering Routine)
open Meaning (HostCall)
open Syntax

/-- What is pending stays in step. -/
def Pending.Twins (frame : Frame) (value twin : Pending) : Prop :=
  ∀ expected start, Twinned frame.bodies (renumberTyped frame.renumbering) (value expected start)
    (twin expected start)

/-- Pending arguments stay in step, behind code that is the same up to the renumbering. -/
def PendingArguments.Twins (frame : Frame) (arguments twin : PendingArguments) : Prop :=
  ∀ parameters callee number bound before start,
    Twinned frame.bodies (Prod.map frame.renumbering.code id)
      (arguments parameters callee number bound before start)
      (twin parameters callee number bound (frame.renumbering.code before) start)

/-! ## Expressions -/

section Expressions

open Lowering

variable {frame : Frame} {setting setting' : Setting} {start : Nat} {span : Span}

theorem twins_noValue (code : Code) (message : String) :
    Twinned frame.bodies (renumberTyped frame.renumbering) (noValue code message span)
      (noValue code message span) :=
  (twins_mistake code message span).map fun _ ↦ rfl

theorem twins_pathValue (segments : List Identifier) :
    Twinned frame.bodies (renumberTyped frame.renumbering) (pathValue segments span)
      (pathValue segments span) := by
  match segments with
  | [name] =>
      refine (twins_lookup name.name).bind fun found ↦ ?_
      cases found with
      | some found => exact .give rfl
      | none => exact twins_noValue _ _
  | [] => exact twins_noValue _ _
  | first :: second :: rest => exact twins_noValue _ _

theorem twins_checkedType (wanted : Option Ty) (found : Ty) :
    Mirrored frame.bodies (checkedType wanted found span) (checkedType wanted found span) := by
  cases wanted with
  | some wanted => exact (twins_check _ _ _).map fun _ ↦ rfl
  | none => exact .pure _

theorem twins_itemType (target : Ty) :
    Mirrored frame.bodies (itemType target span) (itemType target span) := by
  unfold itemType
  split
  iterate 3 exact .pure _
  exact twins_mistake _ _ _

theorem twins_receiverValue
    (reordered : SettingsReordered frame.references frame.renumbering setting setting') :
    Twinned frame.bodies (renumberTyped frame.renumbering) (receiverValue setting span)
      (receiverValue setting' span) := by
  unfold receiverValue
  rw [reordered.receiver, Setting.ownerType, Setting.ownerType, reordered.ownerName]
  cases setting.receiver with
  | some slot => exact .give rfl
  | none => exact twins_noValue _ _

theorem twins_fieldValue
    (reordered : SettingsReordered frame.references frame.renumbering setting setting')
    (target : Typed) (name : Identifier) :
    Twinned frame.bodies (renumberTyped frame.renumbering) (fieldValue setting target name)
      (fieldValue setting' (renumberTyped frame.renumbering target) name) := by
  unfold fieldValue
  simp only [renumberTyped_type, renumberTyped_code, reordered.types.fieldOf?]
  split
  · split
    · exact .give (by simp [renumberTyped, Renumbering.op])
    · exact (twins_mistake _ _ _).map fun _ ↦ rfl
  · exact .give rfl
  · exact (twins_mistake _ _ _).map fun _ ↦ rfl

theorem twins_newObject
    (reordered : SettingsReordered frame.references frame.renumbering setting setting')
    (name : Identifier) :
    Twinned frame.bodies (renumberTyped frame.renumbering) (newObject setting name)
      (newObject setting' name) := by
  simp only [newObject, reordered.ownerName, reordered.types.find?]
  cases TypeName.find? (setting.types.map TypeInfo.name) name.name
      setting.ownerName.namespaceName with
  | some type =>
      refine .give ?_
      rw [reordered.types.fullNameOf]
      rfl
  | none => exact twins_noValue _ _

theorem twins_unaryValue (operator : UnaryOperator) (operand : Typed) :
    Twinned frame.bodies (renumberTyped frame.renumbering) (unaryValue operator operand span)
      (unaryValue operator (renumberTyped frame.renumbering operand) span) := by
  unfold unaryValue
  refine .ite .rfl (.give ?_) ((twins_mistake _ _ _).map fun type ↦ ?_)
  · simp [renumberTyped, Renumbering.op]
  · simp [renumberTyped, Renumbering.op]

theorem twins_shortCircuit (operator : BinaryOperator) {code code' : List Op} (left right : Ty)
    (same : code' = frame.renumbering.code code) :
    Twinned frame.bodies (renumberTyped frame.renumbering)
      (shortCircuit operator code left right span)
      (shortCircuit operator code' left right span) := by
  subst same
  unfold shortCircuit
  exact .ite .rfl (.give rfl) ((twins_mistake _ _ _).map fun _ ↦ rfl)

theorem twins_strictOperator (operator : BinaryOperator) {code code' : List Op} (left right : Ty)
    (same : code' = frame.renumbering.code code) :
    Twinned frame.bodies (renumberTyped frame.renumbering)
      (strictOperator operator code left right span)
      (strictOperator operator code' left right span) := by
  subst same
  unfold strictOperator
  split
  · exact .give rfl
  · exact (twins_mistake _ _ _).map fun _ ↦ rfl

variable {left right left' right' : Pending} {arguments arguments' : PendingArguments}

theorem twins_binaryValue (operator : BinaryOperator) (first : left.Twins frame left')
    (second : right.Twins frame right') :
    Twinned frame.bodies (renumberTyped frame.renumbering)
      (binaryValue operator left right span start)
      (binaryValue operator left' right' span start) := by
  -- The code of the operands is as long in the twin, so that jumps go to the same places.
  unfold binaryValue
  split
  · refine (first _ _).bind fun typed ↦ ?_
    simp only [renumberTyped_code, renumberTyped_type, Renumbering.length_code]
    exact (second _ _).bind fun other ↦
      twins_shortCircuit _ _ _ (by simp [Renumbering.op])
  · refine (first _ _).bind fun typed ↦ ?_
    simp only [renumberTyped_code, renumberTyped_type, Renumbering.length_code]
    exact (second _ _).bind fun other ↦
      twins_shortCircuit _ _ _ (by simp [Renumbering.op])
  · refine (first _ _).bind fun typed ↦ ?_
    simp only [renumberTyped_code, renumberTyped_type, Renumbering.length_code]
    exact (second _ _).bind fun other ↦
      twins_strictOperator _ _ _ (by simp [Renumbering.op])

/-! ### Calls -/

theorem twins_checkArgument (accepted : Bool) (number : Nat) (callee : String)
    (wanted found : Ty) :
    Mirrored frame.bodies (checkArgument accepted number callee wanted found span)
      (checkArgument accepted number callee wanted found span) :=
  .ite .rfl (twins_report _ _ _) (.pure ())

theorem twins_checkedArguments (count : Nat) (parameters : List Ty) (callee : String)
    {before before' : List Op} (same : before' = frame.renumbering.code before)
    (each : arguments.Twins frame arguments') :
    Twinned frame.bodies (Prod.map frame.renumbering.code id)
      (checkedArguments arguments count parameters callee span before start)
      (checkedArguments arguments' count parameters callee span before' start) := by
  subst same
  simp only [checkedArguments, Renumbering.length_code, ← Renumbering.code_reverse]
  exact .ite .rfl ((twins_report _ _ _).bind fun _ ↦ each _ _ _ _ _ _) (each _ _ _ _ _ _)

theorem twins_uncheckedArguments {before before' : List Op}
    (same : before' = frame.renumbering.code before) (each : arguments.Twins frame arguments') :
    Twinned frame.bodies frame.renumbering.code (uncheckedArguments arguments before start)
      (uncheckedArguments arguments' before' start) := by
  subst same
  simp only [uncheckedArguments, Renumbering.length_code, ← Renumbering.code_reverse]
  exact (each _ _ _ _ _ _).map fun _ ↦ rfl

theorem twins_badCall {before before' : List Op} (code : Code) (message : String)
    (same : before' = frame.renumbering.code before) (each : arguments.Twins frame arguments') :
    Twinned frame.bodies (renumberTyped frame.renumbering)
      (badCall arguments before start code message span)
      (badCall arguments' before' start code message span) :=
  (twins_uncheckedArguments same each).bind fun _ ↦ (twins_mistake _ _ _).map fun _ ↦ rfl

theorem twins_callValue (callee : Typed) (count : Nat) (what : String)
    (each : arguments.Twins frame arguments') :
    Twinned frame.bodies (renumberTyped frame.renumbering)
      (callValue callee arguments count what span start)
      (callValue (renumberTyped frame.renumbering callee) arguments' count what span start) := by
  unfold callValue
  simp only [renumberTyped_type, renumberTyped_code]
  split
  · exact (twins_checkedArguments _ _ _ rfl each).map fun _ ↦ by
      simp [renumberTyped, Renumbering.op]
  · exact (twins_uncheckedArguments rfl each).map fun _ ↦ by
      simp [renumberTyped, Renumbering.op]
  · exact (twins_uncheckedArguments rfl each).map fun _ ↦ rfl
  · exact twins_badCall _ _ rfl each

theorem twins_implicitReceiver
    (reordered : SettingsReordered frame.references frame.renumbering setting setting')
    (method : MethodInfo) :
    Twinned frame.bodies frame.renumbering.code (implicitReceiver setting method span)
      (implicitReceiver setting' (method.renumber frame.renumbering) span) := by
  unfold implicitReceiver
  rw [reordered.receiver]
  refine .ite .rfl (.give rfl) ?_
  cases setting.receiver with
  | some slot => exact .give rfl
  | none => exact (twins_report _ _ _).map fun _ ↦ rfl

theorem twins_callMethod (method : MethodInfo) {receiver receiver' : List Op} (count : Nat)
    (same : receiver' = frame.renumbering.code receiver)
    (each : arguments.Twins frame arguments') :
    Twinned frame.bodies (renumberTyped frame.renumbering)
      (callMethod method receiver arguments count span start)
      (callMethod (method.renumber frame.renumbering) receiver' arguments' count span start) :=
  (twins_checkedArguments _ _ _ same each).map fun _ ↦ by
    simp only [renumberTyped, Prod.map_fst, Renumbering.code_append]
    rfl

theorem twins_checkVisible
    (reordered : SettingsReordered frame.references frame.renumbering setting setting')
    (type : Bytecode.TypeIndex) (method : MethodInfo) :
    Mirrored frame.bodies (checkVisible setting type method span)
      (checkVisible setting' (frame.renumbering.types type)
        (method.renumber frame.renumbering) span) := by
  have apart : (frame.renumbering.types type ≠ setting'.owner) ↔ type ≠ setting.owner := by
    rw [reordered.owner, ne_eq, ne_eq, EmbeddingLike.apply_eq_iff_eq]
  unfold checkVisible
  rw [reordered.types.fullNameOf]
  refine .ite ?_ (twins_report _ _ _) (.pure ())
  simp only [apart, MethodInfo.isPublic, MethodInfo.renumber]

theorem twins_callName
    (reordered : SettingsReordered frame.references frame.renumbering setting setting')
    (name : Identifier) (count : Nat) (each : arguments.Twins frame arguments') :
    Twinned frame.bodies (renumberTyped frame.renumbering)
      (callName setting name arguments count span start)
      (callName setting' name arguments' count span start) := by
  unfold callName
  rw [reordered.owner, reordered.types.methodOf?]
  refine (twins_lookup name.name).bind fun found ↦ ?_
  cases found with
  | some found => exact twins_callValue ⟨[.load found.slot], found.type⟩ _ _ each
  | none =>
      cases methodOf? setting.types setting.owner name.name with
      | some method =>
          exact (twins_implicitReceiver reordered method).bind fun _ ↦
            twins_callMethod method count rfl each
      | none => exact twins_badCall _ _ rfl each

theorem twins_callStatic
    (reordered : SettingsReordered frame.references frame.renumbering setting setting')
    (type : Bytecode.TypeIndex) (path : String) (function : Identifier) (count : Nat)
    (each : arguments.Twins frame arguments') :
    Twinned frame.bodies (renumberTyped frame.renumbering)
      (callStatic setting type path function arguments count span start)
      (callStatic setting' (frame.renumbering.types type) path function arguments' count span
        start) := by
  unfold callStatic
  rw [reordered.types.methodOf?]
  cases methodOf? setting.types type function.name with
  | some method =>
      exact .ite .rfl ((twins_checkVisible reordered type method).bind fun _ ↦
        twins_callMethod method count rfl each) (twins_badCall _ _ rfl each)
  | none => exact twins_badCall _ _ rfl each

theorem twins_callHostFunction (sound : frame.Sound) {binding : ModuleBinding}
    (known : frame.references.lookup? binding.name = some binding) (path : String)
    (function : Identifier) (count : Nat) (each : arguments.Twins frame arguments') :
    Twinned frame.bodies (renumberTyped frame.renumbering)
      (callHostFunction binding path function arguments count span start)
      (callHostFunction binding path function arguments' count span start) := by
  unfold callHostFunction
  cases member : binding.host.function? function.name with
  | none => exact twins_badCall _ _ rfl each
  | some host =>
      have name : host.name = function.name := by
        simpa using List.find?_some member
      have imported : (⟨binding, host, count⟩ : HostCall).imported
          = ⟨binding.name, binding.version.major, binding.version.minor, function.name⟩ := by
        rw [HostCall.imported, name]
      let call : HostCall := ⟨binding, host, count⟩
      have numbered : Twinned frame.drafts frame.renumbering.imports
          (Draft.importIndex call.imported) (Draft.importIndex call.imported) :=
        Draft.twins_importIndex sound known (name ▸ member)
      refine (twins_checkedArguments _ _ _ rfl each).bind fun checked ↦ ?_
      rw [← imported]
      exact (twins_onDraft numbered).map fun _ ↦ by simp [renumberTyped, Renumbering.op]

theorem twins_callPath (sound : frame.Sound)
    (reordered : SettingsReordered frame.references frame.renumbering setting setting')
    (qualifier function : Identifier) (count : Nat) (each : arguments.Twins frame arguments') :
    Twinned frame.bodies (renumberTyped frame.renumbering)
      (callPath setting qualifier function arguments count span start)
      (callPath setting' qualifier function arguments' count span start) := by
  simp only [callPath, reordered.ownerName, reordered.types.find?, reordered.references,
    reordered.references']
  cases TypeName.find? (setting.types.map TypeInfo.name) qualifier.name
      setting.ownerName.namespaceName with
  | some type => exact twins_callStatic reordered type _ _ _ each
  | none =>
      cases known : frame.references.lookup? qualifier.name with
      | some binding =>
          have name : binding.name = qualifier.name := by
            simpa using List.find?_some known
          exact twins_callHostFunction sound (name ▸ known) _ _ _ each
      | none => exact twins_badCall _ _ rfl each

theorem twins_callNamed (sound : frame.Sound)
    (reordered : SettingsReordered frame.references frame.renumbering setting setting')
    (segments : List Identifier) {calleeSpan : Span} (count : Nat)
    (each : arguments.Twins frame arguments') :
    Twinned frame.bodies (renumberTyped frame.renumbering)
      (callNamed setting segments calleeSpan arguments count span start)
      (callNamed setting' segments calleeSpan arguments' count span start) := by
  match segments with
  | [name] => exact twins_callName reordered name count each
  | [qualifier, function] => exact twins_callPath sound reordered qualifier function count each
  | [] => exact twins_badCall _ _ rfl each
  | first :: second :: third :: rest => exact twins_badCall _ _ rfl each

theorem twins_callOnTarget
    (reordered : SettingsReordered frame.references frame.renumbering setting setting')
    (target : Typed) (method : Identifier) (count : Nat)
    (each : arguments.Twins frame arguments') :
    Twinned frame.bodies (renumberTyped frame.renumbering)
      (callOnTarget setting target method arguments count span start)
      (callOnTarget setting' (renumberTyped frame.renumbering target) method arguments' count span
        start) := by
  unfold callOnTarget
  simp only [renumberTyped_type, renumberTyped_code]
  split
  · next fullName type =>
      rw [reordered.types.typeNamed?]
      cases typeNamed? setting.types fullName with
      | none => exact twins_badCall _ _ rfl each
      | some index =>
          simp only [Option.map_some, Option.bind_eq_bind, Option.bind_some,
            reordered.types.methodOf?]
          cases methodOf? setting.types index method.name with
          | none => exact twins_badCall _ _ rfl each
          | some info =>
              exact .ite .rfl (twins_badCall _ _ rfl each)
                ((twins_checkVisible reordered index info).bind fun _ ↦
                  twins_callMethod info count rfl each)
  · exact (twins_uncheckedArguments rfl each).map fun _ ↦ rfl
  · exact twins_badCall _ _ rfl each

/-! ### Lambdas -/

theorem twins_captureOf
    (reordered : SettingsReordered frame.references frame.renumbering setting setting')
    (parameters : List Identifier) (name : String) :
    Mirrored frame.bodies (captureOf setting parameters name)
      (captureOf setting' parameters name) := by
  simp only [captureOf, reordered.receiver, Setting.ownerType, reordered.ownerName]
  exact .ite .rfl (.pure _) (.ite .rfl (.pure _) ((twins_lookup name).bind fun _ ↦ .pure _))

theorem twins_capturesOf
    (reordered : SettingsReordered frame.references frame.renumbering setting setting')
    (parameters : List Identifier) : (mentioned : List String) →
    Mirrored frame.bodies (capturesOf setting parameters mentioned)
      (capturesOf setting' parameters mentioned)
  | [] => .pure _
  | name :: rest => by
      simp only [capturesOf_cons]
      exact (twins_captureOf reordered parameters name).bind fun _ ↦
        (twins_capturesOf reordered parameters rest).bind fun _ ↦ .pure _

theorem twins_declareCaptures : (captures : List Capture) →
    Mirrored frame.bodies (declareCaptures captures) (declareCaptures captures)
  | [] => .pure ()
  | capture :: rest => by
      rw [declareCaptures]
      exact (twins_declareLocal _ _ _).bind fun _ ↦ twins_declareCaptures rest

/-- Whether the innermost scope has a variable of this name. -/
def isTaken (name : String) : List (List Local) → Bool
  | [] => false
  | scope :: _ => scope.any fun present ↦ present.name = name

theorem twins_declareParameter (name : Identifier) (type : Ty) :
    Mirrored frame.bodies (declareParameter name type) (declareParameter name type) := by
  have declared : Mirrored frame.bodies (declareLocal name.name type none >>= fun _ ↦ Pure.pure ())
      (declareLocal name.name type none >>= fun _ ↦ Pure.pure ()) :=
    (twins_declareLocal _ _ _).map fun _ ↦ rfl
  -- Whether the name is taken is read off the scopes, which are the same in both bodies.
  have asked : Mirrored frame.bodies (fun body ↦ (isTaken name.name body.scopes, body))
      (fun body ↦ (isTaken name.name body.scopes, body)) :=
    ⟨fun _ ↦ id, fun _ ↦ id, fun alike _ _ ↦ ⟨congrArg (isTaken name.name) alike.2.1, alike⟩⟩
  exact asked.bind fun taken ↦
    .ite (Iff.refl (taken = true)) ((twins_report _ _ _).bind fun _ ↦ declared) declared

theorem twins_declareParameters : (parameters : List (Identifier × Ty)) →
    Mirrored frame.bodies (declareParameters parameters) (declareParameters parameters)
  | [] => .pure ()
  | (name, type) :: rest => by
      rw [declareParameters]
      exact (twins_declareParameter name type).bind fun _ ↦ twins_declareParameters rest

variable {inside inside' : Setting → Lowering Typed}

theorem twins_closureValue (sound : frame.Sound)
    (reordered : SettingsReordered frame.references frame.renumbering setting setting')
    (parameters : List Identifier) (captures : List Capture) (expected : Option Ty)
    (body : ∀ {inner inner'}, SettingsReordered frame.references frame.renumbering inner inner' →
      Twinned frame.bodies (renumberTyped frame.renumbering) (inside inner) (inside' inner')) :
    Twinned frame.bodies (renumberTyped frame.renumbering)
      (closureValue setting parameters captures inside expected)
      (closureValue setting' parameters captures inside' expected) := by
  simp only [closureValue]
  rcases lambdaSignature parameters.length expected with ⟨types, result⟩
  refine (twins_onDraft (Draft.twins_nextLambda sound)).bind fun number ↦ ?_
  have inner := reordered.inside number captures result
  have routine : (closureRoutine (setting.inside number captures result) captures.length
        parameters.length).Renumbered frame.renumbering
      (closureRoutine (setting'.inside (frame.renumbering.lambdas number) captures result)
        captures.length parameters.length) :=
    { name := inner.routineName
      named := fun apart ↦ absurd rfl (apart captures.length)
      owner := congrArg some inner.owner
      visibility := rfl
      binding := rfl
      arity := rfl
      locals := rfl
      code := rfl }
  have declared : Mirrored frame.bodies (declareParameters (parameters.zip types))
      (declareParameters (parameters.zip types)) := twins_declareParameters _
  have compiled := (twins_declareCaptures captures).bind fun _ ↦ declared.bind fun _ ↦ body inner
  refine (twins_onDraft (twins_addRoutine sound routine compiled fun typed ↦ ?_)).map fun _ ↦ ?_
  · simp [epilogue, Renumbering.op]
  · simp [renumberTyped, Renumbering.op, Renumbering.code, Function.comp_def]

theorem twins_lambdaValue (sound : frame.Sound)
    (reordered : SettingsReordered frame.references frame.renumbering setting setting')
    (parameters : List Identifier) (mentioned : List String) (expected : Option Ty)
    (body : ∀ {inner inner'}, SettingsReordered frame.references frame.renumbering inner inner' →
      Twinned frame.bodies (renumberTyped frame.renumbering) (inside inner) (inside' inner')) :
    Twinned frame.bodies (renumberTyped frame.renumbering)
      (lambdaValue setting parameters mentioned inside expected)
      (lambdaValue setting' parameters mentioned inside' expected) :=
  (twins_capturesOf reordered parameters mentioned).bind fun captures ↦
    twins_closureValue sound reordered parameters captures expected body

end Expressions

/-! ## Statements -/

section Statements

open Lowering

variable {frame : Frame} {setting setting' : Setting} {start : Nat} {span : Span}

theorem twins_declareValue (name : Identifier) (declared : Option Ty) (value : Typed) :
    Twinned frame.bodies frame.renumbering.code (declareValue name declared value span)
      (declareValue name declared (renumberTyped frame.renumbering value) span) :=
  (twins_checkedType _ _).bind fun _ ↦ (twins_declareLocal _ _ _).map fun _ ↦ by
    simp [Renumbering.op]

variable {value value' : Pending}

theorem twins_assignVariable (name : Identifier) (each : value.Twins frame value') :
    Twinned frame.bodies frame.renumbering.code (assignVariable name value span start)
      (assignVariable name value' span start) := by
  unfold assignVariable
  refine (twins_lookupTarget name.name).bind fun found ↦ ?_
  cases found with
  | some found =>
      exact (each _ _).bind fun _ ↦ (twins_check _ _ _).map fun _ ↦ by simp [Renumbering.op]
  | none => exact (twins_report _ _ _).bind fun _ ↦ (each _ _).map fun _ ↦ rfl

theorem twins_assignField
    (reordered : SettingsReordered frame.references frame.renumbering setting setting')
    (name : Identifier) {valueSpan : Span} (each : value.Twins frame value') :
    Twinned frame.bodies frame.renumbering.code
      (assignField setting name value valueSpan span start)
      (assignField setting' name value' valueSpan span start) := by
  unfold assignField
  simp only [reordered.receiver, reordered.ownerName, reordered.types.fieldOf?]
  split
  · exact (twins_report _ _ _).bind fun _ ↦ (each _ _).map fun _ ↦ rfl
  · split
    · exact (twins_report _ _ _).bind fun _ ↦ (each _ _).map fun _ ↦ rfl
    · exact (each _ _).bind fun _ ↦ (twins_check _ _ _).map fun _ ↦ by simp [Renumbering.op]

theorem twins_condition (each : value.Twins frame value') :
    Twinned frame.bodies frame.renumbering.code (condition value span start)
      (condition value' span start) :=
  (each _ _).bind fun _ ↦ (twins_check _ _ _).map fun _ ↦ rfl

theorem twins_discard (each : value.Twins frame value') :
    Twinned frame.bodies frame.renumbering.code (discard value span start)
      (discard value' span start) := by
  refine (each _ _).bind fun typed ↦ Mirrored.map ?_ fun _ ↦ by simp [Renumbering.op]
  rw [renumberTyped_type]
  unfold warnDiscarded
  split
  · exact twins_onDraft (Draft.twins_note _)
  · exact .pure ()

theorem twins_returnNothing
    (reordered : SettingsReordered frame.references frame.renumbering setting setting') :
    Twinned frame.bodies frame.renumbering.code (returnNothing setting span)
      (returnNothing setting' span) := by
  simp only [returnNothing, reordered.result]
  exact .ite .rfl ((twins_report _ _ _).map fun _ ↦ rfl) (.give rfl)

theorem twins_returnValue
    (reordered : SettingsReordered frame.references frame.renumbering setting setting')
    (each : value.Twins frame value') :
    Twinned frame.bodies frame.renumbering.code (returnValue setting value span start)
      (returnValue setting' value' span start) := by
  unfold returnValue
  rw [reordered.result]
  exact (each _ _).bind fun _ ↦ (twins_check _ _ _).map fun _ ↦ by simp [Renumbering.op]

theorem twins_elementType (iterated : Ty) :
    Mirrored frame.bodies (elementType iterated span) (elementType iterated span) := by
  unfold elementType
  split
  · exact .pure _
  · exact twins_mistake _ _ _

/-- What waits for its position stays in step. -/
def TwinsAt (frame : Frame) (body twin : Nat → Lowering (List Op)) : Prop :=
  ∀ start, Twinned frame.bodies frame.renumbering.code (body start) (twin start)

variable {test test' body body' other other' : Nat → Lowering (List Op)}

theorem twins_loopOver (binding : Identifier) (element : Ty) {iterated iterated' : List Op}
    (same : iterated' = frame.renumbering.code iterated) (inner : TwinsAt frame body body') :
    Twinned frame.bodies frame.renumbering.code (loopOver binding element iterated body start)
      (loopOver binding element iterated' body' start) := by
  subst same
  simp only [loopOver, Renumbering.length_code]
  exact twins_allocate.bind fun _ ↦ twins_openScope.bind fun _ ↦ (twins_declareLocal _ _ _).bind
    fun _ ↦ (inner _).bind fun _ ↦ twins_closeScope.map fun _ ↦ by simp [Renumbering.op]

theorem twins_forEachLoop (binding : Identifier) {iterableSpan : Span}
    (each : value.Twins frame value') (inner : TwinsAt frame body body') :
    Twinned frame.bodies frame.renumbering.code
      (forEachLoop binding value iterableSpan body start)
      (forEachLoop binding value' iterableSpan body' start) :=
  (each _ _).bind fun _ ↦ (twins_elementType _).bind fun _ ↦ twins_loopOver _ _ rfl inner

theorem twins_whileTrue (first : TwinsAt frame test test') (second : TwinsAt frame body body') :
    Twinned frame.bodies frame.renumbering.code (whileTrue test body start)
      (whileTrue test' body' start) := by
  refine (first _).bind fun tested ↦ ?_
  rw [Renumbering.length_code]
  exact (second _).map fun _ ↦ by simp [Renumbering.op]

theorem twins_ifTrue (first : TwinsAt frame test test') (second : TwinsAt frame body body') :
    Twinned frame.bodies frame.renumbering.code (ifTrue test body start)
      (ifTrue test' body' start) := by
  refine (first _).bind fun tested ↦ ?_
  rw [Renumbering.length_code]
  exact (second _).map fun _ ↦ by simp [Renumbering.op]

theorem twins_ifElse (first : TwinsAt frame test test') (second : TwinsAt frame body body')
    (third : TwinsAt frame other other') :
    Twinned frame.bodies frame.renumbering.code (ifElse test body other start)
      (ifElse test' body' other' start) := by
  refine (first _).bind fun tested ↦ ?_
  rw [Renumbering.length_code]
  refine (second _).bind fun inside ↦ ?_
  simp only [Renumbering.length_code]
  exact (third _).map fun _ ↦ by simp [Renumbering.op]

end Statements

/-! ## The walk -/

section Walk

open Lowering

variable {frame : Frame}

mutual

/-- An expression stays in step with itself where the types are in another order. -/
theorem twins_expression (sound : frame.Sound) {setting setting' : Setting}
    (reordered : SettingsReordered frame.references frame.renumbering setting setting') :
    (value : Expression) → Pending.Twins frame (expression setting value)
      (expression setting' value)
  | .int .., _, _ | .str .., _, _ | .bool .., _, _ => .give rfl
  | .array values _, expected, start => by
      rw [expression, expression]
      exact (twins_items sound reordered values _ [] _).map fun _ ↦ by
        simp [renumberTyped, Renumbering.op]
  | .receiver _, _, _ => twins_receiverValue reordered
  | .path segments _, _, _ => twins_pathValue segments
  | .call callee values span, expected, start => by
      have each := twins_arguments sound reordered values
      by_cases path : ∃ segments calleeSpan, callee = .path segments calleeSpan
      · obtain ⟨segments, calleeSpan, rfl⟩ := path
        rw [expression, expression]
        exact twins_callNamed sound reordered segments _ each
      · have apart (segments : List Identifier) (calleeSpan : Span) :
            callee ≠ .path segments calleeSpan := fun same ↦ path ⟨segments, calleeSpan, same⟩
        rw [expression_call apart, expression_call apart]
        exact (twins_expression sound reordered callee _ _).bind fun _ ↦
          twins_callValue _ _ _ each
  | .method target name values span, expected, start => by
      rw [expression, expression]
      exact (twins_expression sound reordered target _ _).bind fun _ ↦
        twins_callOnTarget reordered _ _ _ (twins_arguments sound reordered values)
  | .field target name _, expected, start => by
      rw [expression, expression]
      exact (twins_expression sound reordered target _ _).bind fun _ ↦
        twins_fieldValue reordered _ _
  | .element target index _, expected, start => by
      rw [expression, expression]
      refine (twins_expression sound reordered target _ _).bind fun typed ↦ ?_
      simp only [renumberTyped_code, renumberTyped_type, Renumbering.length_code]
      exact (twins_expression sound reordered index _ _).bind fun _ ↦
        (twins_check _ _ _).bind fun _ ↦ (twins_itemType _).map fun _ ↦ by
          simp [renumberTyped, Renumbering.op]
  | .construct name _, _, _ => twins_newObject reordered name
  | .lambda parameters body _, expected, start => by
      rw [expression, expression]
      exact twins_lambdaValue sound reordered parameters _ expected fun inner ↦
        twins_lambdaBody sound inner body
  | .unary operator operand _, expected, start => by
      rw [expression, expression]
      exact (twins_expression sound reordered operand _ _).bind fun _ ↦ twins_unaryValue _ _
  | .binary operator left right _, expected, start => by
      rw [expression, expression]
      exact twins_binaryValue operator (twins_expression sound reordered left)
        (twins_expression sound reordered right)

/-- The items of an array stay in step. -/
theorem twins_items (sound : frame.Sound) {setting setting' : Setting}
    (reordered : SettingsReordered frame.references frame.renumbering setting setting') :
    (values : List Expression) → (element : Option Ty) → (before : List Op) → (start : Nat) →
    Twinned frame.bodies (Prod.map frame.renumbering.code id)
      (items setting values element before start)
      (items setting' values element (frame.renumbering.code before) start)
  | [], _, _, _ => .give (by simp)
  | item :: rest, element, before, start => by
      rw [items, items]
      refine (twins_expression sound reordered item _ _).bind fun typed ↦
        (twins_checkedType _ _).bind fun element ↦ ?_
      have others := twins_items sound reordered rest (some element)
        (typed.code.reverse ++ before) (start + typed.code.length)
      simpa using others

/-- The arguments of a call stay in step. -/
theorem twins_arguments (sound : frame.Sound) {setting setting' : Setting}
    (reordered : SettingsReordered frame.references frame.renumbering setting setting') :
    (values : List Expression) → PendingArguments.Twins frame (arguments setting values)
      (arguments setting' values)
  | [], _, _, _, _, _, _ => .give (by simp)
  | argument :: rest, [], callee, number, bound, before, start => by
      rw [arguments, arguments]
      refine (twins_expression sound reordered argument _ _).bind fun typed ↦ ?_
      have others := twins_arguments sound reordered rest [] callee (number + 1) bound
        (typed.code.reverse ++ before) (start + typed.code.length)
      simpa using others
  | argument :: rest, wanted :: others, callee, number, bound, before, start => by
      rw [arguments, arguments]
      refine (twins_expression sound reordered argument _ _).bind fun typed ↦
        (twins_checkArgument _ _ _ _ _).bind fun _ ↦ ?_
      have others := twins_arguments sound reordered rest others callee (number + 1)
        (wanted.accepts typed.type bound).2 (typed.code.reverse ++ before)
        (start + typed.code.length)
      simpa using others

/-- The body of a lambda stays in step. -/
theorem twins_lambdaBody (sound : frame.Sound) {setting setting' : Setting}
    (reordered : SettingsReordered frame.references frame.renumbering setting setting') :
    (body : LambdaBody) → Twinned frame.bodies (renumberTyped frame.renumbering)
      (lambdaBody setting body) (lambdaBody setting' body)
  | .expression value => by
      rw [lambdaBody, lambdaBody, reordered.result]
      exact (twins_expression sound reordered value _ _).bind fun _ ↦
        (twins_check _ _ _).map fun _ ↦ by simp [renumberTyped, Renumbering.op]
  | .block body => by
      rw [lambdaBody, lambdaBody, reordered.result]
      exact (twins_block sound reordered body 0).map fun _ ↦ rfl

/-- A block stays in step. -/
theorem twins_block (sound : frame.Sound) {setting setting' : Setting}
    (reordered : SettingsReordered frame.references frame.renumbering setting setting') :
    (body : Block) → TwinsAt frame (block setting body) (block setting' body)
  | .mk body _, start => by
      rw [block, block]
      exact twins_openScope.bind fun _ ↦ (twins_statements sound reordered body [] _).bind fun _ ↦
        twins_closeScope.map fun _ ↦ rfl

/-- Statements stay in step. -/
theorem twins_statements (sound : frame.Sound) {setting setting' : Setting}
    (reordered : SettingsReordered frame.references frame.renumbering setting setting') :
    (body : List Statement) → (before : List Op) → (start : Nat) →
    Twinned frame.bodies frame.renumbering.code (statements setting body before start)
      (statements setting' body (frame.renumbering.code before) start)
  | [], _, _ => .give (by simp)
  | first :: rest, before, start => by
      rw [statements, statements]
      refine (twins_statement sound reordered first start).bind fun code ↦ ?_
      have others := twins_statements sound reordered rest (code.reverse ++ before)
        (start + code.length)
      simpa using others

/-- A statement stays in step. -/
theorem twins_statement (sound : frame.Sound) {setting setting' : Setting}
    (reordered : SettingsReordered frame.references frame.renumbering setting setting') :
    (body : Statement) → TwinsAt frame (statement setting body) (statement setting' body)
  | .declare name none value _, start => by
      rw [statement, statement]
      exact Mirrored.bind (.pure none) fun _ ↦
        (twins_expression sound reordered value _ _).bind fun _ ↦ twins_declareValue _ _ _
  | .declare name (some type) value _, start => by
      rw [statement, statement]
      exact (twins_resolve reordered type).bind fun declared ↦
        Mirrored.bind (.pure (some declared)) fun _ ↦
          (twins_expression sound reordered value _ _).bind fun _ ↦ twins_declareValue _ _ _
  | .assign (.binding name) value _, start => by
      rw [statement, statement]
      exact twins_assignVariable name (twins_expression sound reordered value)
  | .assign (.field name) value _, start => by
      rw [statement, statement]
      exact twins_assignField reordered name (twins_expression sound reordered value)
  | .forEach binding iterable body _, start => by
      rw [statement, statement]
      exact twins_forEachLoop binding (twins_expression sound reordered iterable)
        (twins_block sound reordered body)
  | .whileLoop test body _, start => by
      rw [statement, statement]
      exact twins_whileTrue (fun _ ↦ twins_condition (twins_expression sound reordered test))
        (twins_block sound reordered body)
  | .conditional test body .absent _, start => by
      rw [statement, statement]
      exact twins_ifTrue (fun _ ↦ twins_condition (twins_expression sound reordered test))
        (twins_block sound reordered body)
  | .conditional test body (.block other) _, start => by
      rw [statement_conditional (.block other) nofun, statement_conditional (.block other) nofun]
      exact twins_ifElse (fun _ ↦ twins_condition (twins_expression sound reordered test))
        (twins_block sound reordered body) (twins_alternative sound reordered (.block other))
  | .conditional test body (.chain other) _, start => by
      rw [statement_conditional (.chain other) nofun, statement_conditional (.chain other) nofun]
      exact twins_ifElse (fun _ ↦ twins_condition (twins_expression sound reordered test))
        (twins_block sound reordered body) (twins_alternative sound reordered (.chain other))
  | .returns none _, _ => twins_returnNothing reordered
  | .returns (some value) _, start => by
      rw [statement, statement]
      exact twins_returnValue reordered (twins_expression sound reordered value)
  | .evaluate value, start => by
      rw [statement, statement]
      exact twins_discard (twins_expression sound reordered value)

/-- An alternative stays in step. -/
theorem twins_alternative (sound : frame.Sound) {setting setting' : Setting}
    (reordered : SettingsReordered frame.references frame.renumbering setting setting') :
    (other : Alternative) → TwinsAt frame (alternative setting other) (alternative setting' other)
  | .absent, _ => .give rfl
  | .block body, start => twins_block sound reordered body start
  | .chain conditional, start => twins_statement sound reordered conditional start

end

end Walk

end GuestScript.Compile
