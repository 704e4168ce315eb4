import GuestScript.Proofs.Compile.Gives

/-!
# The code of expressions

One lemma for each form of expression: if what it is compiled to is installed, then that is its code
in the sense of `ExpressionCode`, and its type is the static type `typeOf`. The parts of the
expression are given as pending, together with the same about them.
-/

namespace GuestScript

/-- Every variable in scope has a closed type. -/
def Meaning.Scope.IsClosed {Holder : Type} (scope : Meaning.Scope Holder) : Prop :=
  ∀ held ∈ scope, held.type.IsClosed

namespace Compile

open Bytecode (Op)
open Lowering
open Machine (Program)
open Meaning
open Syntax

/-- A body is one of a type of its unit, and every type that it may refer to is closed, or open in
the signature of a host function. -/
structure Setting.IsProper (setting : Setting) : Prop where
  owner : setting.owner < setting.types.length
  field : ∀ {fullName name : String} {position : Nat} {type : Ty},
    fieldOf? setting.types fullName name = some (position, type) → type.IsClosed
  parameters : ∀ {owner : Bytecode.TypeIndex} {name : String} {method : MethodInfo},
    methodOf? setting.types owner name = some method →
    ∀ wanted ∈ method.parameters, wanted.IsClosed
  methodResult : ∀ {owner : Bytecode.TypeIndex} {name : String} {method : MethodInfo},
    methodOf? setting.types owner name = some method → method.result.IsClosed
  hostParameters : ∀ {qualifier name : String} {binding : ModuleBinding} {function : HostFunction},
    setting.references.lookup? qualifier = some binding →
    binding.host.function? name = some function →
    ∀ wanted ∈ function.parameters, wanted.isWhole true = true
  hostResult : ∀ {qualifier name : String} {binding : ModuleBinding} {function : HostFunction},
    setting.references.lookup? qualifier = some binding →
    binding.host.function? name = some function → function.result.isWhole true = true
  result : setting.result.IsClosed

/-- Code and a type are those of an expression. -/
structure IsTranslated (program : Program) (setting : Setting) (scope : Scope Nat) (number : Nat)
    (value : Expression) (expected : Option Ty) (start : Nat) (typed : Typed) : Prop where
  code : ExpressionCode program setting scope number value expected start typed.code
  type : typed.type = typeOf setting.site scope.typing value expected
  closed : typed.type.IsClosed

/-- What is pending is an expression. -/
structure Translates (program : Program) (setting : Setting) (value : Expression)
    (pending : Pending) : Prop where
  steady : ∀ expected start, Steady (lambdasIn value) (pending expected start)
  gives : ∀ {scope number expected}, scope.IsClosed → (∀ wanted ∈ expected, wanted.IsClosed) →
    ∀ start, Gives program setting.home scope number (pending expected start)
      (IsTranslated program setting scope number value expected start)

/-- Code behind other code, and what the open type is bound to, are those of arguments. -/
structure AreTranslated (program : Program) (setting : Setting) (scope : Scope Nat) (number : Nat)
    (values : List Expression) (parameters : List Ty) (binding : Option Ty) (before : List Op)
    (start : Nat) (result : List Op × Option Ty) : Prop where
  code : ∃ code, result.1 = before ++ code ∧
    ArgumentsCode program setting scope number values parameters binding start code
  bound : result.2 = bound setting.site scope.typing values parameters binding
  closed : ∀ bound ∈ result.2, bound.IsClosed

/-- What is pending are arguments. -/
structure TranslatesAll (program : Program) (setting : Setting) (values : List Expression)
    (pending : PendingArguments) : Prop where
  steady : ∀ parameters callee count binding before start,
    Steady (lambdasInAll values) (pending parameters callee count binding before start)
  gives : ∀ {scope number parameters binding}, scope.IsClosed →
    (∀ wanted ∈ parameters, wanted.isWhole true = true) → (∀ bound ∈ binding, bound.IsClosed) →
    ∀ callee count before start, Gives program setting.home scope number
      (pending parameters callee count binding before start)
      (AreTranslated program setting scope number values parameters binding before.reverse start)

variable {program : Program} {setting : Setting} {scope : Scope Nat} {number start : Nat}
  {expected : Option Ty} {span : Span}

/-- Nothing is wanted of a type. -/
theorem unwanted : ∀ wanted ∈ (none : Option Ty), wanted.IsClosed :=
  nofun

theorem gives_noValue {code : Code} {message : String} {holds : Typed → Prop} :
    Gives program setting.home scope number (noValue code message span) holds :=
  .map .mistake

theorem gives_receiverValue : Gives program setting.home scope number
    (receiverValue setting span)
    (IsTranslated program setting scope number (.receiver span) expected start) := by
  unfold receiverValue
  split
  · next slot same => exact .pure ⟨.receiver same, rfl, rfl⟩
  · exact gives_noValue

theorem gives_pathValue (closed : scope.IsClosed) (segments : List Identifier) :
    Gives program setting.home scope number (pathValue segments span)
      (IsTranslated program setting scope number (.path segments span) expected start) := by
  unfold pathValue
  split
  · next name =>
      refine .lookup_bind fun found same ↦ ?_
      cases found with
      | none => exact gives_noValue
      | some found =>
          refine .pure ⟨.path same.symm, ?_, closed _ (Scope.mem_of_named? same.symm).1⟩
          simp only [typeOf]
          rw [Scope.typing, Scope.named?_hold, ← same]
          rfl
  · exact gives_noValue

theorem gives_fieldValue (proper : setting.IsProper) {target : Expression} {typed : Typed}
    {other : Nat} (name : Identifier)
    (translated : IsTranslated program setting scope number target none start typed) :
    Gives program setting.home scope other (fieldValue setting typed name)
      (IsTranslated program setting scope number (.field target name span) expected start) := by
  unfold fieldValue
  split
  · next fullName isObject =>
      split
      · next position type found =>
          have refers : fieldOn? setting.site.types (typeOf setting.site scope.typing target none)
              name.name = some (position, type) := by
            rw [← translated.type, isObject]
            exact found
          exact .pure ⟨.field translated.code refers, by rw [typeOf, refers]; rfl,
            proper.field found⟩
      · exact .mistake_bind fun _ ↦ .pure _
  · next isPoison => exact absurd (isPoison ▸ translated.closed) nofun
  · exact .mistake_bind fun _ ↦ .pure _

theorem gives_checkedType {wanted : Option Ty} {found : Ty} :
    Gives program setting.home scope number (checkedType wanted found span) fun type ↦
      type = wanted.getD found ∧ ∀ type ∈ wanted, type.admits found = true := by
  cases wanted with
  | none => exact .pure ⟨rfl, nofun⟩
  | some wanted =>
      exact .map (.mono .check fun _ admitted ↦
        ⟨rfl, fun _ same ↦ Option.some.inj same ▸ admitted⟩)

theorem gives_itemType {target : Ty} (closed : target.IsClosed) {other : Nat} :
    Gives program setting.home scope other (itemType target span) fun type ↦
      IsIndexed target ∧ type = indexedType target ∧ type.IsClosed := by
  unfold itemType
  split
  · exact .pure ⟨trivial, rfl, closed⟩
  · exact .pure ⟨trivial, rfl, rfl⟩
  · exact absurd closed nofun
  · exact .mistake

theorem gives_newObject (name : Identifier) : Gives program setting.home scope number
    (newObject setting name)
    (IsTranslated program setting scope number (.construct name span) expected start) := by
  unfold newObject
  simp only
  split
  · next type found =>
      have same : setting.site.typeNamed? name.name = some type := found
      refine .pure ⟨.construct same, ?_, rfl⟩
      rw [typeOf, same]
      rfl
  · exact gives_noValue

theorem isClosed_unaryType (operator : UnaryOperator) : (unaryType operator).IsClosed := by
  cases operator <;> rfl

theorem gives_unaryValue (operator : UnaryOperator) {operand : Expression} {typed : Typed}
    {other : Nat} (translated : IsTranslated program setting scope number operand
      (some (unaryType operator)) start typed) :
    Gives program setting.home scope other (unaryValue operator typed span)
      (IsTranslated program setting scope number (.unary operator operand span) expected start) := by
  unfold unaryValue
  simp only
  split
  · next admitted =>
      refine .pure ⟨.unary translated.code (translated.type ▸ admitted), ?_,
        isClosed_unaryType operator⟩
      rw [typeOf]
  · exact .mistake_bind fun _ ↦ .pure _

/-! ## Binary operators -/

theorem isClosed_binaryType? {operator : BinaryOperator} {left right type : Ty}
    (closed : left.IsClosed) (closed' : right.IsClosed)
    (same : binaryType? operator left right = some type) : type.IsClosed := by
  have isPoison (type : Ty) (closed : type.IsClosed) : type.isPoison = false := by
    cases type <;> first | rfl | exact absurd closed nofun
  simp only [binaryType?, isPoison left closed, isPoison right closed', Bool.or_self,
    Bool.false_eq_true, ↓reduceIte] at same
  have either {condition : Bool} {given : Ty}
      (same : (if condition = true then some given else none) = some type)
      (closed : given.IsClosed) : type.IsClosed := by
    cases condition with
    | true => exact Option.some.inj same ▸ closed
    | false => exact absurd same nofun
  cases operator with
  | add =>
      simp only [sumType?] at same
      split at same
      · exact Option.some.inj same ▸ rfl
      · exact Option.some.inj same ▸ rfl
      · exact either same rfl
  | and | or => exact Option.some.inj same ▸ rfl
  | equal | unequal | less | atMost | greater | atLeast => exact either same rfl
  | subtract | multiply | divide | remainder => exact either same rfl

theorem gives_shortCircuit {operator : BinaryOperator} {code : List Op} {left right : Ty}
    {holds : Typed → Prop} (admitted : Ty.bool.admits left = true → Ty.bool.admits right = true →
      holds ⟨code, .bool⟩) : Gives program setting.home scope number
        (shortCircuit operator code left right span) holds := by
  unfold shortCircuit
  split
  · next both =>
      rw [Bool.and_eq_true] at both
      exact .pure (admitted both.1 both.2)
  · exact .mistake_bind fun _ ↦ .pure _

theorem gives_binaryValue (closed : scope.IsClosed) (operator : BinaryOperator)
    {left right : Expression} {first second : Pending}
    (leftGives : Translates program setting left first)
    (rightGives : Translates program setting right second) :
    Gives program setting.home scope number (binaryValue operator first second span start)
      (IsTranslated program setting scope number (.binary operator left right span) expected
        start) := by
  have bool : ∀ wanted ∈ some Ty.bool, wanted.IsClosed := fun _ same ↦ Option.some.inj same ▸ rfl
  unfold binaryValue
  split
  · refine .bind (leftGives.gives closed bool start) (leftGives.steady _ _)
      (fun _ ↦ ((rightGives.steady _ _).before fun _ ↦ steady_shortCircuit _ _ _ _).1) ?_
    intro typed translated
    refine .bind (rightGives.gives closed bool _) (rightGives.steady _ _)
      (fun _ ↦ (steady_shortCircuit _ _ _ _).1) ?_
    intro typed' translated'
    refine gives_shortCircuit fun admitted admitted' ↦ ?_
    exact ⟨.and translated.code (translated.type ▸ admitted) translated'.code
      (translated'.type ▸ admitted'), rfl, rfl⟩
  · refine .bind (leftGives.gives closed bool start) (leftGives.steady _ _)
      (fun _ ↦ ((rightGives.steady _ _).before fun _ ↦ steady_shortCircuit _ _ _ _).1) ?_
    intro typed translated
    refine .bind (rightGives.gives closed bool _) (rightGives.steady _ _)
      (fun _ ↦ (steady_shortCircuit _ _ _ _).1) ?_
    intro typed' translated'
    refine gives_shortCircuit fun admitted admitted' ↦ ?_
    exact ⟨.or translated.code (translated.type ▸ admitted) translated'.code
      (translated'.type ▸ admitted'), rfl, rfl⟩
  · next notAnd notOr =>
      refine .bind (leftGives.gives closed unwanted start) (leftGives.steady _ _)
        (fun _ ↦ ((rightGives.steady _ _).before fun _ ↦ steady_strictOperator _ _ _ _).1) ?_
      intro typed translated
      refine .bind (rightGives.gives closed unwanted _) (rightGives.steady _ _)
        (fun _ ↦ (steady_strictOperator _ _ _ _).1) ?_
      intro typed' translated'
      unfold strictOperator
      split
      · next type same =>
          have closed := isClosed_binaryType? translated.closed translated'.closed same
          rw [translated.type, translated'.type] at same
          refine .pure ⟨.binary notAnd notOr translated.code translated'.code same, ?_, closed⟩
          rw [typeOf]
          · exact (congrArg (Option.getD · .poison) same).symm
          · exact notAnd
          · exact notOr
      · exact .mistake_bind fun _ ↦ .pure _

/-! ## Calls -/

section Calls

variable {values : List Expression} {arguments : PendingArguments}

theorem gives_checkArgument {accepted : Bool} {count : Nat} {callee : String} {wanted found : Ty} :
    Gives program setting.home scope number
      (checkArgument accepted count callee wanted found span) fun _ ↦ accepted = true := by
  cases accepted with
  | true => exact .pure rfl
  | false => exact .report

theorem gives_checkedArguments (closed : scope.IsClosed)
    (given : TranslatesAll program setting values arguments) {parameters : List Ty}
    (whole : ∀ wanted ∈ parameters, wanted.isWhole true = true) (callee : String)
    (before : List Op) :
    Gives program setting.home scope number
      (checkedArguments arguments values.length parameters callee span before start) fun result ↦
        values.length = parameters.length ∧ AreTranslated program setting scope number values
          parameters none before (start + before.length) result := by
  simp only [checkedArguments]
  split
  · exact .report_bind fun _ ↦ (given.steady _ _ _ _ _ _).1
  · next same =>
      refine (given.gives closed whole unwanted callee 1 before.reverse _).mono fun result done ↦ ?_
      rw [List.reverse_reverse] at done
      exact ⟨(Decidable.not_not.mp same).symm, done⟩

theorem gives_uncheckedArguments (closed : scope.IsClosed)
    (given : TranslatesAll program setting values arguments) (before : List Op) :
    Gives program setting.home scope number (uncheckedArguments arguments before start)
      fun emitted ↦ ∃ code, emitted = before ++ code ∧
        ArgumentsCode program setting scope number values [] none (start + before.length) code := by
  have none' : ∀ wanted ∈ ([] : List Ty), wanted.isWhole true = true := nofun
  refine .map ((given.gives closed none' unwanted "" 1 before.reverse _).mono fun result done ↦ ?_)
  rw [List.reverse_reverse] at done
  exact done.code

theorem gives_badCall (closed : scope.IsClosed)
    (given : TranslatesAll program setting values arguments)
    (before : List Op) (code : Code) (message : String) {holds : Typed → Prop} :
    Gives program setting.home scope number
      (badCall arguments before start code message span) holds := by
  have nothing : Gives program setting.home scope number
      (uncheckedArguments arguments before start) fun _ ↦ True :=
    (gives_uncheckedArguments closed given before).mono fun _ _ ↦ trivial
  exact nothing.bind (steady_uncheckedArguments before given.steady)
    (fun _ ↦ (steady_mistake code message span).map.1) fun _ _ ↦ .mistake_bind fun _ ↦ .pure _

/-- The code of a call of a value, and the type of its result. -/
theorem gives_callValue (closed : scope.IsClosed)
    (given : TranslatesAll program setting values arguments) {callee : Typed}
    (closed' : callee.type.IsClosed) (what : String) :
    Gives program setting.home scope number
      (callValue callee arguments values.length what span start) fun typed ↦
        IsCalled callee.type values.length ∧
        (∃ code, typed.code = callee.code ++ code ++ [.callClosure values.length] ∧
          ArgumentsCode program setting scope number values (calledParameters callee.type) none
            (start + callee.code.length) code) ∧
        typed.type = calledType callee.type ∧ typed.type.IsClosed := by
  unfold callValue
  split
  · next parameters result same =>
      rw [same] at closed' ⊢
      obtain ⟨wholes, whole⟩ := Ty.isWhole_function.mp closed'
      refine .map ((gives_checkedArguments closed given
        (fun wanted inside ↦ Ty.IsClosed.isWhole (wholes wanted inside)) what callee.code).mono ?_)
      rintro ⟨_, _⟩ ⟨count, ⟨code, rfl, translated⟩, -, -⟩
      exact ⟨count, ⟨code, rfl, translated⟩, rfl, whole⟩
  · next same =>
      rw [same]
      refine .map ((gives_uncheckedArguments closed given callee.code).mono ?_)
      rintro _ ⟨code, rfl, translated⟩
      exact ⟨trivial, ⟨code, rfl, translated⟩, rfl, rfl⟩
  · next same => exact absurd (same ▸ closed') nofun
  · exact gives_badCall closed given _ _ _

/-- The code of a call of a declared function. -/
theorem gives_callMethod (closed : scope.IsClosed)
    (given : TranslatesAll program setting values arguments) {method : MethodInfo}
    (closed' : ∀ wanted ∈ method.parameters, wanted.IsClosed) (receiver : List Op) :
    Gives program setting.home scope number
      (callMethod method receiver arguments values.length span start) fun typed ↦
        values.length = method.parameters.length ∧
        (∃ code, typed.code = receiver ++ code ++ [.call method.routine
            (if method.isStatic then values.length else values.length + 1)] ∧
          ArgumentsCode program setting scope number values method.parameters none
            (start + receiver.length) code) ∧
        typed.type = method.result := by
  unfold callMethod
  refine .map ((gives_checkedArguments closed given
    (fun wanted inside ↦ Ty.IsClosed.isWhole (closed' wanted inside)) _ receiver).mono ?_)
  rintro ⟨_, _⟩ ⟨count, ⟨code, rfl, translated⟩, -, -⟩
  exact ⟨count, ⟨code, rfl, translated⟩, rfl⟩

/-- The code of the receiver is there if the function works on an instance. -/
theorem gives_implicitReceiver (method : MethodInfo) :
    Gives program setting.home scope number (implicitReceiver setting method span)
      fun receiver ↦ method.isStatic = true ∧ receiver = [] ∨
        method.isStatic = false ∧ ∃ slot, setting.receiver = some slot ∧
          receiver = [.load slot] := by
  unfold implicitReceiver
  split
  · next isStatic => exact .pure (.inl ⟨isStatic, rfl⟩)
  · next onInstance =>
      split
      · next slot same =>
          exact .pure (.inr ⟨Bool.eq_false_iff.mpr onInstance, slot, same, rfl⟩)
      · exact .report_bind fun _ ↦ .pure _

/-- The type of a call of something written as a path. -/
theorem typeOf_call_path {site : Site} {segments : List Identifier} {pathSpan : Span} :
    typeOf site scope.typing (.call (.path segments pathSpan) values span) expected
      = match callable? site scope segments with
        | some (.value held) => calledType held.type
        | some (.function _ method) => method.result
        | some (.host _ function) =>
            function.result.substitute
              (bound site scope.typing values function.parameters none)
        | none => .poison := by
  rw [typeOf, Scope.typing, callable?_hold]
  rcases callable? site scope segments with _ | ⟨_ | _ | _⟩ <;> rfl

theorem gives_callName (proper : setting.IsProper) (closed : scope.IsClosed)
    (given : TranslatesAll program setting values arguments) (name : Identifier)
    (pathSpan : Span) : Gives program setting.home scope number
      (callName setting name arguments values.length span start)
      (IsTranslated program setting scope number (.call (.path [name] pathSpan) values span)
        expected start) := by
  unfold callName
  refine .lookup_bind fun found same ↦ ?_
  cases found with
  | some found =>
      have refers : callable? setting.site scope [name] = some (.value found.variable) := by
        rw [callable?, ← same]
        rfl
      have closed' : found.type.IsClosed := closed _ (Scope.mem_of_named? same.symm).1
      refine (gives_callValue closed given closed' name.name).mono ?_
      rintro ⟨_, _⟩ ⟨called, ⟨code, rfl, translated⟩, rfl, whole⟩
      exact ⟨.callVariable refers called translated, by rw [typeOf_call_path, refers]; rfl, whole⟩
  | none =>
      simp only
      split
      · next method found =>
          have refers : callable? setting.site scope [name]
              = some (.function setting.owner method) := by
            rw [callable?, ← same]
            change (methodOf? setting.types setting.owner name.name).map _ = _
            rw [found]
            rfl
          refine .bind (gives_implicitReceiver method) (steady_implicitReceiver method)
            (fun _ ↦ (steady_callMethod _ _ _ given.steady).1) fun receiver before ↦ ?_
          refine (gives_callMethod closed given (proper.parameters found) receiver).mono ?_
          rintro ⟨_, _⟩ ⟨count, ⟨code, rfl, translated⟩, rfl⟩
          refine ⟨?_, by rw [typeOf_call_path, refers], proper.methodResult found⟩
          obtain ⟨isStatic, rfl⟩ | ⟨onInstance, slot, same, rfl⟩ := before
          · rw [isStatic]
            exact .callStatic refers isStatic count translated
          · rw [onInstance]
            exact .callOwn refers onInstance rfl same count translated
      · exact gives_badCall closed given _ _ _

theorem gives_checkVisible (type : Bytecode.TypeIndex) (method : MethodInfo) :
    Gives program setting.home scope number (checkVisible setting type method span)
      fun _ ↦ True := by
  unfold checkVisible
  split
  · exact .report
  · exact .mono (.pure rfl) fun (_ : Unit) (_ : () = ()) ↦ trivial

theorem gives_callStatic (proper : setting.IsProper) (closed : scope.IsClosed)
    (given : TranslatesAll program setting values arguments) {qualifier function : Identifier}
    {type : Bytecode.TypeIndex} (named : setting.site.typeNamed? qualifier.name = some type)
    (path : String) (pathSpan : Span) : Gives program setting.home scope number
      (callStatic setting type path function arguments values.length span start)
      (IsTranslated program setting scope number
        (.call (.path [qualifier, function] pathSpan) values span) expected start) := by
  unfold callStatic
  split
  · next method found =>
      have refers : callable? setting.site scope [qualifier, function]
          = some (.function type method) := by
        rw [callable?, named]
        change (methodOf? setting.types type function.name).map _ = _
        rw [found]
        rfl
      split
      · next isStatic =>
          refine .bind (gives_checkVisible type method) (steady_checkVisible type method)
            (fun _ ↦ (steady_callMethod _ _ _ given.steady).1) fun _ _ ↦ ?_
          refine (gives_callMethod closed given (proper.parameters found) []).mono ?_
          rintro ⟨_, _⟩ ⟨count, ⟨code, rfl, translated⟩, rfl⟩
          rw [isStatic]
          exact ⟨.callStatic refers isStatic count translated, by rw [typeOf_call_path, refers],
            proper.methodResult found⟩
      · exact gives_badCall closed given _ _ _
  · exact gives_badCall closed given _ _ _

theorem gives_callHostFunction (proper : setting.IsProper) (closed : scope.IsClosed)
    (given : TranslatesAll program setting values arguments) {qualifier function : Identifier}
    {binding : ModuleBinding} (unnamed : setting.site.typeNamed? qualifier.name = none)
    (known : setting.references.lookup? qualifier.name = some binding) (path : String)
    (pathSpan : Span) : Gives program setting.home scope number
      (callHostFunction binding path function arguments values.length span start)
      (IsTranslated program setting scope number
        (.call (.path [qualifier, function] pathSpan) values span) expected start) := by
  have ownName : binding.name = qualifier.name := by
    simpa using List.find?_some known
  unfold callHostFunction
  split
  · next host offered =>
      have refers : callable? setting.site scope [qualifier, function]
          = some (.host (binding.name ++ "::" ++ function.name) host) := by
        rw [callable?, unnamed]
        change (setting.references.lookup? qualifier.name).bind _ = _
        rw [known, Option.bind_some, offered]
        rfl
      refine .bind (gives_checkedArguments closed given (proper.hostParameters known offered) path
        []) (steady_checkedArguments _ _ _ _ given.steady) (fun _ ↦ (steady_importIndex _).map.1) ?_
      rintro ⟨_, _⟩ ⟨count, ⟨code, rfl, translated⟩, same, closed'⟩
      refine .map ((Gives.importIndex (ownName ▸ known) offered).mono fun index imported ↦ ?_)
      refine ⟨.callHost refers imported count translated, ?_,
        Ty.isClosed_substitute closed' (proper.hostResult known offered)⟩
      rw [typeOf_call_path, refers]
      exact congrArg (Ty.substitute · host.result) same
  · exact gives_badCall closed given _ _ _

/-- The code of a call of something written as a path, and its type. -/
theorem gives_callNamed (proper : setting.IsProper) (closed : scope.IsClosed)
    (given : TranslatesAll program setting values arguments) (segments : List Identifier)
    (pathSpan : Span) : Gives program setting.home scope number
      (callNamed setting segments pathSpan arguments values.length span start)
      (IsTranslated program setting scope number (.call (.path segments pathSpan) values span)
        expected start) := by
  unfold callNamed
  split
  · exact gives_callName proper closed given _ pathSpan
  · unfold callPath
    simp only
    split
    · next named => exact gives_callStatic proper closed given named _ pathSpan
    · next unnamed =>
        split
        · next known => exact gives_callHostFunction proper closed given unnamed known _ pathSpan
        · exact gives_badCall closed given _ _ _
  · exact gives_badCall closed given _ _ _

theorem gives_callOnTarget (proper : setting.IsProper) (closed : scope.IsClosed)
    (given : TranslatesAll program setting values arguments) {target : Expression} {typed : Typed}
    (translated : IsTranslated program setting scope number target none start typed)
    (name : Identifier) : Gives program setting.home scope (number + lambdasIn target)
      (callOnTarget setting typed name arguments values.length span start)
      (IsTranslated program setting scope number (.method target name values span) expected
        start) := by
  unfold callOnTarget
  split
  · next fullName isObject =>
      simp only
      split
      · next type method found =>
          have refers : methodOn? setting.site.types (typeOf setting.site scope.typing target none)
              name.name = some (type, method) := by
            rw [← translated.type, isObject]
            exact found
          have known : methodOf? setting.types type name.name = some method := by
            simp only [Option.bind_eq_bind, Option.bind_eq_some_iff] at found
            obtain ⟨_, -, _, known, same⟩ := found
            cases same
            exact known
          split
          · exact gives_badCall closed given _ _ _
          · next onInstance =>
              refine .bind (gives_checkVisible type method) (steady_checkVisible type method)
                (fun _ ↦ (steady_callMethod _ _ _ given.steady).1) fun _ _ ↦ ?_
              refine (gives_callMethod closed given (proper.parameters known) typed.code).mono ?_
              rintro ⟨_, _⟩ ⟨count, ⟨code, rfl, translated'⟩, rfl⟩
              rw [if_neg onInstance]
              refine ⟨.method translated.code refers (Bool.eq_false_iff.mpr onInstance) count
                translated', by rw [typeOf, refers], proper.methodResult known⟩
      · exact gives_badCall closed given _ _ _
  · next isPoison => exact absurd (isPoison ▸ translated.closed) nofun
  · exact gives_badCall closed given _ _ _

/-- The type of a call of a value. -/
theorem typeOf_call_value {site : Site} {typing : Scope Unit} {callee : Expression}
    (notPath : ∀ segments pathSpan, callee ≠ .path segments pathSpan) :
    typeOf site typing (.call callee values span) expected
      = calledType (typeOf site typing callee none) := by
  cases callee with
  | path segments pathSpan => exact absurd rfl (notPath segments pathSpan)
  | _ => rfl

/-- The code of a call of a value, whose code comes first. -/
theorem gives_callOfValue (closed : scope.IsClosed)
    (given : TranslatesAll program setting values arguments) {callee : Expression}
    {pending : Pending} (given' : Translates program setting callee pending)
    (notPath : ∀ segments pathSpan, callee ≠ .path segments pathSpan) :
    Gives program setting.home scope number (do
      let typed ← pending none start
      callValue typed arguments values.length "expression" span start)
      (IsTranslated program setting scope number (.call callee values span) expected start) := by
  refine .bind (given'.gives closed unwanted start) (given'.steady _ _)
    (fun _ ↦ (steady_callValue _ _ _ given.steady).1) fun typed translated ↦ ?_
  refine (gives_callValue closed given translated.closed _).mono ?_
  rintro ⟨_, _⟩ ⟨called, ⟨code, rfl, translated'⟩, rfl, whole⟩
  rw [translated.type] at called translated' whole
  refine ⟨.callValue notPath translated.code called translated', ?_, translated.type ▸ whole⟩
  rw [typeOf_call_value notPath, translated.type]

end Calls

theorem gives_element (closed : scope.IsClosed) {target index : Expression}
    {first second : Pending} (given : Translates program setting target first)
    (given' : Translates program setting index second) :
    Gives program setting.home scope number (do
      let typed ← first none start
      let position ← second (some .int) (start + typed.code.length)
      check .int position.type index.span
      let type ← itemType typed.type target.span
      pure ⟨typed.code ++ position.code ++ [.index], type⟩)
      (IsTranslated program setting scope number (.element target index span) expected start) := by
  have int : ∀ wanted ∈ some Ty.int, wanted.IsClosed := fun _ same ↦ Option.some.inj same ▸ rfl
  refine .bind (given.gives closed unwanted start) (given.steady _ _)
    (fun _ ↦ ((given'.steady _ _).before fun _ ↦
      (steady_check _ _ _).after fun _ ↦ (steady_itemType _).map).1) fun typed translated ↦ ?_
  refine .bind (given'.gives closed int _) (given'.steady _ _)
    (fun _ ↦ ((steady_check _ _ _).after fun _ ↦ (steady_itemType _).map).1)
    fun position translated' ↦ ?_
  refine .bind .check (steady_check _ _ _) (fun _ ↦ (steady_itemType _).map.1) fun _ admitted ↦ ?_
  refine .map ((gives_itemType translated.closed).mono ?_)
  rintro type ⟨indexed, rfl, whole⟩
  rw [translated.type] at indexed
  refine ⟨.element translated.code indexed translated'.code (translated'.type ▸ admitted), ?_, whole⟩
  rw [typeOf, translated.type]

end Compile

end GuestScript
