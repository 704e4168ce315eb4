import GuestScript.Compile.Mentions
import GuestScript.Compile.Scope
import GuestScript.Compile.Typing

/-!
# Compiling bodies

Statements and expressions are checked and turned into code in one walk. The code of an expression
leaves exactly one value on the operand stack, and that of a statement leaves none. Code is made in
fragments: each is told the position at which it will stand, so that its jumps can name their
targets at once. Code is made even where a mistake was found, so that one walk finds every mistake;
such code is never used.

An expression is also told the type it is wanted for. The type does not have to come out, but it
says what an empty array holds and what the parameters of a lambda are.
-/

namespace GuestScript.Compile

open Bytecode (Binding Import Op Visibility)
open Lowering
open Syntax

/-- Code for the value of an expression, and the type of the value. -/
structure Typed where
  code : List Op
  type : Ty

/-- An expression waiting for the type it is wanted for and the position of its code. -/
abbrev Pending := Option Ty → Nat → Lowering Typed

/-- Arguments waiting for the parameters they are for, the name of what is called, the number of the
first of them, what the open type was bound to so far, the code before them in reverse, and its
position. The result is the code of all and what the open type was bound to. -/
abbrev PendingArguments :=
  List Ty → String → Nat → Option Ty → List Op → Nat → Lowering (List Op × Option Ty)

/-- An expression that is no value: nothing but a mistake. -/
def noValue (code : Code) (message : String) (span : Span) : Lowering Typed := do
  pure ⟨[], ← mistake code message span⟩

/-- The names of a path with their separators. -/
def pathText (segments : List Identifier) : String :=
  "::".intercalate (segments.map Identifier.name)

/-- The receiver as a value. -/
def receiverValue (setting : Setting) (span : Span) : Lowering Typed :=
  match setting.receiver with
  | some slot => pure ⟨[.load slot], setting.ownerType⟩
  | none =>
      noValue .selfOutsideInstance "`self` is only available in instance methods" span

/-- The value of a path: that of a local variable, if it is a simple name. -/
def pathValue (segments : List Identifier) (span : Span) : Lowering Typed := do
  match segments with
  | [name] =>
      match ← lookup name.name with
      | some found => pure ⟨[.load found.slot], found.type⟩
      | none => noValue .unknownName ("unknown name `" ++ name.name ++ "`") name.span
  | _ => noValue .invalidOperation ("`" ++ pathText segments ++ "` is not a value") span

/-- The type that a wanted type asks the elements of an array to have. -/
def wantedElement : Option Ty → Option Ty
  | some (.array element) => some element
  | some (.seq element) => some element
  | _ => none

/-- The value of a field. -/
def fieldValue (setting : Setting) (target : Typed) (name : Identifier) : Lowering Typed := do
  match target.type with
  | .object fullName =>
      match fieldOf? setting.types fullName name.name with
      | some (position, type) => pure ⟨target.code ++ [.loadField position], type⟩
      | none =>
          let type ← mistake .unknownField
            ("type `" ++ fullName ++ "` has no field `" ++ name.name ++ "`") name.span
          pure ⟨target.code, type⟩
  | .poison => pure ⟨target.code, .poison⟩
  | other =>
      let type ← mistake .invalidOperation ("a value of type " ++ other.text ++ " has no fields")
        name.span
      pure ⟨target.code, type⟩

/-- The type that a value of this type counts as where it may be wanted for one. -/
def checkedType (wanted : Option Ty) (found : Ty) (span : Span) : Lowering Ty := do
  match wanted with
  | some wanted => do
      check wanted found span
      pure wanted
  | none => pure found

/-- The type of an item of a value of this type. -/
def itemType (target : Ty) (span : Span) : Lowering Ty :=
  match target with
  | .array element => pure element
  | .dyn => pure .dyn
  | .poison => pure .poison
  | other => mistake .invalidOperation ("cannot index a value of type " ++ other.text) span

/-- A new object. -/
def newObject (setting : Setting) (name : Identifier) : Lowering Typed :=
  let names := setting.types.map TypeInfo.name
  match TypeName.find? names name.name setting.ownerName.namespaceName with
  | some type => pure ⟨[.construct type], .object (fullNameOf setting.types type)⟩
  | none => noValue .unknownType ("unknown type `" ++ name.name ++ "`") name.span

/-- A unary operator applied to a value. -/
def unaryValue (operator : UnaryOperator) (operand : Typed) (span : Span) : Lowering Typed := do
  let wanted := unaryType operator
  let code := operand.code ++ [.unary operator]
  if wanted.admits operand.type then pure ⟨code, wanted⟩
  else
    let type ← mistake .invalidOperands
      ("`" ++ operator.symbol ++ "` cannot be applied to " ++ operand.type.text) span
    pure ⟨code, type⟩

/-- Report operands that an operator does not work on. -/
def badOperands (operator : BinaryOperator) (left right : Ty) (span : Span) : Lowering Ty :=
  mistake .invalidOperands
    ("`" ++ operator.symbol ++ "` cannot be applied to " ++ left.text ++ " and " ++ right.text) span

/-- A binary operator whose right operand is evaluated only if the left one does not decide. -/
def shortCircuit (operator : BinaryOperator) (code : List Op) (left right : Ty) (span : Span) :
    Lowering Typed := do
  if Ty.bool.admits left && Ty.bool.admits right then pure ⟨code, .bool⟩
  else pure ⟨code, ← badOperands operator left right span⟩

/-- A conjunction: where the left operand is false, that is the value. -/
def conjunction (left right : Pending) (span : Span) (start : Nat) : Lowering Typed := do
  let first ← left (some .bool) start
  let second ← right (some .bool) (start + first.code.length + 1)
  let otherwise := start + first.code.length + second.code.length + 2
  let code := first.code ++ [.jumpUnless otherwise] ++ second.code
    ++ [.jump (otherwise + 1), .push (.bool false)]
  shortCircuit .and code first.type second.type span

/-- A disjunction: where the left operand is true, that is the value. -/
def disjunction (left right : Pending) (span : Span) (start : Nat) : Lowering Typed := do
  let first ← left (some .bool) start
  let otherwise := start + first.code.length + 3
  let second ← right (some .bool) otherwise
  let code := first.code
    ++ [.jumpUnless otherwise, .push (.bool true), .jump (otherwise + second.code.length)]
    ++ second.code
  shortCircuit .or code first.type second.type span

/-- A binary operator whose operands are always evaluated both. -/
def strictOperator (operator : BinaryOperator) (code : List Op) (left right : Ty) (span : Span) :
    Lowering Typed := do
  match binaryType? operator left right with
  | some type => pure ⟨code, type⟩
  | none => pure ⟨code, ← badOperands operator left right span⟩

/-- A binary operator that evaluates the left operand and then the right one. -/
def strictBinary (operator : BinaryOperator) (left right : Pending) (span : Span) (start : Nat) :
    Lowering Typed := do
  let first ← left none start
  let second ← right none (start + first.code.length)
  let code := first.code ++ second.code ++ [.binary operator]
  strictOperator operator code first.type second.type span

/-- A binary operator. -/
def binaryValue (operator : BinaryOperator) (left right : Pending) (span : Span) (start : Nat) :
    Lowering Typed :=
  match operator with
  | .and => conjunction left right span start
  | .or => disjunction left right span start
  | strict => strictBinary strict left right span start

/-! ## Calls -/

/-- Report an argument that is not accepted for its parameter. -/
def checkArgument (accepted : Bool) (number : Nat) (callee : String) (wanted found : Ty)
    (span : Span) : Lowering Unit := do
  if !accepted then
    report .typeMismatch
      (s!"argument {number} of `" ++ callee ++ "`: expected " ++ wanted.text ++ ", found "
        ++ found.text) span

/-- Arguments behind some code, checked against the parameters of what is called. -/
def checkedArguments (arguments : PendingArguments) (count : Nat) (parameters : List Ty)
    (callee : String) (span : Span) (before : List Op) (start : Nat) :
    Lowering (List Op × Option Ty) := do
  if parameters.length ≠ count then
    report .argumentCount
      ("`" ++ callee ++ s!"` takes {parameters.length} arguments but {count} were supplied") span
  arguments parameters callee 1 none before.reverse (start + before.length)

/-- Arguments behind some code, where there is nothing to check them against. -/
def uncheckedArguments (arguments : PendingArguments) (before : List Op) (start : Nat) :
    Lowering (List Op) := do
  pure (← arguments [] "" 1 none before.reverse (start + before.length)).1

/-- A call that is a mistake; its arguments are compiled for the mistakes in them. -/
def badCall (arguments : PendingArguments) (before : List Op) (start : Nat) (code : Code)
    (message : String) (span : Span) : Lowering Typed := do
  let emitted ← uncheckedArguments arguments before start
  pure ⟨emitted, ← mistake code message span⟩

/-- A call of a value, whose code comes first. -/
def callValue (callee : Typed) (arguments : PendingArguments) (count : Nat) (what : String)
    (span : Span) (start : Nat) : Lowering Typed := do
  match callee.type with
  | .function parameters result =>
      let (code, _) ← checkedArguments arguments count parameters what span callee.code start
      pure ⟨code ++ [.callClosure count], result⟩
  | .dyn =>
      let code ← uncheckedArguments arguments callee.code start
      pure ⟨code ++ [.callClosure count], .dyn⟩
  | .poison =>
      let code ← uncheckedArguments arguments callee.code start
      pure ⟨code, .poison⟩
  | other =>
      badCall arguments callee.code start .invalidOperation
        ("`" ++ what ++ "` has type " ++ other.text ++ " and cannot be called") span

/-- The code of the receiver of a call without a target. -/
def implicitReceiver (setting : Setting) (method : MethodInfo) (span : Span) :
    Lowering (List Op) := do
  if method.isStatic then pure []
  else
    match setting.receiver with
    | some slot => pure [.load slot]
    | none =>
        report .selfOutsideInstance
          ("instance method `" ++ method.name ++ "` called without an instance") span
        pure []

/-- A call of a declared function, behind the code of its receiver. -/
def callMethod (method : MethodInfo) (receiver : List Op) (arguments : PendingArguments)
    (count : Nat) (span : Span) (start : Nat) : Lowering Typed := do
  let (code, _) ←
    checkedArguments arguments count method.parameters method.name span receiver start
  let taken := if method.isStatic then count else count + 1
  pure ⟨code ++ [.call method.routine taken], method.result⟩

/-- Report a call of a function that only its own type may call. -/
def checkVisible (setting : Setting) (type : Bytecode.TypeIndex) (method : MethodInfo)
    (span : Span) : Lowering Unit := do
  if type ≠ setting.owner && !method.isPublic then
    report .invalidOperation
      ("`" ++ method.name ++ "` of `" ++ fullNameOf setting.types type ++ "` is private") span

/-- A call of a simple name: of a local variable, or of a function of the same type. -/
def callName (setting : Setting) (name : Identifier) (arguments : PendingArguments) (count : Nat)
    (span : Span) (start : Nat) : Lowering Typed := do
  match ← lookup name.name with
  | some found =>
      callValue ⟨[.load found.slot], found.type⟩ arguments count name.name span start
  | none =>
      match methodOf? setting.types setting.owner name.name with
      | some method =>
          let receiver ← implicitReceiver setting method span
          callMethod method receiver arguments count span start
      | none =>
          badCall arguments [] start .unknownFunction ("unknown function `" ++ name.name ++ "`")
            name.span

/-- A call of a function of a named type. -/
def callStatic (setting : Setting) (type : Bytecode.TypeIndex) (path : String)
    (function : Identifier) (arguments : PendingArguments) (count : Nat) (span : Span)
    (start : Nat) : Lowering Typed := do
  match methodOf? setting.types type function.name with
  | some method =>
      if method.isStatic then
        checkVisible setting type method span
        callMethod method [] arguments count span start
      else
        badCall arguments [] start .invalidOperation
          ("`" ++ path ++ "` is an instance method; call it on an instance") span
  | none =>
      badCall arguments [] start .unknownFunction ("unknown function `" ++ path ++ "`")
        function.span

/-- A call of a host function. -/
def callHostFunction (binding : ModuleBinding) (path : String) (function : Identifier)
    (arguments : PendingArguments) (count : Nat) (span : Span) (start : Nat) :
    Lowering Typed := do
  match binding.host.function? function.name with
  | some host =>
      let (code, bound) ← checkedArguments arguments count host.parameters path span [] start
      let imported : Import :=
        ⟨binding.name, binding.version.major, binding.version.minor, function.name⟩
      let index ← onDraft (Draft.importIndex imported)
      pure ⟨code ++ [.callHost index count], host.result.substitute bound⟩
  | none =>
      badCall arguments [] start .unknownFunction ("unknown function `" ++ path ++ "`")
        function.span

/-- A call of a function of a named type or of a host module. A type of that name wins. -/
def callPath (setting : Setting) (qualifier function : Identifier) (arguments : PendingArguments)
    (count : Nat) (span : Span) (start : Nat) : Lowering Typed :=
  let path := qualifier.name ++ "::" ++ function.name
  let names := setting.types.map TypeInfo.name
  match TypeName.find? names qualifier.name setting.ownerName.namespaceName with
  | some type => callStatic setting type path function arguments count span start
  | none =>
      match setting.references.lookup? qualifier.name with
      | some binding => callHostFunction binding path function arguments count span start
      | none =>
          badCall arguments [] start .unresolvedModule
            ("unresolved module `" ++ qualifier.name ++ "` in call to `" ++ path ++ "`")
            qualifier.span

/-- A call of something written as a path. -/
def callNamed (setting : Setting) (segments : List Identifier) (calleeSpan : Span)
    (arguments : PendingArguments) (count : Nat) (span : Span) (start : Nat) : Lowering Typed :=
  match segments with
  | [name] => callName setting name arguments count span start
  | [qualifier, function] => callPath setting qualifier function arguments count span start
  | _ =>
      badCall arguments [] start .invalidOperation ("cannot call `" ++ pathText segments ++ "`")
        calleeSpan

/-- A call of a method on a target, whose code comes first. -/
def callOnTarget (setting : Setting) (target : Typed) (method : Identifier)
    (arguments : PendingArguments) (count : Nat) (span : Span) (start : Nat) :
    Lowering Typed := do
  match target.type with
  | .object fullName =>
      let found : Option (Bytecode.TypeIndex × MethodInfo) := do
        let type ← typeNamed? setting.types fullName
        pure (type, ← methodOf? setting.types type method.name)
      match found with
      | some (type, info) =>
          if info.isStatic then
            badCall arguments target.code start .invalidOperation
              ("`" ++ method.name ++ "` is static; call it as `" ++ fullName ++ "::" ++ method.name
                ++ "(..)`") method.span
          else
            checkVisible setting type info span
            callMethod info target.code arguments count span start
      | none =>
          badCall arguments target.code start .unknownMethod
            ("type `" ++ fullName ++ "` has no method `" ++ method.name ++ "`") method.span
  | .poison =>
      let code ← uncheckedArguments arguments target.code start
      pure ⟨code, .poison⟩
  | other =>
      badCall arguments target.code start .unknownMethod
        ("type " ++ other.text ++ " has no method `" ++ method.name ++ "`") method.span

/-! ## Lambdas -/

/-- A local variable of the surroundings that a lambda copies: its name, its slot there, its
type. -/
structure Capture where
  name : String
  slot : Nat
  type : Ty

/-- The locals that a lambda copies, given the names it mentions. A parameter hides what has its
name, and mentioning a local is a use of it. -/
def capturesOf (setting : Setting) (parameters : List Identifier) :
    List String → Lowering (List Capture)
  | [] => pure []
  | name :: rest => do
      let found ←
        if name = Mentions.receiverName then
          pure (setting.receiver.map fun slot ↦ ⟨name, slot, setting.ownerType⟩)
        else if parameters.any fun parameter ↦ parameter.name = name then pure none
        else do
          match ← lookup name with
          | some found => pure (some ⟨name, found.slot, found.type⟩)
          | none => pure none
      let others ← capturesOf setting parameters rest
      match found with
      | some (capture : Capture) => pure (capture :: others)
      | none => pure others

/-- The types of the parameters of a lambda and of its result, by the type it is wanted for. -/
def lambdaSignature (count : Nat) : Option Ty → List Ty × Ty
  | some (.function parameters result) =>
      if parameters.length = count then (parameters, result)
      else (List.replicate count .dyn, .dyn)
  | _ => (List.replicate count .dyn, .dyn)

/-- The code at the end of every routine, for a body that ends without returning. -/
def epilogue : List Op :=
  [.push .unit, .ret]

/-- Bring the copies of captured locals into scope. -/
def declareCaptures : List Capture → Lowering Unit
  | [] => pure ()
  | capture :: rest => do
      let _ ← declareLocal capture.name capture.type none
      declareCaptures rest

/-- Bring parameters into scope. -/
def declareParameters : List (Identifier × Ty) → Lowering Unit
  | [] => pure ()
  | (name, type) :: rest => do
      declareParameter name type
      declareParameters rest

/-- Compile the inside of a lambda: its captures and parameters come first. -/
def lambdaInside (captures : List Capture) (parameters : List (Identifier × Ty))
    (body : Lowering Typed) : Lowering Typed := do
  declareCaptures captures
  declareParameters parameters
  body

/-- The setting inside a lambda that copies these locals. -/
def Setting.inside (setting : Setting) (number : Nat) (captures : List Capture) (result : Ty) :
    Setting :=
  { setting with
    routineName := setting.routineName ++ s!"$lambda{number}"
    receiver := captures.findIdx? fun capture ↦ capture.name = Mentions.receiverName
    result }

/-- The routine of a lambda that takes so many copies and parameters, without its code. -/
def closureRoutine (inner : Setting) (copies parameters : Nat) : Bytecode.Routine :=
  { name := inner.routineName
    owner := some inner.owner
    visibility := .owner
    binding := .closure copies
    arity := copies + parameters
    locals := copies + parameters
    code := #[] }

/-- A lambda that copies these locals: a routine of its own, and code that makes a closure of it.
The inside is told the setting and the result type. -/
def closureValue (setting : Setting) (parameters : List Identifier) (captures : List Capture)
    (inside : Setting → Lowering Typed) (expected : Option Ty) : Lowering Typed := do
  let (types, result) := lambdaSignature parameters.length expected
  let number ← onDraft Draft.nextLambda
  let inner := setting.inside number captures result
  let (index, body) ← onDraft <|
    addRoutine (closureRoutine inner captures.length parameters.length)
      (fun body ↦ body.code ++ epilogue)
      (lambdaInside captures (parameters.zip types) (inside inner))
  let loads := captures.map fun capture ↦ Op.load capture.slot
  pure ⟨loads ++ [.makeClosure index captures.length], .function types body.type⟩

/-- A lambda, given the names that it mentions. -/
def lambdaValue (setting : Setting) (parameters : List Identifier) (mentioned : List String)
    (inside : Setting → Lowering Typed) (expected : Option Ty) : Lowering Typed := do
  let captures ← capturesOf setting parameters mentioned
  closureValue setting parameters captures inside expected

/-! ## Statements -/

/-- The code that stores the value of a `let`. -/
def declareValue (name : Identifier) (declared : Option Ty) (value : Typed) (span : Span) :
    Lowering (List Op) := do
  let type ← checkedType declared value.type span
  let slot ← declareLocal name.name type (some name.span)
  pure (value.code ++ [.store slot])

/-- An assignment to a local variable. -/
def assignVariable (name : Identifier) (value : Pending) (span : Span) (start : Nat) :
    Lowering (List Op) := do
  match ← lookupTarget name.name with
  | some found =>
      let typed ← value (some found.type) start
      check found.type typed.type span
      pure (typed.code ++ [.store found.slot])
  | none =>
      report .unknownName ("unknown name `" ++ name.name ++ "`") name.span
      pure (← value none start).code

/-- An assignment to a field of the receiver. -/
def assignField (setting : Setting) (name : Identifier) (value : Pending) (valueSpan span : Span)
    (start : Nat) : Lowering (List Op) := do
  match setting.receiver with
  | none =>
      report .selfOutsideInstance "fields can only be assigned in instance methods" span
      pure (← value none start).code
  | some slot =>
      match fieldOf? setting.types setting.ownerName.full name.name with
      | none =>
          report .unknownField
            ("type `" ++ setting.ownerName.full ++ "` has no field `" ++ name.name ++ "`") name.span
          pure (← value none start).code
      | some (position, type) =>
          let typed ← value (some type) (start + 1)
          check type typed.type valueSpan
          pure ([.load slot] ++ typed.code ++ [.storeField position])

/-- The type of the elements that a loop over a value of this type visits. -/
def elementType (iterated : Ty) (span : Span) : Lowering Ty :=
  match iterated.element? with
  | some element => pure element
  | none =>
      mistake .invalidOperation ("cannot iterate over a value of type " ++ iterated.text) span

/-- The loop over the elements of a value, whose code comes first. The loop keeps its cursor in a
hidden slot. -/
def loopOver (binding : Identifier) (element : Ty) (iterated : List Op)
    (body : Nat → Lowering (List Op)) (start : Nat) : Lowering (List Op) := do
  let cursor ← allocate
  openScope
  let slot ← declareLocal binding.name element none
  let head := start + iterated.length + 2
  let inside ← body (head + 2)
  closeScope
  let after := head + inside.length + 3
  pure (iterated ++ [.iterStart, .store cursor, .iterNext cursor after, .store slot] ++ inside
    ++ [.jump head])

/-- A loop over the elements of a value. -/
def forEachLoop (binding : Identifier) (iterable : Pending) (iterableSpan : Span)
    (body : Nat → Lowering (List Op)) (start : Nat) : Lowering (List Op) := do
  let typed ← iterable none start
  let element ← elementType typed.type iterableSpan
  loopOver binding element typed.code body start

/-- A condition, which has to be a truth value. -/
def condition (value : Pending) (span : Span) (start : Nat) : Lowering (List Op) := do
  let typed ← value (some .bool) start
  check .bool typed.type span
  pure typed.code

/-- A loop that goes on while a condition is true. -/
def whileTrue (test : Nat → Lowering (List Op)) (body : Nat → Lowering (List Op)) (start : Nat) :
    Lowering (List Op) := do
  let tested ← test start
  let inside ← body (start + tested.length + 1)
  let after := start + tested.length + inside.length + 2
  pure (tested ++ [.jumpUnless after] ++ inside ++ [.jump start])

/-- A conditional without an alternative. -/
def ifTrue (test : Nat → Lowering (List Op)) (body : Nat → Lowering (List Op)) (start : Nat) :
    Lowering (List Op) := do
  let tested ← test start
  let inside ← body (start + tested.length + 1)
  pure (tested ++ [.jumpUnless (start + tested.length + inside.length + 1)] ++ inside)

/-- A conditional with an alternative. -/
def ifElse (test : Nat → Lowering (List Op)) (body alternative : Nat → Lowering (List Op))
    (start : Nat) : Lowering (List Op) := do
  let tested ← test start
  let inside ← body (start + tested.length + 1)
  let otherwise := start + tested.length + inside.length + 2
  let instead ← alternative otherwise
  pure (tested ++ [.jumpUnless otherwise] ++ inside ++ [.jump (otherwise + instead.length)]
    ++ instead)

/-- The end of a routine without a value. -/
def returnNothing (setting : Setting) (span : Span) : Lowering (List Op) := do
  if !returnsNothing setting.result then
    report .typeMismatch ("expected a value of type " ++ setting.result.text) span
  pure [.push .unit, .ret]

/-- The end of a routine with a value. -/
def returnValue (setting : Setting) (value : Pending) (span : Span) (start : Nat) :
    Lowering (List Op) := do
  let typed ← value (some setting.result) start
  check setting.result typed.type span
  pure (typed.code ++ [.ret])

/-- A sequence that nobody enumerates is worth a warning. -/
def warnDiscarded (type : Ty) (span : Span) : Lowering Unit :=
  match type with
  | .seq _ =>
      onDraft (Draft.warn .discardedSequence
        "sequence is discarded without being enumerated; its functions never run" span)
  | _ => pure ()

/-- An expression whose value is not used. -/
def discard (value : Pending) (span : Span) (start : Nat) : Lowering (List Op) := do
  let typed ← value none start
  warnDiscarded typed.type span
  pure (typed.code ++ [.pop])

/-! ## The walk -/

mutual

/-- The code of an expression. -/
def expression (setting : Setting) : Expression → Pending
  | .int value _, _, _ => pure ⟨[.push (.int value)], .int⟩
  | .str value _, _, _ => pure ⟨[.push (.str value)], .str⟩
  | .bool value _, _, _ => pure ⟨[.push (.bool value)], .bool⟩
  | .array values _, expected, start => do
      let (code, element) ← items setting values (wantedElement expected) [] start
      pure ⟨code ++ [.makeArray values.length], .array (element.getD .dyn)⟩
  | .receiver span, _, _ => receiverValue setting span
  | .path segments span, _, _ => pathValue segments span
  | .call callee values span, _, start =>
      match callee with
      | .path segments calleeSpan =>
          callNamed setting segments calleeSpan (arguments setting values) values.length span start
      | other => do
          let typed ← expression setting other none start
          callValue typed (arguments setting values) values.length "expression" span start
  | .method target name values span, _, start => do
      let typed ← expression setting target none start
      callOnTarget setting typed name (arguments setting values) values.length span start
  | .field target name _, _, start => do
      let typed ← expression setting target none start
      fieldValue setting typed name
  | .element target index _, _, start => do
      let typed ← expression setting target none start
      let position ← expression setting index (some .int) (start + typed.code.length)
      check .int position.type index.span
      let type ← itemType typed.type target.span
      pure ⟨typed.code ++ position.code ++ [.index], type⟩
  | .construct name _, _, _ => newObject setting name
  | .lambda parameters body _, expected, _ =>
      lambdaValue setting parameters (Mentions.inLambda [] body)
        (fun inner ↦ lambdaBody inner body) expected
  | .unary operator operand span, _, start => do
      let typed ← expression setting operand (some (unaryType operator)) start
      unaryValue operator typed span
  | .binary operator left right span, _, start =>
      binaryValue operator (expression setting left) (expression setting right) span start

/-- The code of the items of an array behind other code, which comes in reverse, and the type of
the items. Where no type is wanted, the first item decides. -/
def items (setting : Setting) :
    List Expression → Option Ty → List Op → Nat → Lowering (List Op × Option Ty)
  | [], element, before, _ => pure (before.reverse, element)
  | item :: rest, element, before, start => do
      let typed ← expression setting item element start
      let element ← checkedType element typed.type item.span
      items setting rest (some element) (typed.code.reverse ++ before)
        (start + typed.code.length)

/-- The code of arguments. One that has no parameter is compiled for the mistakes in it. -/
def arguments (setting : Setting) : List Expression → PendingArguments
  | [], _, _, _, bound, before, _ => pure (before.reverse, bound)
  | argument :: rest, [], callee, number, bound, before, start => do
      let typed ← expression setting argument none start
      arguments setting rest [] callee (number + 1) bound (typed.code.reverse ++ before)
        (start + typed.code.length)
  | argument :: rest, wanted :: others, callee, number, bound, before, start => do
      let typed ← expression setting argument (some (wanted.substitute bound)) start
      let (accepted, bound) := wanted.accepts typed.type bound
      checkArgument accepted number callee (wanted.substitute bound) typed.type argument.span
      arguments setting rest others callee (number + 1) bound (typed.code.reverse ++ before)
        (start + typed.code.length)

/-- The code of the body of a lambda, and the type of its result. -/
def lambdaBody (setting : Setting) : LambdaBody → Lowering Typed
  | .expression value => do
      let typed ← expression setting value (some setting.result) 0
      check setting.result typed.type value.span
      let type := if setting.result.isDyn then typed.type else setting.result
      pure ⟨typed.code ++ [.ret], type⟩
  | .block body => do
      pure ⟨← block setting body 0, setting.result⟩

/-- The code of a block. -/
def block (setting : Setting) : Block → Nat → Lowering (List Op)
  | .mk body _, start => do
      openScope
      let code ← statements setting body [] start
      closeScope
      pure code

/-- The code of statements behind other code, which comes in reverse. -/
def statements (setting : Setting) : List Statement → List Op → Nat → Lowering (List Op)
  | [], before, _ => pure before.reverse
  | first :: rest, before, start => do
      let code ← statement setting first start
      statements setting rest (code.reverse ++ before) (start + code.length)

/-- The code of a statement. -/
def statement (setting : Setting) : Statement → Nat → Lowering (List Op)
  | .declare name type value _, start => do
      let declared ← match type with
        | some written => do pure (some (← resolve setting written))
        | none => pure none
      let typed ← expression setting value declared start
      declareValue name declared typed value.span
  | .assign (.binding name) value _, start =>
      assignVariable name (expression setting value) value.span start
  | .assign (.field name) value span, start =>
      assignField setting name (expression setting value) value.span span start
  | .forEach binding iterable body _, start =>
      forEachLoop binding (expression setting iterable) iterable.span (block setting body) start
  | .whileLoop test body _, start =>
      whileTrue (condition (expression setting test) test.span) (block setting body) start
  | .conditional test body .absent _, start =>
      ifTrue (condition (expression setting test) test.span) (block setting body) start
  | .conditional test body other _, start =>
      ifElse (condition (expression setting test) test.span) (block setting body)
        (alternative setting other) start
  | .returns none span, _ => returnNothing setting span
  | .returns (some value) _, start =>
      returnValue setting (expression setting value) value.span start
  | .evaluate value, start => discard (expression setting value) value.span start

/-- The code of an alternative. -/
def alternative (setting : Setting) : Alternative → Nat → Lowering (List Op)
  | .absent, _ => pure []
  | .block body, start => block setting body start
  | .chain conditional, start => statement setting conditional start

end

end GuestScript.Compile
