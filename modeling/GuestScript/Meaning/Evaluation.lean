import GuestScript.Machine.Step
import GuestScript.Meaning.Static

/-!
# What programs do

The meaning of a program, read off its syntax tree. Variables live in an environment that grows with
the scopes of the text. Operands are evaluated from left to right, `&&` and `||` only as far as
needed. A lambda copies what it mentions when it is evaluated, and each call of it works on fresh
copies. A loop visits the elements of an array, or those of a sequence once it has been enumerated.
A field is found at its position in the static type of the object. A body that ends without
returning gives unit. Calls of functions, of lambdas and of what gives fields their first values
count against the limit of active calls.

A program need not end, so evaluation has fuel: one unit for each call inside another and for each
turn of a loop. There is no answer if it is used up, and none where the text has a mistake.
-/

namespace GuestScript.Meaning

open Bytecode (TypeIndex)
open Compile
open Machine (ClosureOver Fault Mismatch Reference ReplyOver StageOver ValueOver WorldOver)
open Syntax

/-- What a closure runs: a lambda, with what is settled where it stands. -/
structure Lambda where
  site : Site
  name : String
  number : Nat
  copies : List (Variable Unit)
  parameters : List (Variable Unit)
  body : LambdaBody

/-- A value, whose closures run lambdas. -/
abbrev Datum := ValueOver Lambda

/-- The variables in scope with their values. -/
abbrev Environment := Scope Datum

/-- Something that may change the world and gives a result or ends with a fault, or has no
answer. -/
abbrev Evaluation (Result : Type) :=
  ExceptT Fault (StateT (WorldOver Lambda) Option) Result

/-- What can be called. -/
inductive Callee where
  | function (owner : TypeIndex) (method : MethodInfo)
  | initializer (type : TypeIndex)
  | lambda (code : Lambda)

/-- A way to call something. -/
abbrev Caller := Callee → List Datum → Evaluation Datum

namespace Evaluation

/-- No answer. -/
def unanswered {Result : Type} : Evaluation Result := fun _ ↦ none

/-- Something that is settled without looking at the world. -/
def settled {Result : Type} (outcome : Except Fault Result) : Evaluation Result := fun world ↦
  some (outcome, world)

/-- Take a conversion. -/
def converted {Result : Type} (conversion : Except Mismatch Result) : Evaluation Result :=
  settled (Machine.orMismatch conversion)

/-- Make something in the world. -/
def making {Result : Type} (make : WorldOver Lambda → Result × WorldOver Lambda) :
    Evaluation Result := fun world ↦
  let (result, after) := make world
  some (.ok result, after)

end Evaluation

open Evaluation

/-! ## Values at work -/

/-- Call a closure. What it copied comes before its arguments. -/
def callClosure (call : Caller) (closure : ClosureOver Lambda) (arguments : List Datum) :
    Evaluation Datum :=
  call (.lambda closure.code) (closure.captures ++ arguments)

/-- Call a value, which has to be a closure. -/
def callDatum (call : Caller) (callee : Datum) (arguments : List Datum) : Evaluation Datum := do
  callClosure call (← converted callee.toClosure) arguments

/-- Run a stage of a sequence over elements, one after the other. -/
def runStage (call : Caller) (stage : StageOver Lambda) : List Datum → Evaluation (List Datum)
  | [] => pure []
  | element :: rest => do
      let answer ← callClosure call stage.closure [element]
      let kept ← match stage with
        | .map _ => pure [answer]
        | .filter _ => do
            pure (if ← converted answer.toBool then [element] else [])
      pure (kept ++ (← runStage call stage rest))

/-- Run the stages of a sequence over its elements. -/
def runStages (call : Caller) : List (StageOver Lambda) → List Datum → Evaluation (List Datum)
  | [], elements => pure elements
  | stage :: later, elements => do
      runStages call later (← runStage call stage elements)

/-- The elements that a loop over a value visits. -/
def elementsOf (call : Caller) (iterable : Datum) : Evaluation (List Datum) :=
  match iterable with
  | .array items => pure items
  | .seq _ source stages => runStages call stages source
  | other => settled (.error (.notIterable other.kind))

/-- Go on as the reply of a host function says. -/
def answerReply (call : Caller) (name : String) : ReplyOver Lambda → Evaluation Datum
  | .value value world => fun _ ↦ some (.ok value, world)
  | .refuse error => settled (.error (.host name error))
  | .fault fault => settled (.error fault)
  | .enumerate source stages goal => do
      pure (goal.deliver (← runStages call stages source))

/-- Call a host function. -/
def callHost (call : Caller) (name : String) (action : HostAction) (arguments : List Datum) :
    Evaluation Datum := fun world ↦
  answerReply call name (action.reply arguments world) world

/-- The value of a field of an object. -/
def readField (target : Datum) (field : Nat) : Evaluation Datum := fun world ↦
  some (world.readField target field, world)

/-- Give a field of an object another value. -/
def writeField (target : Datum) (field : Nat) (value : Datum) : Evaluation Unit := fun world ↦
  match world.writeField target field value with
  | .ok after => some (.ok (), after)
  | .error fault => some (.error fault, world)

/-- Make an object and give its fields their first values. -/
def construct (call : Caller) (types : List TypeInfo) (type : TypeIndex) : Evaluation Datum := do
  match types[type]? with
  | none => unanswered
  | some info =>
      let reference ← making fun world ↦
        world.allocate type info.name.full (info.fields.map fun _ ↦ .unit)
      if !info.fields.isEmpty then
        let _ ← call (.initializer type) [.object reference]
      pure (.object reference)

/-! ## Bodies -/

/-- Where a body finds the instance that it works on: there is none, it is what the function was
called on, or it is among the copies of a lambda. -/
inductive Receiver where
  | absent
  | given (value : Datum)
  | copied

/-- The instance that a body works on. -/
def Receiver.find? (receiver : Receiver) (environment : Environment) : Option Datum :=
  match receiver with
  | .absent => none
  | .given value => some value
  | .copied => (environment.oldest? Mentions.receiverName).map Variable.holder

/-- What stays the same while a body is evaluated. -/
structure Context where
  site : Site
  name : String
  receiver : Receiver
  call : Caller
  fuel : Nat

/-- How a statement ends: the next one follows, or the body has been left with a value. -/
inductive Flow where
  | next (environment : Environment)
  | left (value : Datum)

namespace Flow

/-- Forget the variables that an inner scope has added to an environment of this size. -/
def leaveScope (size : Nat) : Flow → Flow
  | .next environment => .next (environment.drop (environment.length - size))
  | .left value => .left value

/-- What a body that ends like this gives. -/
def answer : Flow → Datum
  | .next _ => .unit
  | .left value => value

end Flow

/-- Give the newest variable of a name another value. -/
def assign (name : String) (value : Datum) : Environment → Environment
  | [] => []
  | first :: rest =>
      if first.name = name then { first with holder := value } :: rest
      else first :: assign name value rest

/-- Visit elements one after the other, with each of them in a variable of its own. -/
def visit (binding : String) (type : Ty) (body : Environment → Evaluation Flow) :
    List Datum → Environment → Evaluation Flow
  | [], environment => pure (.next environment)
  | element :: rest, environment => do
      match (← body (⟨binding, type, element⟩ :: environment)).leaveScope environment.length with
      | .next environment => visit binding type body rest environment
      | .left value => pure (.left value)

/-- Go on as long as a condition is true. -/
def repeatWhile (test : Environment → Evaluation Datum) (body : Environment → Evaluation Flow) :
    Nat → Environment → Evaluation Flow
  | 0, _ => unanswered
  | fuel + 1, environment => do
      if ← converted (← test environment).toBool then
        match ← body environment with
        | .next environment => repeatWhile test body fuel environment
        | .left value => pure (.left value)
      else pure (.next environment)

/-- Call a function of a type: without an instance, or on the one that comes first. -/
def callFunction (context : Context) (environment : Environment) (owner : TypeIndex)
    (method : MethodInfo) (arguments : Evaluation (List Datum)) : Evaluation Datum := do
  if method.isStatic then context.call (.function owner method) (← arguments)
  else
    match context.receiver.find? environment with
    | some receiver => do context.call (.function owner method) (receiver :: (← arguments))
    | none => unanswered

/-- What the closure of a lambda runs. -/
def lambdaCode (site : Site) (routine : String) (number : Nat) (copies : Scope Unit)
    (parameters : List Identifier) (body : LambdaBody) (expected : Option Ty) : Lambda :=
  let (types, result) := lambdaSignature parameters.length expected
  { site := site.inLambda copies result
    name := lambdaName routine number
    number
    copies
    parameters := declared parameters types
    body }

/-- Make the closure of a lambda. The number is that of the lambdas before it. -/
def makeLambda (context : Context) (environment : Environment) (number : Nat)
    (parameters : List Identifier) (body : LambdaBody) (expected : Option Ty) :
    Evaluation Datum := do
  let copies := captures context.site.ownerType (context.receiver.find? environment) parameters
    environment body
  let code := lambdaCode context.site context.name (number + 1) (Scope.typing copies) parameters
    body expected
  let closure ← making fun world ↦ world.makeClosure code (copies.map Variable.holder)
  pure (.closure closure)

mutual

/-- The value of an expression, given the number of the lambdas before it and the type that it is
wanted for. -/
def expression (context : Context) (environment : Environment) (number : Nat) :
    Expression → Option Ty → Evaluation Datum
  | .int value _, _ => pure (.int value)
  | .str value _, _ => pure (.str value)
  | .bool value _, _ => pure (.bool value)
  | .array values _, expected => do
      pure (.array (← items context environment number values (wantedElement expected)))
  | .receiver _, _ =>
      match context.receiver.find? environment with
      | some receiver => pure receiver
      | none => unanswered
  | .path segments _, _ =>
      match segments with
      | [name] =>
          match environment.named? name.name with
          | some held => pure held.holder
          | none => unanswered
      | _ => unanswered
  | .call callee values _, _ =>
      match callee with
      | .path segments _ =>
          match callable? context.site environment segments with
          | some (.value held) => do
              callDatum context.call held.holder
                (← arguments context environment number values (calledParameters held.type) none)
          | some (.function owner method) =>
              callFunction context environment owner method
                (arguments context environment number values method.parameters none)
          | some (.host name function) => do
              callHost context.call name function.action
                (← arguments context environment number values function.parameters none)
          | none => unanswered
      | other => do
          let value ← expression context environment number other none
          let parameters := calledParameters (typeOf context.site environment.typing other none)
          callDatum context.call value
            (← arguments context environment (number + lambdasIn other) values parameters none)
  | .method target name values _, _ => do
      let value ← expression context environment number target none
      match methodOn? context.site.types (typeOf context.site environment.typing target none)
          name.name with
      | some (owner, method) => do
          let values ← arguments context environment (number + lambdasIn target) values
            method.parameters none
          context.call (.function owner method) (value :: values)
      | none => unanswered
  | .field target name _, _ => do
      let value ← expression context environment number target none
      match fieldOn? context.site.types (typeOf context.site environment.typing target none)
          name.name with
      | some (position, _) => readField value position
      | none => unanswered
  | .element target index _, _ => do
      let array ← expression context environment number target none
      let position ← expression context environment (number + lambdasIn target) index (some .int)
      settled (Machine.itemOf array position)
  | .construct name _, _ =>
      match context.site.typeNamed? name.name with
      | some type => construct context.call context.site.types type
      | none => unanswered
  | .lambda parameters body _, expected =>
      makeLambda context environment number parameters body expected
  | .unary operator operand _, _ => do
      let value ← expression context environment number operand (some (unaryType operator))
      settled (Machine.applyUnary operator value)
  | .binary operator left right _, _ =>
      match operator with
      | .and => do
          let first ← expression context environment number left (some .bool)
          if ← converted first.toBool then
            expression context environment (number + lambdasIn left) right (some .bool)
          else pure (.bool false)
      | .or => do
          let first ← expression context environment number left (some .bool)
          if ← converted first.toBool then pure (.bool true)
          else expression context environment (number + lambdasIn left) right (some .bool)
      | strict => do
          let first ← expression context environment number left none
          let second ← expression context environment (number + lambdasIn left) right none
          settled (Machine.applyBinary strict first second)

/-- The values of the items of an array, given the type that they are wanted for. Where there is
none, the first item decides. -/
def items (context : Context) (environment : Environment) (number : Nat) :
    List Expression → Option Ty → Evaluation (List Datum)
  | [], _ => pure []
  | item :: rest, wanted => do
      let value ← expression context environment number item wanted
      let wanted := wanted.getD (typeOf context.site environment.typing item none)
      pure (value
        :: (← items context environment (number + lambdasIn item) rest (some wanted)))

/-- The values of arguments, given the parameters that they are for and what the open type has been
bound to. -/
def arguments (context : Context) (environment : Environment) (number : Nat) :
    List Expression → List Ty → Option Ty → Evaluation (List Datum)
  | [], _, _ => pure []
  | argument :: rest, [], binding => do
      let value ← expression context environment number argument none
      pure (value
        :: (← arguments context environment (number + lambdasIn argument) rest [] binding))
  | argument :: rest, wanted :: others, binding => do
      let expected := some (wanted.substitute binding)
      let value ← expression context environment number argument expected
      let type := typeOf context.site environment.typing argument expected
      pure (value
        :: (← arguments context environment (number + lambdasIn argument) rest others
          (wanted.accepts type binding).2))

end

mutual

/-- Run a block in a scope of its own. -/
def block (context : Context) (environment : Environment) (number : Nat) :
    Block → Evaluation Flow
  | .mk body _ => do
      pure ((← statements context environment number body).leaveScope environment.length)

/-- Run statements until the body is left. -/
def statements (context : Context) (environment : Environment) (number : Nat) :
    List Statement → Evaluation Flow
  | [] => pure (.next environment)
  | first :: rest => do
      match ← statement context environment number first with
      | .next environment =>
          statements context environment (number + lambdasInStatement first) rest
      | .left value => pure (.left value)

/-- Run a statement. -/
def statement (context : Context) (environment : Environment) (number : Nat) :
    Statement → Evaluation Flow
  | .declare name written value _ => do
      let expected := written.map context.site.meant
      let type := expected.getD (typeOf context.site environment.typing value expected)
      let value ← expression context environment number value expected
      pure (.next (⟨name.name, type, value⟩ :: environment))
  | .assign (.binding name) value _ =>
      match environment.named? name.name with
      | some held => do
          let value ← expression context environment number value (some held.type)
          pure (.next (assign name.name value environment))
      | none => unanswered
  | .assign (.field name) value _ =>
      match context.receiver.find? environment,
          fieldOf? context.site.types context.site.ownerName.full name.name with
      | some receiver, some (position, type) => do
          let value ← expression context environment number value (some type)
          writeField receiver position value
          pure (.next environment)
      | _, _ => unanswered
  | .forEach binding iterable body _ => do
      let value ← expression context environment number iterable none
      let type := (typeOf context.site environment.typing iterable none).element?.getD .poison
      let elements ← elementsOf context.call value
      visit binding.name type
        (fun environment ↦ block context environment (number + lambdasIn iterable) body)
        elements environment
  | .whileLoop test body _ =>
      repeatWhile
        (fun environment ↦ expression context environment number test (some .bool))
        (fun environment ↦ block context environment (number + lambdasIn test) body)
        context.fuel environment
  | .conditional test body other _ => do
      let value ← expression context environment number test (some .bool)
      if ← converted value.toBool then
        block context environment (number + lambdasIn test) body
      else
        alternative context environment (number + lambdasIn test + lambdasInBlock body) other
  | .returns none _ => pure (.left .unit)
  | .returns (some value) _ => do
      pure (.left (← expression context environment number value (some context.site.result)))
  | .evaluate value => do
      let _ ← expression context environment number value none
      pure (.next environment)

/-- Run an alternative. -/
def alternative (context : Context) (environment : Environment) (number : Nat) :
    Alternative → Evaluation Flow
  | .absent => pure (.next environment)
  | .block body => block context environment number body
  | .chain conditional => statement context environment number conditional

end

/-! ## Calls -/

/-- Variables that hold these values. -/
def hold (binders : List (Variable Unit)) (values : List Datum) : Environment :=
  (binders.zip values).map fun (held, value) ↦ held.hold fun _ ↦ value

/-- What stays the same throughout the routines of a type. -/
def siteOf (references : ReferenceSet) (types : List TypeInfo) (owner : TypeIndex)
    (info : TypeInfo) : Site :=
  ⟨references, types, owner, info.name, false, .unit⟩

/-- The first value of a field without an expression for it. -/
def firstValue : Ty → Datum
  | .int => .int 0
  | .bool => .bool false
  | .str => .str ""
  | .array _ => .array []
  | _ => .unit

/-- Give fields their first values, from a position on. -/
def fillFields (context : Context) (object : Datum) (number : Nat) :
    List FieldInfo → Nat → Evaluation Unit
  | [], _ => pure ()
  | field :: rest, position => do
      let value ← match field.value with
        | some value => expression context [] number value (some field.type)
        | none => pure (firstValue field.type)
      writeField object position value
      fillFields context object (number + (field.value.map lambdasIn).getD 0) rest (position + 1)

/-- The name and the number of arguments of what is called. -/
def Callee.signature : Callee → String × Nat
  | .function _ method =>
      (method.declaration.name.name,
        method.parameters.length + if method.isStatic then 0 else 1)
  | .initializer _ => (initializerName, 1)
  | .lambda code => (code.name, code.copies.length + code.parameters.length)

/-- The body of a function on arguments, of which an instance is the first. -/
def functionBody (references : ReferenceSet) (types : List TypeInfo) (call : Caller) (fuel : Nat)
    (owner : TypeIndex) (method : MethodInfo) (arguments : List Datum) : Evaluation Datum := do
  match types[owner]? with
  | none => unanswered
  | some info =>
      let site := { siteOf references types owner info with
        hasReceiver := !method.isStatic, result := method.result }
      let (receiver, values) : Receiver × List Datum := match method.isStatic, arguments with
        | false, receiver :: values => (.given receiver, values)
        | _, values => (.absent, values)
      let names := method.declaration.parameters.map Syntax.Parameter.name
      let environment := (hold (declared names method.parameters) values).reverse
      let flow ← block ⟨site, method.name, receiver, call, fuel⟩ environment
        (lambdasBeforeMethod types owner method.name) method.declaration.body
      pure flow.answer

/-- What gives the fields of an object of a type their first values. -/
def initializerBody (references : ReferenceSet) (types : List TypeInfo) (call : Caller)
    (fuel : Nat) (type : TypeIndex) (arguments : List Datum) : Evaluation Datum := do
  match types[type]?, arguments with
  | some info, [object] =>
      let site := { siteOf references types type info with hasReceiver := true }
      fillFields ⟨site, initializerName, .given object, call, fuel⟩ object
        (lambdasBeforeFields types type) info.fields 0
      pure .unit
  | _, _ => unanswered

/-- The body of a lambda on what it copied and arguments. -/
def lambdaBody (call : Caller) (fuel : Nat) (code : Lambda) (arguments : List Datum) :
    Evaluation Datum := do
  let receiver : Receiver := if code.site.hasReceiver then .copied else .absent
  let context : Context := ⟨code.site, code.name, receiver, call, fuel⟩
  let environment := (hold (code.copies ++ code.parameters) arguments).reverse
  match code.body with
  | .expression value => expression context environment code.number value (some code.site.result)
  | .block body => do
      pure (← block context environment code.number body).answer

/-- The body of what is called. -/
def bodyOf (references : ReferenceSet) (types : List TypeInfo) (call : Caller) (fuel : Nat) :
    Callee → List Datum → Evaluation Datum
  | .function owner method => functionBody references types call fuel owner method
  | .initializer type => initializerBody references types call fuel type
  | .lambda code => lambdaBody call fuel code

/-- Call something while so many calls are active. -/
def invoke (references : ReferenceSet) (types : List TypeInfo) : Nat → Nat → Caller
  | 0, _, _, _ => unanswered
  | fuel + 1, active, callee, arguments =>
      let (name, arity) := callee.signature
      if arguments.length ≠ arity then
        settled (.error (.arity name arity arguments.length))
      else if Machine.maxCallDepth ≤ active then
        settled (.error (.tooDeep Machine.maxCallDepth))
      else
        bodyOf references types (invoke references types fuel (active + 1)) fuel callee arguments

/-! ## Programs -/

/-- The function that a program starts with, and its type. -/
def entryMethod? (types : List TypeInfo) : Option (TypeIndex × MethodInfo) :=
  match entryCandidates types with
  | [(info, method)] =>
      (Compile.typeNamed? types info.name.full).map fun owner ↦ (owner, method)
  | _ => none

/-- The types of a file. -/
def typesOf (references : ReferenceSet) (file : File) : List TypeInfo :=
  (declare references file .empty).1

/-- Run a program on its arguments: its entry, on a new object if it works on an instance. -/
def program (references : ReferenceSet) (file : File) (fuel : Nat) (arguments : List String) :
    Evaluation Datum := do
  let types := typesOf references file
  let call := invoke references types fuel 0
  let vector : Datum := .array (arguments.map .str)
  match entryMethod? types with
  | none => unanswered
  | some (owner, method) =>
      if method.isStatic then call (.function owner method) [vector]
      else do
        let object ← construct call types owner
        call (.function owner method) [object, vector]

end GuestScript.Meaning
