import GuestScript.Compile.Unit

/-!
# Host calls in a text

Which host functions the bodies of a program call, read off the text. A call of a path of two names
is one of a host function if no type goes by the first name, and a module that may be used has a
function of the second one. The calls are listed in the order in which the code makes them, the
arguments of a call before the call itself. The body of a lambda has code of its own, so the calls in
it are listed apart: those of the outermost lambda first.
-/

namespace GuestScript.Meaning

open Bytecode (Import RoutineIndex)
open Compile
open Syntax

/-- A call of a host function: the module that offers it, the function whose signature the arguments
are checked against, and the number of arguments. -/
structure HostCall where
  binding : ModuleBinding
  function : HostFunction
  count : Nat

/-- The import that a call needs: its function, in the version that the module has. -/
def HostCall.imported (call : HostCall) : Import :=
  ⟨call.binding.name, call.binding.version.major, call.binding.version.minor, call.function.name⟩

/-- A call is one of a function that may be used, and it has as many arguments as the function has
parameters. -/
structure HostCall.Suits (call : HostCall) (references : ReferenceSet) : Prop where
  known : references.lookup? call.binding.name = some call.binding
  member : call.binding.host.function? call.function.name = some call.function
  count : call.count = call.function.parameters.length

/-- The host calls in a part of a body: its own, and those of each lambda in it. -/
structure HostCalls where
  own : List HostCall
  lambdas : List (List HostCall)

namespace HostCalls

/-- No call. -/
def none : HostCalls := ⟨[], []⟩

/-- One call, if it is one of a host function. -/
def ofCall? (call : Option HostCall) : HostCalls := ⟨call.toList, []⟩

/-- The calls of two parts, one after the other. -/
def append (first second : HostCalls) : HostCalls :=
  ⟨first.own ++ second.own, first.lambdas ++ second.lambdas⟩

instance : Append HostCalls := ⟨append⟩

theorem append_none (calls : HostCalls) : calls ++ none = calls := by
  change mk (calls.own ++ []) (calls.lambdas ++ []) = calls
  rw [List.append_nil, List.append_nil]

/-- The calls in a lambda, seen from the body that it is in. -/
def enclosed (inside : HostCalls) : HostCalls :=
  ⟨[], inside.own :: inside.lambdas⟩

/-- The calls of every routine that the part belongs to or adds. -/
def all (calls : HostCalls) : List HostCall :=
  calls.own ++ calls.lambdas.flatten

end HostCalls

/-- What the names in a body are resolved with: the modules that may be used, the names of the types,
and the namespace that the body is in. -/
structure Naming where
  references : ReferenceSet
  types : List TypeName
  namespaceName : String

/-- The host call that calling a path is, if it is one. -/
def Naming.hostCall? (naming : Naming) (segments : List Identifier) (count : Nat) :
    Option HostCall :=
  match segments with
  | [qualifier, name] =>
      match TypeName.find? naming.types qualifier.name naming.namespaceName with
      | some _ => none
      | none =>
          match naming.references.lookup? qualifier.name with
          | some binding =>
              (binding.host.function? name.name).map fun function ↦ ⟨binding, function, count⟩
          | none => none
  | _ => none

/-- What names are resolved with in the setting of a body. -/
def namingOf (setting : Setting) : Naming :=
  ⟨setting.references, setting.types.map TypeInfo.name, setting.ownerName.namespaceName⟩

mutual

/-- The host calls in an expression. -/
def callsIn (naming : Naming) : Expression → HostCalls
  | .int .. | .str .. | .bool .. | .receiver _ | .path .. | .construct .. => .none
  | .array items _ => callsInAll naming items
  | .call callee arguments _ =>
      match callee with
      | .path segments _ =>
          callsInAll naming arguments ++ .ofCall? (naming.hostCall? segments arguments.length)
      | other => callsIn naming other ++ callsInAll naming arguments
  | .method target _ arguments _ => callsIn naming target ++ callsInAll naming arguments
  | .field target _ _ => callsIn naming target
  | .element target index _ => callsIn naming target ++ callsIn naming index
  | .lambda _ body _ => (callsInBody naming body).enclosed
  | .unary _ operand _ => callsIn naming operand
  | .binary _ left right _ => callsIn naming left ++ callsIn naming right

/-- The host calls in expressions. -/
def callsInAll (naming : Naming) : List Expression → HostCalls
  | [] => .none
  | first :: rest => callsIn naming first ++ callsInAll naming rest

/-- The host calls in the body of a lambda. -/
def callsInBody (naming : Naming) : LambdaBody → HostCalls
  | .expression value => callsIn naming value
  | .block body => callsInBlock naming body

/-- The host calls in a block. -/
def callsInBlock (naming : Naming) : Block → HostCalls
  | .mk statements _ => callsInStatements naming statements

/-- The host calls in statements. -/
def callsInStatements (naming : Naming) : List Statement → HostCalls
  | [] => .none
  | first :: rest => callsInStatement naming first ++ callsInStatements naming rest

/-- The host calls in a statement. -/
def callsInStatement (naming : Naming) : Statement → HostCalls
  | .declare _ _ value _ => callsIn naming value
  | .assign _ value _ => callsIn naming value
  | .forEach _ iterable body _ => callsIn naming iterable ++ callsInBlock naming body
  | .whileLoop test body _ => callsIn naming test ++ callsInBlock naming body
  | .conditional test body other _ =>
      callsIn naming test ++ (callsInBlock naming body ++ callsInAlternative naming other)
  | .returns none _ => .none
  | .returns (some value) _ => callsIn naming value
  | .evaluate value => callsIn naming value

/-- The host calls in an alternative. -/
def callsInAlternative (naming : Naming) : Alternative → HostCalls
  | .absent => .none
  | .block body => callsInBlock naming body
  | .chain conditional => callsInStatement naming conditional

end

/-- The host calls in the first values of fields. -/
def callsInFields (naming : Naming) : List FieldInfo → HostCalls
  | [] => .none
  | field :: rest =>
      (match field.value with
        | some value => callsIn naming value
        | none => .none) ++ callsInFields naming rest

/-- What the names in the bodies of a type are resolved with. -/
def namingIn (references : ReferenceSet) (types : List TypeInfo) (info : TypeInfo) : Naming :=
  ⟨references, types.map TypeInfo.name, info.name.namespaceName⟩

/-- The host calls of the routine that gives fields their first values, if there are fields. -/
def initializerCalls (naming : Naming) (fields : List FieldInfo) : HostCalls :=
  if fields.isEmpty then .none else (callsInFields naming fields).enclosed

/-- The host calls of the routines that are added for a type: the one for its fields, and the lambdas
in its fields and functions. -/
def callsAdded (references : ReferenceSet) (types : List TypeInfo) (info : TypeInfo) :
    List (List HostCall) :=
  let naming := namingIn references types info
  (initializerCalls naming info.fields).lambdas
    ++ info.methods.flatMap fun method ↦ (callsInBlock naming method.declaration.body).lambdas

/-- The host calls of a routine of a program. The routines of functions come first, in places of
their own, and those that are added type by type come behind them. -/
inductive RoutineCalls (references : ReferenceSet) (types : List TypeInfo) :
    RoutineIndex → List HostCall → Prop where
  | function {info : TypeInfo} {method : MethodInfo} : info ∈ types → method ∈ info.methods →
      RoutineCalls references types method.routine
        (callsInBlock (namingIn references types info) method.declaration.body).own
  | added {position : Nat} {calls : List HostCall} :
      (types.flatMap (callsAdded references types))[position]? = some calls →
      RoutineCalls references types ((types.flatMap TypeInfo.methods).length + position) calls

end GuestScript.Meaning
