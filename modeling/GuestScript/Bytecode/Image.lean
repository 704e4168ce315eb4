import GuestScript.Operator

/-!
# Images

An image is a compiled unit: the host functions it imports, its types, its routines and the routine
to start with. Routines, types and imports are spoken of by their position. A routine is code for a
stack machine with numbered local slots; its arguments arrive in the first of them.
-/

namespace GuestScript

namespace Bytecode

/-- The position of a routine in its image. -/
abbrev RoutineIndex := Nat

/-- The position of a type in its image. -/
abbrev TypeIndex := Nat

/-- The position of an import in its image. -/
abbrev ImportIndex := Nat

/-- A value that code can hold. -/
inductive Constant where
  | unit
  | int (value : Int64)
  | bool (value : Bool)
  | str (value : String)
  deriving DecidableEq

/-- One instruction. Jumps name the position of the instruction to go on with, and a position
right behind the code ends the routine. -/
inductive Op where
  | push (constant : Constant)
  | load (slot : Nat)
  | store (slot : Nat)
  | loadField (field : Nat)
  | storeField (field : Nat)
  | pop
  | unary (operator : UnaryOperator)
  | binary (operator : BinaryOperator)
  | makeArray (length : Nat)
  | index
  | makeClosure (routine : RoutineIndex) (captures : Nat)
  | construct (type : TypeIndex)
  | call (routine : RoutineIndex) (count : Nat)
  | callClosure (count : Nat)
  | callHost (imported : ImportIndex) (count : Nat)
  | iterStart
  | iterNext (slot : Nat) (exit : Nat)
  | jump (target : Nat)
  | jumpUnless (target : Nat)
  | ret
  deriving DecidableEq

/-- Who may call a routine: anyone, or only the routines of its own type. -/
inductive Visibility where
  | everyone
  | owner
  deriving DecidableEq

/-- What the leading arguments of a routine are: nothing special, the instance it works on, or the
values that a closure captured. -/
inductive Binding where
  | static
  | onInstance
  | closure (captures : Nat)
  deriving DecidableEq

/-- The written form of a binding. -/
def Binding.text : Binding → String
  | .static => "Static"
  | .onInstance => "Instance"
  | .closure captures => s!"Closure \x7b captures: {captures} \x7d"

/-- A routine. The arity counts every incoming value, the leading ones included. -/
structure Routine where
  name : String
  owner : Option TypeIndex
  visibility : Visibility
  binding : Binding
  arity : Nat
  locals : Nat
  code : Array Op
  deriving DecidableEq

/-- The name of a type together with its namespace. -/
def qualifiedName (namespaceName name : String) : String :=
  if namespaceName.isEmpty then name else namespaceName ++ "." ++ name

/-- A type: the names of its fields, the routine that gives them their first values, and its
methods. -/
structure TypeDefinition where
  namespaceName : String
  name : String
  fields : List String
  initializer : Option RoutineIndex
  methods : List RoutineIndex
  deriving DecidableEq

/-- The name of a type together with its namespace. -/
def TypeDefinition.fullName (type : TypeDefinition) : String :=
  qualifiedName type.namespaceName type.name

/-- A host function that an image calls, with the version of its module. -/
structure Import where
  moduleName : String
  major : UInt16
  minor : UInt16
  function : String
  deriving DecidableEq

/-- A compiled unit. -/
structure Image where
  name : String
  imports : Array Import
  types : Array TypeDefinition
  routines : Array Routine
  entry : Option RoutineIndex
  deriving DecidableEq

namespace Image

/-- The first type of this full name. -/
def findType? (image : Image) (fullName : String) : Option TypeIndex :=
  image.types.findIdx? fun type ↦ type.fullName = fullName

/-- The first method of this name on a type, whoever may call it and however it is bound. -/
def findMethod? (image : Image) (owner : TypeIndex) (name : String) : Option RoutineIndex := do
  let type ← image.types[owner]?
  type.methods.find? fun method ↦
    match image.routines[method]? with
    | some routine => routine.name = name
    | none => false

end Image

end Bytecode

end GuestScript
