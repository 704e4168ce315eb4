import GuestScript.Compile.Draft
import GuestScript.Host.References
import GuestScript.Syntax.Tree

/-!
# Declarations

Before any body is compiled, the types of a file are collected with their fields and the signatures
of their functions, so that a body can use what is declared after it. A second type, field or
function of the same name is reported and left out.
-/

namespace GuestScript.Compile

open Bytecode (Binding RoutineIndex TypeIndex Visibility qualifiedName)
open Syntax (Expression FieldDeclaration File FunctionDeclaration TypeDeclaration TypeExpression)

/-- The name of a declared type. -/
structure TypeName where
  namespaceName : String
  name : String
  deriving DecidableEq

/-- The name of a type together with its namespace. -/
def TypeName.full (name : TypeName) : String :=
  qualifiedName name.namespaceName name.name

/-- A field: its name, its type, and the expression for its first value if there is one. -/
structure FieldInfo where
  name : String
  type : Ty
  value : Option Expression

/-- A function of a type: its signature, its routine, and what it was declared by. -/
structure MethodInfo where
  name : String
  routine : RoutineIndex
  parameters : List Ty
  result : Ty
  declaration : FunctionDeclaration

namespace MethodInfo

/-- Whether a function works without an instance. -/
def isStatic (method : MethodInfo) : Bool :=
  method.declaration.isStatic

/-- Whether the functions of other types may call a function. -/
def isPublic (method : MethodInfo) : Bool :=
  method.declaration.isPublic

/-- Where the name of a function stands. -/
def span (method : MethodInfo) : Span :=
  method.declaration.name.span

end MethodInfo

/-- A declared type with its members, in the order of their declaration. -/
structure TypeInfo where
  name : TypeName
  fields : List FieldInfo
  methods : List MethodInfo

namespace TypeName

/-- The type that a simple name means inside a namespace: one of that namespace, and otherwise the
first of that name. -/
def find? (names : List TypeName) (name namespaceName : String) : Option TypeIndex :=
  match names.findIdx? (· = ⟨namespaceName, name⟩) with
  | some index => some index
  | none => names.findIdx? fun candidate ↦ candidate.name = name

end TypeName

/-- The first type of this full name. -/
def typeNamed? (types : List TypeInfo) (fullName : String) : Option TypeIndex :=
  types.findIdx? fun type ↦ type.name.full = fullName

/-- The full name of a type. -/
def fullNameOf (types : List TypeInfo) (index : TypeIndex) : String :=
  match types[index]? with
  | some type => type.name.full
  | none => ""

/-- The function of this name on a type. -/
def methodOf? (types : List TypeInfo) (owner : TypeIndex) (name : String) : Option MethodInfo := do
  let type ← types[owner]?
  type.methods.find? fun method ↦ method.name = name

/-- The position and the type of the field of this name on the type of this full name. -/
def fieldOf? (types : List TypeInfo) (fullName name : String) : Option (Nat × Ty) := do
  let index ← typeNamed? types fullName
  let type ← types[index]?
  let position ← type.fields.findIdx? fun field ↦ field.name = name
  let field ← type.fields[position]?
  pure (position, field.type)

mutual

/-- The type that a written type means. What it does not mean is reported and counts as poison. -/
def resolveType (references : ReferenceSet) (names : List TypeName) (namespaceName : String) :
    TypeExpression → Drafting Ty
  | .int _ => pure .int
  | .str _ => pure .str
  | .bool _ => pure .bool
  | .unit _ => pure .unit
  | .dyn span =>
      if references.contains "dynamic" then pure .dyn
      else do
        Draft.report .dynamicUnavailable
          "`dyn` needs the `dynamic` module, which is not referenced" span
        pure .poison
  | .array element _ => do
      pure (.array (← resolveType references names namespaceName element))
  | .seq element _ => do
      pure (.seq (← resolveType references names namespaceName element))
  | .function parameters result _ => do
      let parameters ← resolveTypes references names namespaceName parameters
      pure (.function parameters (← resolveType references names namespaceName result))
  | .named name span =>
      match TypeName.find? names name namespaceName with
      | some index => pure (.object ((names[index]?.map TypeName.full).getD ""))
      | none => do
          Draft.report .unknownType ("unknown type `" ++ name ++ "`") span
          pure .poison

/-- The types that written types mean. -/
def resolveTypes (references : ReferenceSet) (names : List TypeName) (namespaceName : String) :
    List TypeExpression → Drafting (List Ty)
  | [] => pure []
  | first :: rest => do
      let type ← resolveType references names namespaceName first
      pure (type :: (← resolveTypes references names namespaceName rest))

end

/-- The name of a declared type. -/
def nameOf (declaration : TypeDeclaration) : TypeName :=
  ⟨declaration.namespaceName, declaration.name.name⟩

/-- The declarations whose full names are new, the last one first, behind those accepted before. -/
def acceptTypes (accepted : List TypeDeclaration) :
    List TypeDeclaration → Drafting (List TypeDeclaration)
  | [] => pure accepted
  | declaration :: rest => do
      let fullName := (nameOf declaration).full
      if accepted.any fun earlier ↦ (nameOf earlier).full = fullName then
        Draft.report .duplicateDefinition ("type `" ++ fullName ++ "` is defined more than once")
          declaration.name.span
        acceptTypes accepted rest
      else acceptTypes (declaration :: accepted) rest

/-- The fields of a type whose names are new, behind those accepted before. -/
def acceptFields (resolve : TypeExpression → Drafting Ty) (accepted : List FieldInfo) :
    List FieldDeclaration → Drafting (List FieldInfo)
  | [] => pure accepted
  | field :: rest => do
      let name := field.name.name
      if accepted.any fun earlier ↦ earlier.name = name then
        Draft.report .duplicateDefinition ("field `" ++ name ++ "` is declared more than once")
          field.name.span
        acceptFields resolve accepted rest
      else
        let type ← resolve field.type
        acceptFields resolve (accepted ++ [⟨name, type, field.value⟩]) rest

/-- The types of the parameters of a function and of its result. -/
def signatureOf (resolve : TypeExpression → Drafting Ty) (function : FunctionDeclaration) :
    Drafting (List Ty × Ty) := do
  let parameters ← function.parameters.mapM fun parameter ↦ resolve parameter.type
  match function.result with
  | some result => do pure (parameters, ← resolve result)
  | none => pure (parameters, .unit)

/-- The routine that a function is compiled to, without its code. -/
def routineOf (owner : TypeIndex) (function : FunctionDeclaration) (parameters : List Ty) :
    Bytecode.Routine :=
  let arity := parameters.length + (if function.isStatic then 0 else 1)
  { name := function.name.name
    owner := some owner
    visibility := if function.isPublic then .everyone else .owner
    binding := if function.isStatic then .static else .onInstance
    arity
    locals := arity
    code := #[] }

/-- The functions of a type whose names are new, behind those accepted before. -/
def acceptFunctions (resolve : TypeExpression → Drafting Ty) (owner : TypeIndex)
    (ownerName : String) (accepted : List MethodInfo) :
    List FunctionDeclaration → Drafting (List MethodInfo)
  | [] => pure accepted
  | function :: rest => do
      let name := function.name.name
      if accepted.any fun earlier ↦ earlier.name = name then
        Draft.report .duplicateDefinition
          ("function `" ++ name ++ "` is defined more than once in `" ++ ownerName ++ "`")
          function.name.span
        acceptFunctions resolve owner ownerName accepted rest
      else
        let (parameters, result) ← signatureOf resolve function
        let routine ← Draft.reserve (routineOf owner function parameters)
        acceptFunctions resolve owner ownerName
          (accepted ++ [⟨name, routine, parameters, result, function⟩]) rest

/-- The members of the accepted types, from a position on. -/
def acceptMembers (references : ReferenceSet) (names : List TypeName) (index : TypeIndex) :
    List TypeDeclaration → Drafting (List TypeInfo)
  | [] => pure []
  | declaration :: rest => do
      let name := nameOf declaration
      let resolve := resolveType references names name.namespaceName
      let fields ← acceptFields resolve [] declaration.fields
      let methods ← acceptFunctions resolve index name.full [] declaration.functions
      pure (⟨name, fields, methods⟩ :: (← acceptMembers references names (index + 1) rest))

/-- The types of a file. -/
def declare (references : ReferenceSet) (file : File) : Drafting (List TypeInfo) := do
  let accepted ← acceptTypes [] file.types
  let declarations := accepted.reverse
  acceptMembers references (declarations.map nameOf) 0 declarations

end GuestScript.Compile
