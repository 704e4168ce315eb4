import GuestScript.Meaning.Uses

/-!
# The variables of lets

Which variables the bodies of a program bind by `let`, read off the text, and which of them nothing
reads. A routine numbers the variables that it binds in the order of the text, behind its arguments:
the slot of a variable is its number behind as many arguments as the routine takes. The body of a lambda
is a routine of its own, so its variables are listed apart, those of the outermost lambda first.

A variable is unused if the code of its routine has no instruction that loads its slot. A name that
starts with an underscore says that this is intended. Nothing here depends on scopes or on what has been
marked as used.
-/

namespace GuestScript.Meaning

open Bytecode (Op Routine RoutineIndex)
open Compile
open Syntax

/-- The variable of a `let`: its name, and its number among the variables that its routine binds. -/
structure LetVariable where
  name : Identifier
  index : Nat

namespace LetVariable

variable (bound : LetVariable)

/-- The slot of a variable, in a routine that takes so many arguments. -/
def slot (arity : Nat) : Nat :=
  arity + bound.index

/-- Whether nothing reads a variable, and nothing in its name says that this is intended. -/
def isUnused (arity : Nat) (code : List Op) : Bool :=
  !(decide (.load (bound.slot arity) ∈ code) || bound.name.name.toList.head? = some '_')

/-- The warning about a variable that is not used. -/
def warning : Diagnostic Span :=
  .warning .unusedLocal ("unused local `" ++ bound.name.name ++ "`") bound.name.span

end LetVariable

/-- The warnings about those of the variables of a routine that are not used. -/
def unusedIn (arity : Nat) (code : List Op) (own : List LetVariable) : List (Diagnostic Span) :=
  (own.filter fun each ↦ each.isUnused arity code).map LetVariable.warning

/-- The variables of lets in a part of a body: its own, and those of each lambda in it. -/
structure Lets where
  own : List LetVariable
  lambdas : List (List LetVariable)

namespace Lets

/-- No variable. -/
def none : Lets := ⟨[], []⟩

/-- The variables of two parts, one after the other. -/
def append (first second : Lets) : Lets :=
  ⟨first.own ++ second.own, first.lambdas ++ second.lambdas⟩

instance : Append Lets := ⟨append⟩

theorem append_none (lets : Lets) : lets ++ none = lets := by
  change mk (lets.own ++ []) (lets.lambdas ++ []) = lets
  rw [List.append_nil, List.append_nil]

/-- The variables in a lambda, seen from the body that it is in. -/
def enclosed (inside : Lets) : Lets :=
  ⟨[], inside.own :: inside.lambdas⟩

end Lets

mutual

/-- The variables in an expression: it binds none of its own. -/
def letsIn : Expression → Lets
  | .int .. | .str .. | .bool .. | .receiver _ | .path .. | .construct .. => .none
  | .array items _ => letsInAll items
  | .call callee arguments _ => letsIn callee ++ letsInAll arguments
  | .method target _ arguments _ => letsIn target ++ letsInAll arguments
  | .field target _ _ => letsIn target
  | .element target index _ => letsIn target ++ letsIn index
  | .lambda _ body _ => (letsInBody body).enclosed
  | .unary _ operand _ => letsIn operand
  | .binary _ left right _ => letsIn left ++ letsIn right

/-- The variables in expressions. -/
def letsInAll : List Expression → Lets
  | [] => .none
  | first :: rest => letsIn first ++ letsInAll rest

/-- The variables in the body of a lambda. -/
def letsInBody : LambdaBody → Lets
  | .expression value => letsIn value
  | .block body => letsInBlock 0 body

/-- The variables in a block, with numbers from `next` on. -/
def letsInBlock (next : Nat) : Block → Lets
  | .mk statements _ => letsInStatements next statements

/-- The variables in statements, with numbers from `next` on. -/
def letsInStatements (next : Nat) : List Statement → Lets
  | [] => .none
  | first :: rest =>
      letsInStatement next first ++ letsInStatements (next + bindersInStatement first) rest

/-- The variables in a statement, with numbers from `next` on. A loop over items binds two variables
that are not of a `let`, its cursor and the item. -/
def letsInStatement (next : Nat) : Statement → Lets
  | .declare name _ value _ => letsIn value ++ ⟨[⟨name, next⟩], []⟩
  | .assign _ value _ => letsIn value
  | .forEach _ iterable body _ => letsIn iterable ++ letsInBlock (next + 2) body
  | .whileLoop test body _ => letsIn test ++ letsInBlock next body
  | .conditional test body other _ =>
      letsIn test ++ (letsInBlock next body
        ++ letsInAlternative (next + bindersInBlock body) other)
  | .returns none _ => .none
  | .returns (some value) _ => letsIn value
  | .evaluate value => letsIn value

/-- The variables in an alternative, with numbers from `next` on. -/
def letsInAlternative (next : Nat) : Alternative → Lets
  | .absent => .none
  | .block body => letsInBlock next body
  | .chain conditional => letsInStatement next conditional

end

/-! ## Routines -/

/-- The variables in the first values of fields. -/
def letsInFields : List FieldInfo → Lets
  | [] => .none
  | field :: rest =>
      (match field.value with
        | some value => letsIn value
        | none => .none) ++ letsInFields rest

/-- The variables of the routine that gives fields their first values, if there are fields. -/
def initializerLets (fields : List FieldInfo) : Lets :=
  if fields.isEmpty then .none else (letsInFields fields).enclosed

/-- The variables in the body of a function. -/
def letsInMethod (method : MethodInfo) : Lets :=
  letsInBlock 0 method.declaration.body

/-- The routines of functions, with the variables of each. -/
def letsOfFunctions (methods : List MethodInfo) : List (List LetVariable × RoutineIndex) :=
  methods.map fun method ↦ ((letsInMethod method).own, method.routine)

/-- The variables of the routines that are added for a type: the one for its fields, and the lambdas in
its fields and functions. -/
def letsAdded (info : TypeInfo) : List (List LetVariable) :=
  (initializerLets info.fields).lambdas
    ++ info.methods.flatMap fun method ↦ (letsInMethod method).lambdas

/-- All routines of a program, with the variables of each. The routines of functions come first, in
places of their own, and those that are added type by type come behind them. -/
def letsOfTypes (types : List TypeInfo) : List (List LetVariable × RoutineIndex) :=
  letsOfFunctions (types.flatMap TypeInfo.methods)
    ++ (types.flatMap letsAdded).zipIdx (types.flatMap TypeInfo.methods).length

/-- The warnings about variables that are not used, by the code of their routines. -/
def unusedWarnings (routines : Array Routine) (lets : List (List LetVariable × RoutineIndex)) :
    List (Diagnostic Span) :=
  lets.flatMap fun entry ↦
    match routines[entry.2]? with
    | some routine => unusedIn routine.arity routine.code.toList entry.1
    | none => []

end GuestScript.Meaning
