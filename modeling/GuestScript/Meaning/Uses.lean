import GuestScript.Meaning.Static

/-!
# What the text of a body does with variables

Which variable a name in a text means is settled by where the name stands: the newest variable of
that name around it, inside the same lambda or outside of it. `usesIn` lists what an expression does
with variables in the order in which it is done, and `usesInBlock` what statements do. The uses in
the body of a lambda are kept together, as a variable that is bound outside is used there through a
copy. Nothing here depends on which variables a lambda copies, or on slots.

A variable is known by the number of lambdas around the place that binds it, and the number of
variables that the function or lambda binds before it. The instance that a function works on comes
first, then the parameters; a loop binds the variable that its cursor is in, which has no name.
-/

namespace GuestScript.Meaning

open Bytecode (TypeIndex)
open Compile
open Syntax

/-- A variable of a text: how many lambdas are around what binds it, and its number there. -/
structure Binder where
  depth : Nat
  index : Nat
  deriving DecidableEq

/-- What is done with variables: one is read or written, a loop moves its cursor on, or the closure
of a lambda is made that takes so many arguments, with the uses in its body. -/
inductive Use where
  | read (binder : Binder)
  | write (binder : Binder)
  | advance (binder : Binder)
  | closure (parameters : Nat) (inside : List Use)

/-- Where a text stands: what it may refer to, the number of lambdas around it, and the instance to
work on. The instance of a lambda is that of the function around it. -/
structure Standpoint where
  site : Site
  depth : Nat
  receiver : Option Binder

namespace Standpoint

variable (standpoint : Standpoint)

/-- The body of a lambda. -/
def inside : Standpoint :=
  { standpoint with depth := standpoint.depth + 1 }

/-- A name becomes that of the variable of this number. What a name means does not depend on the
type of the variable. -/
def bind (index : Nat) (name : Identifier) (scope : Scope Binder) : Scope Binder :=
  ⟨name.name, .dyn, ⟨standpoint.depth, index⟩⟩ :: scope

/-- Names become those of the variables from this number on. -/
def bindAll : Nat → List Identifier → Scope Binder → Scope Binder
  | _, [], scope => scope
  | index, first :: rest, scope =>
      bindAll (index + 1) rest (standpoint.bind index first scope)

/-- The variables outside of a lambda. Its body knows the instance under a name of its own. -/
def outside (scope : Scope Binder) : Scope Binder :=
  (standpoint.receiver.map fun binder ↦ ⟨Mentions.receiverName, .dyn, binder⟩).toList
    ++ scope.filter fun held ↦ held.name ≠ Mentions.receiverName

/-- What reading the instance uses. -/
def receiverUses : List Use :=
  (standpoint.receiver.map .read).toList

/-- What is used to find what is called: the variable whose value it is, or the instance if it is a
function that works on one. -/
def usesOf : Callable Binder → List Use
  | .value held => [.read held.holder]
  | .function _ method => if method.isStatic then [] else standpoint.receiverUses
  | .host _ _ => []

/-- What is used to find what is called under a path. -/
def calleeUses (scope : Scope Binder) (segments : List Identifier) : List Use :=
  ((callable? standpoint.site scope segments).map standpoint.usesOf).getD []

end Standpoint

/-! ## Numbers of variables -/

mutual

/-- The number of variables that a block binds. -/
def bindersInBlock : Block → Nat
  | .mk statements _ => bindersInStatements statements

/-- The number of variables that statements bind. -/
def bindersInStatements : List Statement → Nat
  | [] => 0
  | first :: rest => bindersInStatement first + bindersInStatements rest

/-- The number of variables that a statement binds, with those of the blocks in it. A loop over
items binds one for its cursor besides that for the item. -/
def bindersInStatement : Statement → Nat
  | .declare .. => 1
  | .assign .. | .returns .. | .evaluate _ => 0
  | .forEach _ _ body _ => bindersInBlock body + 2
  | .whileLoop _ body _ => bindersInBlock body
  | .conditional _ body other _ => bindersInBlock body + bindersInAlternative other

/-- The number of variables that an alternative binds. -/
def bindersInAlternative : Alternative → Nat
  | .absent => 0
  | .block body => bindersInBlock body
  | .chain conditional => bindersInStatement conditional

end

/-- The variables in scope behind a statement, with this number for one that it adds. -/
def Standpoint.behind (standpoint : Standpoint) (next : Nat) (statement : Statement)
    (scope : Scope Binder) : Scope Binder :=
  match statement with
  | .declare name _ _ _ => standpoint.bind next name scope
  | _ => scope

/-! ## Uses -/

mutual

/-- What an expression does with variables. -/
def usesIn (standpoint : Standpoint) (scope : Scope Binder) : Expression → List Use
  | .int .. | .str .. | .bool .. | .construct .. => []
  | .receiver _ => standpoint.receiverUses
  | .path segments _ =>
      match segments with
      | [name] => ((scope.named? name.name).map fun held ↦ .read held.holder).toList
      | _ => []
  | .array items _ => usesInAll standpoint scope items
  | .call callee arguments _ =>
      (match callee with
        | .path segments _ => standpoint.calleeUses scope segments
        | other => usesIn standpoint scope other)
        ++ usesInAll standpoint scope arguments
  | .method target _ arguments _ =>
      usesIn standpoint scope target ++ usesInAll standpoint scope arguments
  | .field target _ _ => usesIn standpoint scope target
  | .element target index _ => usesIn standpoint scope target ++ usesIn standpoint scope index
  | .lambda parameters body _ =>
      [.closure parameters.length
        (usesInBody standpoint.inside
          (standpoint.inside.bindAll 0 parameters (standpoint.outside scope)) parameters.length
          body)]
  | .unary _ operand _ => usesIn standpoint scope operand
  | .binary _ left right _ => usesIn standpoint scope left ++ usesIn standpoint scope right

/-- What expressions do with variables. -/
def usesInAll (standpoint : Standpoint) (scope : Scope Binder) : List Expression → List Use
  | [] => []
  | first :: rest => usesIn standpoint scope first ++ usesInAll standpoint scope rest

/-- What the body of a lambda does with variables; those that it binds have numbers from `next`
on. -/
def usesInBody (standpoint : Standpoint) (scope : Scope Binder) (next : Nat) :
    LambdaBody → List Use
  | .expression value => usesIn standpoint scope value
  | .block body => usesInBlock standpoint scope next body

/-- What a block does with variables. -/
def usesInBlock (standpoint : Standpoint) (scope : Scope Binder) (next : Nat) : Block → List Use
  | .mk statements _ => usesInStatements standpoint scope next statements

/-- What statements do with variables. -/
def usesInStatements (standpoint : Standpoint) (scope : Scope Binder) (next : Nat) :
    List Statement → List Use
  | [] => []
  | first :: rest =>
      usesInStatement standpoint scope next first
        ++ usesInStatements standpoint (standpoint.behind next first scope)
          (next + bindersInStatement first) rest

/-- What a statement does with variables. -/
def usesInStatement (standpoint : Standpoint) (scope : Scope Binder) (next : Nat) :
    Statement → List Use
  | .declare _ _ value _ =>
      usesIn standpoint scope value ++ [.write ⟨standpoint.depth, next⟩]
  | .assign (.binding name) value _ =>
      usesIn standpoint scope value
        ++ ((scope.named? name.name).map fun held ↦ .write held.holder).toList
  | .assign (.field _) value _ => standpoint.receiverUses ++ usesIn standpoint scope value
  | .forEach binding iterable body _ =>
      usesIn standpoint scope iterable
        ++ [.write ⟨standpoint.depth, next⟩, .advance ⟨standpoint.depth, next⟩,
          .write ⟨standpoint.depth, next + 1⟩]
        ++ usesInBlock standpoint (standpoint.bind (next + 1) binding scope) (next + 2) body
  | .whileLoop test body _ =>
      usesIn standpoint scope test ++ usesInBlock standpoint scope next body
  | .conditional test body other _ =>
      usesIn standpoint scope test ++ usesInBlock standpoint scope next body
        ++ usesInAlternative standpoint scope (next + bindersInBlock body) other
  | .returns none _ => []
  | .returns (some value) _ => usesIn standpoint scope value
  | .evaluate value => usesIn standpoint scope value

/-- What an alternative does with variables. -/
def usesInAlternative (standpoint : Standpoint) (scope : Scope Binder) (next : Nat) :
    Alternative → List Use
  | .absent => []
  | .block body => usesInBlock standpoint scope next body
  | .chain conditional => usesInStatement standpoint scope next conditional

end

/-! ## Functions and fields -/

/-- Where the functions and fields of a type stand, with the instance that they work on. -/
def standpointOf (references : ReferenceSet) (types : List TypeInfo) (owner : TypeIndex)
    (info : TypeInfo) (receiver : Option Binder) : Standpoint :=
  ⟨⟨references, types, owner, info.name, receiver.isSome, .unit⟩, 0, receiver⟩

/-- What a function does with variables. -/
def usesInMethod (references : ReferenceSet) (types : List TypeInfo) (owner : TypeIndex)
    (info : TypeInfo) (method : MethodInfo) : List Use :=
  let receiver : Option Binder := if method.isStatic then none else some ⟨0, 0⟩
  let standpoint := standpointOf references types owner info receiver
  let names := method.declaration.parameters.map Parameter.name
  let first := if method.isStatic then 0 else 1
  usesInBlock standpoint (standpoint.bindAll first names []) (first + names.length)
    method.declaration.body

/-- What giving fields their first values does with variables: the instance is read for each of
them. -/
def usesInFields (references : ReferenceSet) (types : List TypeInfo) (owner : TypeIndex)
    (info : TypeInfo) : List Use :=
  let standpoint := standpointOf references types owner info (some ⟨0, 0⟩)
  info.fields.flatMap fun field ↦
    .read ⟨0, 0⟩ :: (field.value.map (usesIn standpoint [])).getD []

end GuestScript.Meaning
