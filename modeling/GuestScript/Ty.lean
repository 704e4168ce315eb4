/-!
# Static types

The types that the checker gives to expressions, and the rule that says which type may stand where
another is required. `parameter` occurs in the signatures of host functions only and stands for the
one type that a call leaves open; `poison` is the type of an expression that a diagnostic has
already been given for, and agrees with everything so that one mistake is reported once.

`Ty.accepts` decides compatibility. An open type is bound by the first type that meets it, so the
function takes the binding so far and gives the binding afterwards.
-/

namespace GuestScript

/-- A static type. -/
inductive Ty where
  | unit
  | int
  | bool
  | str
  | dyn
  | array (element : Ty)
  | seq (element : Ty)
  | function (parameters : List Ty) (result : Ty)
  | object (name : String)
  | parameter
  | poison

namespace Ty

mutual

/-- Whether two types are the same. -/
def same : Ty → Ty → Bool
  | .unit, .unit | .int, .int | .bool, .bool | .str, .str | .dyn, .dyn | .parameter, .parameter
  | .poison, .poison => true
  | .array first, .array second => same first second
  | .seq first, .seq second => same first second
  | .function first firstResult, .function second secondResult =>
      sameAll first second && same firstResult secondResult
  | .object first, .object second => first = second
  | _, _ => false

/-- Whether two lists hold the same types. -/
def sameAll : List Ty → List Ty → Bool
  | [], [] => true
  | first :: firsts, second :: seconds => same first second && sameAll firsts seconds
  | _, _ => false

end

mutual

/-- The comparison of types tells exactly whether they are equal. -/
theorem same_iff : (first second : Ty) → (same first second = true ↔ first = second)
  | .unit, second | .int, second | .bool, second | .str, second | .dyn, second
  | .parameter, second | .poison, second => by cases second <;> simp [same]
  | .object _, second => by cases second <;> simp [same]
  | .array element, second => by
      cases second with
      | array other => simpa [same] using same_iff element other
      | _ => simp [same]
  | .seq element, second => by
      cases second with
      | seq other => simpa [same] using same_iff element other
      | _ => simp [same]
  | .function parameters result, second => by
      cases second with
      | function others other =>
          simp [same, sameAll_iff parameters others, same_iff result other]
      | _ => simp [same]

/-- The comparison of lists of types tells exactly whether they are equal. -/
theorem sameAll_iff :
    (firsts seconds : List Ty) → (sameAll firsts seconds = true ↔ firsts = seconds)
  | [], seconds => by cases seconds <;> simp [sameAll]
  | first :: firsts, seconds => by
      cases seconds with
      | nil => simp [sameAll]
      | cons second seconds =>
          simp [sameAll, same_iff first second, sameAll_iff firsts seconds]

end

/-- Equality of types is decided by comparing them. -/
instance : DecidableEq Ty := fun first second ↦
  decidable_of_iff (same first second = true) (same_iff first second)

/-- Whether a type is that of an expression with a mistake in it. -/
def isPoison : Ty → Bool
  | .poison => true
  | _ => false

/-- Whether a type is only known when the program runs. -/
def isDyn : Ty → Bool
  | .dyn => true
  | _ => false

/-- The type of the elements that a loop over a value of this type meets. -/
def element? : Ty → Option Ty
  | .array element => some element
  | .seq element => some element
  | .dyn => some .dyn
  | .poison => some .poison
  | _ => none

mutual

/-- Put a type in the place of the open type; where nothing was bound to it, that is `dyn`. -/
def substitute (binding : Option Ty) : Ty → Ty
  | .parameter => binding.getD .dyn
  | .array element => .array (substitute binding element)
  | .seq element => .seq (substitute binding element)
  | .function parameters result =>
      .function (substituteAll binding parameters) (substitute binding result)
  | other => other

/-- Put a type in the place of the open type in every type of a list. -/
def substituteAll (binding : Option Ty) : List Ty → List Ty
  | [] => []
  | first :: rest => substitute binding first :: substituteAll binding rest

end

/-- What a required type comes down to under a binding, and the binding to go on with below it. A
bound open type comes down to what it is bound to, and what happens below does not touch the
binding of the call. -/
def demand (expected : Ty) (binding : Option Ty) : Ty × Option Ty :=
  match expected, binding with
  | .parameter, some bound => (bound, none)
  | _, _ => (expected, binding)

/-- The binding after a comparison, given the one before it and the one that the comparison went
on with. -/
def bindingAfter (expected : Ty) (binding below : Option Ty) : Option Ty :=
  match expected, binding with
  | .parameter, some bound => some bound
  | _, _ => below

mutual

/-- Whether a value of type `actual` may stand where `expected` is required, and the binding of the
open type afterwards. A type that is only known when the program runs agrees with every type, and
an array may stand for a sequence. Functions are compared parameter by parameter and then by their
result. -/
def accepts (expected : Ty) : (actual : Ty) → (binding : Option Ty) → Bool × Option Ty
  | actual, binding =>
      let (target, below) := demand expected binding
      let (accepted, after) : Bool × Option Ty :=
        match target, actual with
        | .poison, _ | _, .poison | .dyn, _ | _, .dyn => (true, below)
        | .parameter, actual => (true, some actual)
        | .seq wanted, .array found => accepts wanted found below
        | .seq wanted, .seq found => accepts wanted found below
        | .array wanted, .array found => accepts wanted found below
        | .function wanted wantedResult, .function found foundResult =>
            if wanted.length = found.length then
              match acceptsAll wanted found below with
              | (true, after) => accepts wantedResult foundResult after
              | (false, after) => (false, after)
            else (false, below)
        | wanted, found => (same wanted found, below)
      (accepted, bindingAfter expected binding after)

/-- Whether every type of one list may stand where the type at its place in the other is
required. The comparison ends at the first that may not. -/
def acceptsAll (expected : List Ty) : (actual : List Ty) → (binding : Option Ty) → Bool × Option Ty
  | [], binding => (true, binding)
  | found :: founds, binding =>
      match expected with
      | [] => (true, binding)
      | wanted :: wanteds =>
          match accepts wanted found binding with
          | (true, after) => acceptsAll wanteds founds after
          | (false, after) => (false, after)

end

/-- Whether a value of one type may stand where another is required, with no open type bound. -/
def admits (expected actual : Ty) : Bool :=
  (accepts expected actual none).1

mutual

/-- The written form of a type. -/
def text : Ty → String
  | .unit => "unit"
  | .int => "int"
  | .bool => "bool"
  | .str => "str"
  | .dyn => "dyn"
  | .array element => "[" ++ text element ++ "]"
  | .seq element => "seq<" ++ text element ++ ">"
  | .function parameters result =>
      "fn(" ++ ", ".intercalate (texts parameters) ++ ") -> " ++ text result
  | .object name => name
  | .parameter => "T"
  | .poison => "\x7berror\x7d"

/-- The written forms of the types of a list. -/
def texts : List Ty → List String
  | [] => []
  | first :: rest => text first :: texts rest

end

end Ty

end GuestScript
