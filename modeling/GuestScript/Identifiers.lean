/-!
# Names for what a host makes

Compilation units and execution contexts are named one after the other by an `IdSource`. A source is
a rule that says what the name of each draw is, and a count of the draws made; nothing says that
names are never repeated.
-/

namespace GuestScript

/-- What a name is for. -/
inductive IdPurpose where
  | unit
  | context
  deriving DecidableEq

/-- The part of a name that says what it is for. -/
def IdPurpose.text : IdPurpose → String
  | .unit => "unit"
  | .context => "ctx"

/-- A supply of names: the name of each draw, and the number of the next one. -/
structure IdSource where
  name : Nat → IdPurpose → String
  next : Nat

namespace IdSource

/-- Draw the next name. -/
def draw (source : IdSource) (purpose : IdPurpose) : String × IdSource :=
  (source.name source.next purpose, { source with next := source.next + 1 })

/-- Names with a number at the end that counts all draws, whatever they are for. -/
def sequential (lead : String) : IdSource :=
  ⟨fun number purpose ↦ lead ++ "-" ++ purpose.text ++ "-" ++ toString number, 0⟩

/-- The same name every time. -/
def fixed (name : String) : IdSource :=
  ⟨fun _ _ ↦ name, 0⟩

end IdSource

end GuestScript
