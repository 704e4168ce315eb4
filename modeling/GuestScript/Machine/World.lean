import GuestScript.Machine.Fault

/-!
# The world of a run

What a run shares with everything it calls: the objects it has made, a supply of identities, and the
console it writes to. A console can be one that refuses to write; writing nothing never fails.
-/

namespace GuestScript.Machine

/-- Where output goes: the text written so far, and the reason why writing fails, if it does. -/
structure Console where
  text : String
  failure : Option String

namespace Console

/-- A console that nothing has been written to. -/
def empty : Console := ⟨"", none⟩

/-- A console that refuses every write. -/
def broken : Console := ⟨"", some "sink closed"⟩

/-- Write a text, or say why that fails. -/
def write (console : Console) (text : String) : Except String Console :=
  if text.isEmpty then .ok console
  else
    match console.failure with
    | some reason => .error reason
    | none => .ok { console with text := console.text ++ text }

/-- Write a text and end the line. -/
def writeLine (console : Console) (line : String) : Except String Console :=
  match console.write line with
  | .ok console => console.write "\n"
  | .error reason => .error reason

end Console

/-- The objects made so far, by address, with the values of their fields; the number that the next
closure or sequence is told by; and the console. -/
structure WorldOver (Code : Type) where
  objects : Array (List (ValueOver Code))
  nextIdentity : Nat
  console : Console

/-- The world of a run of the machine. -/
abbrev World := WorldOver Bytecode.RoutineIndex

namespace WorldOver

variable {Code : Type}

/-- A world in which nothing has been made yet. -/
def fresh (console : Console) : WorldOver Code :=
  ⟨#[], 0, console⟩

/-- The values of the fields of an object. -/
def fields (world : WorldOver Code) (reference : Reference) : List (ValueOver Code) :=
  (world.objects[reference.address]?).getD []

/-- Make an object with these values in its fields. -/
def allocate (world : WorldOver Code) (type : Bytecode.TypeIndex) (typeName : String)
    (fields : List (ValueOver Code)) : Reference × WorldOver Code :=
  (⟨world.objects.size, type, typeName⟩, { world with objects := world.objects.push fields })

/-- Give a field of an object another value. -/
def setField (world : WorldOver Code) (reference : Reference) (field : Nat)
    (value : ValueOver Code) : WorldOver Code :=
  { world with
    objects := world.objects.modify reference.address fun fields ↦ fields.set field value }

/-- The value of a field of an object. -/
def readField (world : WorldOver Code) (target : ValueOver Code) (field : Nat) :
    Except Fault (ValueOver Code) := do
  let reference ← orMismatch target.toReference
  match (world.fields reference)[field]? with
  | some value => pure value
  | none => .error (.missingField reference.typeName field)

/-- The world after an assignment to a field of an object. -/
def writeField (world : WorldOver Code) (target : ValueOver Code) (field : Nat)
    (value : ValueOver Code) : Except Fault (WorldOver Code) := do
  let reference ← orMismatch target.toReference
  if field < (world.fields reference).length then pure (world.setField reference field value)
  else .error (.missingField reference.typeName field)

/-- Make a closure. -/
def makeClosure (world : WorldOver Code) (code : Code) (captures : List (ValueOver Code)) :
    ClosureOver Code × WorldOver Code :=
  (.mk world.nextIdentity code captures, { world with nextIdentity := world.nextIdentity + 1 })

/-- Make a sequence. -/
def makeSeq (world : WorldOver Code) (source : List (ValueOver Code))
    (stages : List (StageOver Code)) : ValueOver Code × WorldOver Code :=
  (.seq world.nextIdentity source stages, { world with nextIdentity := world.nextIdentity + 1 })

/-- View a value as a sequence: a sequence is itself, and an array becomes a new one. -/
def viewAsSeq (world : WorldOver Code) (value : ValueOver Code) :
    Except Mismatch (ValueOver Code × WorldOver Code) :=
  match value with
  | .seq identity source stages => .ok (.seq identity source stages, world)
  | other =>
      match other.toSeq with
      | .ok (source, stages) => .ok (world.makeSeq source stages)
      | .error mismatch => .error mismatch

end WorldOver

namespace World

export WorldOver (fresh)

end World

end GuestScript.Machine
