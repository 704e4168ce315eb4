import GuestScript.Bytecode.Image

/-!
# Checking an image

`Image.verify` makes sure that every position that an image mentions exists: routines, types,
imports, local slots and jump targets. It also bounds the number of local slots, so that an image
cannot ask for more memory than its own size justifies. The first defect found is reported.
-/

namespace GuestScript.Bytecode

/-- The most local slots that a routine may have. -/
def maxLocals : Nat := 65536

/-- The written form of the position of a routine. -/
def routineText (index : RoutineIndex) : String := s!"FunctionIndex({index})"

/-- The written form of the position of a type. -/
def typeText (index : TypeIndex) : String := s!"TypeIndex({index})"

/-- The written form of the position of an import. -/
def importText (index : ImportIndex) : String := s!"ImportIndex({index})"

/-- What can be wrong inside a type or a routine. -/
inductive Defect where
  | missingMember (routine : RoutineIndex)
  | tooFewLocals (locals arity : Nat)
  | tooManyCaptures (captures : Nat)
  | missingOwner (type : TypeIndex)
  | tooManyLocals (locals : Nat)
  | unaddressedLocals (locals addressed : Nat)
  | slotOutOfRange (slot : Nat)
  | iteratorSlotOutOfRange (slot : Nat)
  | jumpOutOfRange (target : Nat)
  | missingCallee (routine : RoutineIndex)
  | missingType (type : TypeIndex)
  | missingImport (imported : ImportIndex)
  deriving DecidableEq

/-- The message of a defect. -/
def Defect.text : Defect → String
  | .missingMember routine => "member refers to missing function " ++ routineText routine
  | .tooFewLocals locals arity => s!"{locals} locals cannot hold {arity} arguments"
  | .tooManyCaptures captures => s!"{captures} captures exceed arity"
  | .missingOwner type => "owner " ++ typeText type ++ " does not exist"
  | .tooManyLocals locals => s!"{locals} locals exceed the limit of {maxLocals}"
  | .unaddressedLocals locals addressed =>
      s!"{locals} locals but only {addressed} are ever addressed"
  | .slotOutOfRange slot => s!"local slot {slot} out of range"
  | .iteratorSlotOutOfRange slot => s!"iterator slot {slot} out of range"
  | .jumpOutOfRange target => s!"jump target {target} out of range"
  | .missingCallee routine => "call to missing function " ++ routineText routine
  | .missingType type => "construction of missing type " ++ typeText type
  | .missingImport imported => "missing import " ++ importText imported

/-- What an image can be refused for. -/
inductive Invalid where
  | badEntry (entry : RoutineIndex)
  | defect (place : String) (defect : Defect)
  deriving DecidableEq

namespace Op

/-- The number of slots that a routine needs so that this instruction finds its slot. -/
def slotsNeeded : Op → Nat
  | .load slot | .store slot | .iterNext slot _ => slot + 1
  | _ => 0

/-- What is wrong with an instruction of a routine. -/
def defect? (image : Image) (routine : Routine) : Op → Option Defect
  | .load slot | .store slot =>
      if routine.locals ≤ slot then some (.slotOutOfRange slot) else none
  | .iterNext slot exit =>
      if routine.locals ≤ slot then some (.iteratorSlotOutOfRange slot)
      else if routine.code.size < exit then some (.jumpOutOfRange exit)
      else none
  | .jump target | .jumpUnless target =>
      if routine.code.size < target then some (.jumpOutOfRange target) else none
  | .call callee _ | .makeClosure callee _ =>
      if image.routines.size ≤ callee then some (.missingCallee callee) else none
  | .construct type =>
      if image.types.size ≤ type then some (.missingType type) else none
  | .callHost imported _ =>
      if image.imports.size ≤ imported then some (.missingImport imported) else none
  | _ => none

end Op

namespace Routine

/-- The number of slots that the code of a routine addresses. -/
def slotsAddressed (routine : Routine) : Nat :=
  routine.code.foldl (fun most op ↦ max most op.slotsNeeded) 0

/-- What is wrong with the owner of a routine. -/
def ownerDefect? (image : Image) (routine : Routine) : Option Defect :=
  match routine.owner with
  | some owner => if image.types.size ≤ owner then some (.missingOwner owner) else none
  | none => none

/-- What is wrong with the arguments of a routine. -/
def argumentsDefect? (routine : Routine) : Option Defect :=
  if routine.locals < routine.arity then some (.tooFewLocals routine.locals routine.arity)
  else
    match routine.binding with
    | .closure captures =>
        if routine.arity < captures then some (.tooManyCaptures captures) else none
    | _ => none

/-- What is wrong with the number of slots of a routine. -/
def localsDefect? (routine : Routine) : Option Defect :=
  let addressed := max routine.slotsAddressed routine.arity
  if maxLocals < routine.locals then some (.tooManyLocals routine.locals)
  else if addressed < routine.locals then some (.unaddressedLocals routine.locals addressed)
  else none

/-- The first thing that is wrong with a routine. -/
def defect? (image : Image) (routine : Routine) : Option Defect :=
  routine.argumentsDefect? <|> routine.ownerDefect? image <|> routine.localsDefect?
    <|> routine.code.toList.findSome? (Op.defect? image routine)

end Routine

namespace Image

/-- The first member of a type that does not exist. -/
def memberDefect? (image : Image) (type : TypeDefinition) : Option Defect :=
  (type.initializer.toList ++ type.methods).findSome? fun member ↦
    if image.routines.size ≤ member then some (.missingMember member) else none

/-- The first thing that is wrong with an image: with its entry, then with its types in order, then
with its routines in order. -/
def invalid? (image : Image) : Option Invalid :=
  let badEntry : Option Invalid := image.entry.bind fun entry ↦
    if image.routines.size ≤ entry then some (.badEntry entry) else none
  let badType : Option Invalid := image.types.toList.findSome? fun type ↦
    (image.memberDefect? type).map (.defect type.fullName)
  let badRoutine : Option Invalid := image.routines.toList.findSome? fun routine ↦
    (routine.defect? image).map (.defect routine.name)
  badEntry <|> badType <|> badRoutine

/-- Accept an image in which every position exists, and refuse any other. -/
def verify (image : Image) : Except Invalid Unit :=
  match image.invalid? with
  | some invalid => .error invalid
  | none => .ok ()

end Image

end GuestScript.Bytecode
