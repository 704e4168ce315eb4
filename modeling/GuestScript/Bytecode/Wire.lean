import GuestScript.Bytecode.Verify
import GuestScript.Text.Utf8

/-!
# The wire form of an image

The bytes of an image are four fixed bytes, the version of the format, and the fields of the image
one after the other. Numbers are little endian and of fixed width, a text or a list starts with its
length, and an alternative starts with its number. `Image.encode` writes this form. `Image.decode`
reads it, ignores what follows it, and verifies the image it has read.
-/

namespace GuestScript.Bytecode

/-- Bytes, first to last. -/
abbrev Bytes := List UInt8

/-- Why bytes are not the fields of an image. -/
inductive PayloadError where
  | unexpectedEnd
  | shortText
  | notText (problem : Utf8.Problem)
  | notBool (found : Nat)
  | notOption (found : Nat)
  | notAlternative (found count : Nat)
  deriving DecidableEq

/-- The message of a payload error. -/
def PayloadError.text : PayloadError → String
  | .unexpectedEnd => "io error: unexpected end of file"
  | .shortText => "io error: "
  | .notText problem => "string is not valid utf8: " ++ problem.text
  | .notBool found => s!"invalid u8 while decoding bool, expected 0 or 1, found {found}"
  | .notOption found => s!"tag for enum is not valid, found {found}"
  | .notAlternative found count =>
      s!"invalid value: integer `{found}`, expected variant index 0 <= i < {count}"

/-! ## Writing -/

namespace Write

/-- A number in so many bytes, the least significant first. -/
def littleEndian : Nat → Nat → Bytes
  | 0, _ => []
  | width + 1, value => UInt8.ofNat (value % 256) :: littleEndian width (value / 256)

/-- A length, a position or a count. -/
def natural (value : Nat) : Bytes :=
  littleEndian 8 value

/-- A number of 16 bits. -/
def short (value : UInt16) : Bytes :=
  littleEndian 2 value.toNat

/-- A signed number of 64 bits, in two's complement. -/
def integer (value : Int64) : Bytes :=
  littleEndian 8 value.toUInt64.toNat

/-- The number of an alternative. -/
def alternative (number : Nat) : Bytes :=
  littleEndian 4 number

/-- A truth value. -/
def bool (value : Bool) : Bytes :=
  [if value then 1 else 0]

/-- A text, after the number of its bytes. -/
def text (value : String) : Bytes :=
  let bytes := Utf8.encode value
  natural bytes.length ++ bytes

/-- A list, after its length. -/
def list {Item : Type} (item : Item → Bytes) (values : List Item) : Bytes :=
  natural values.length ++ values.flatMap item

/-- A value that may be missing. -/
def option {Item : Type} (item : Item → Bytes) : Option Item → Bytes
  | none => [0]
  | some value => 1 :: item value

/-- A constant. -/
def constant : Constant → Bytes
  | .unit => alternative 0
  | .int value => alternative 1 ++ integer value
  | .bool value => alternative 2 ++ bool value
  | .str value => alternative 3 ++ text value

/-- A unary operator. -/
def unaryOperator (operator : UnaryOperator) : Bytes :=
  alternative (UnaryOperator.all.idxOf operator)

/-- A binary operator. -/
def binaryOperator (operator : BinaryOperator) : Bytes :=
  alternative (BinaryOperator.all.idxOf operator)

/-- An instruction. -/
def op : Op → Bytes
  | .push value => alternative 0 ++ constant value
  | .load slot => alternative 1 ++ natural slot
  | .store slot => alternative 2 ++ natural slot
  | .loadField field => alternative 3 ++ natural field
  | .storeField field => alternative 4 ++ natural field
  | .pop => alternative 5
  | .unary operator => alternative 6 ++ unaryOperator operator
  | .binary operator => alternative 7 ++ binaryOperator operator
  | .makeArray length => alternative 8 ++ natural length
  | .index => alternative 9
  | .makeClosure routine captures => alternative 10 ++ natural routine ++ natural captures
  | .construct type => alternative 11 ++ natural type
  | .call routine count => alternative 12 ++ natural routine ++ natural count
  | .callClosure count => alternative 13 ++ natural count
  | .callHost imported count => alternative 14 ++ natural imported ++ natural count
  | .iterStart => alternative 15
  | .iterNext slot exit => alternative 16 ++ natural slot ++ natural exit
  | .jump target => alternative 17 ++ natural target
  | .jumpUnless target => alternative 18 ++ natural target
  | .ret => alternative 19

/-- A visibility. -/
def visibility : Visibility → Bytes
  | .everyone => alternative 0
  | .owner => alternative 1

/-- A binding. -/
def binding : Binding → Bytes
  | .static => alternative 0
  | .onInstance => alternative 1
  | .closure captures => alternative 2 ++ natural captures

/-- A routine. -/
def routine (value : Routine) : Bytes :=
  text value.name ++ option natural value.owner ++ visibility value.visibility
    ++ binding value.binding ++ natural value.arity ++ natural value.locals
    ++ list op value.code.toList

/-- A type. -/
def typeDefinition (value : TypeDefinition) : Bytes :=
  text value.namespaceName ++ text value.name ++ list text value.fields
    ++ option natural value.initializer ++ list natural value.methods

/-- An import. -/
def imported (value : Import) : Bytes :=
  text value.moduleName ++ short value.major ++ short value.minor ++ text value.function

/-- The fields of an image. -/
def payload (value : Image) : Bytes :=
  text value.name ++ list imported value.imports.toList ++ list typeDefinition value.types.toList
    ++ list routine value.routines.toList ++ option natural value.entry

end Write

/-! ## Reading -/

/-- A reader takes its value off the front of the bytes, or says why it cannot. -/
abbrev Reader (Value : Type) := StateT Bytes (Except PayloadError) Value

namespace Read

/-- Refuse the bytes. -/
def refuse {Value : Type} (error : PayloadError) : Reader Value :=
  throw error

/-- One byte. -/
def byte : Reader UInt8 := fun bytes ↦
  match bytes with
  | [] => .error .unexpectedEnd
  | first :: rest => .ok (first, rest)

/-- A number in so many bytes, the least significant first. -/
def littleEndian : Nat → Reader Nat
  | 0 => pure 0
  | width + 1 => do
      let low ← byte
      let high ← littleEndian width
      pure (low.toNat + 256 * high)

/-- A length, a position or a count. -/
def natural : Reader Nat :=
  littleEndian 8

/-- A number of 16 bits. -/
def short : Reader UInt16 := do
  pure (UInt16.ofNat (← littleEndian 2))

/-- A signed number of 64 bits, in two's complement. -/
def integer : Reader Int64 := do
  pure (UInt64.ofNat (← littleEndian 8)).toInt64

/-- The number of an alternative, of which there are so many. -/
def alternative (count : Nat) : Reader Nat := do
  let found ← littleEndian 4
  if found < count then pure found else refuse (.notAlternative found count)

/-- A truth value. -/
def bool : Reader Bool := do
  let found ← byte
  if found = 0 then pure false
  else if found = 1 then pure true
  else refuse (.notBool found.toNat)

/-- Split so many bytes off the front; the ones already split off come first and in reverse. -/
def split : Nat → Bytes → Bytes → Option (Bytes × Bytes)
  | 0, taken, rest => some (taken.reverse, rest)
  | _ + 1, _, [] => none
  | count + 1, taken, first :: rest => split count (first :: taken) rest

/-- A text, after the number of its bytes. -/
def text : Reader String := do
  let length ← natural
  match split length [] (← get) with
  | none => refuse .shortText
  | some (bytes, rest) =>
      set rest
      match Utf8.decode bytes with
      | .ok value => pure value
      | .error problem => refuse (.notText problem)

/-- So many values, behind those read before, which come in reverse. -/
def repeated {Item : Type} (item : Reader Item) : Nat → List Item → Reader (List Item)
  | 0, values => pure values.reverse
  | count + 1, values => do
      let value ← item
      repeated item count (value :: values)

/-- A list, after its length. -/
def list {Item : Type} (item : Reader Item) : Reader (List Item) := do
  let length ← natural
  repeated item length []

/-- A value that may be missing. -/
def option {Item : Type} (item : Reader Item) : Reader (Option Item) := do
  let found ← byte
  if found = 0 then pure none
  else if found = 1 then pure (some (← item))
  else refuse (.notOption found.toNat)

/-- One of these values, by its number. -/
def oneOf {Value : Type} (values : List Value) : Reader Value := do
  let found ← littleEndian 4
  match values[found]? with
  | some value => pure value
  | none => refuse (.notAlternative found values.length)

/-- A constant. -/
def constant : Reader Constant := do
  match ← alternative 4 with
  | 0 => pure .unit
  | 1 => pure (.int (← integer))
  | 2 => pure (.bool (← bool))
  | _ => pure (.str (← text))

/-- The rest of an instruction, by the number of its alternative. -/
def operands : Nat → Reader Op
  | 0 => do pure (.push (← constant))
  | 1 => do pure (.load (← natural))
  | 2 => do pure (.store (← natural))
  | 3 => do pure (.loadField (← natural))
  | 4 => do pure (.storeField (← natural))
  | 5 => pure .pop
  | 6 => do pure (.unary (← oneOf UnaryOperator.all))
  | 7 => do pure (.binary (← oneOf BinaryOperator.all))
  | 8 => do pure (.makeArray (← natural))
  | 9 => pure .index
  | 10 => do
      let routine ← natural
      pure (.makeClosure routine (← natural))
  | 11 => do pure (.construct (← natural))
  | 12 => do
      let routine ← natural
      pure (.call routine (← natural))
  | 13 => do pure (.callClosure (← natural))
  | 14 => do
      let imported ← natural
      pure (.callHost imported (← natural))
  | 15 => pure .iterStart
  | 16 => do
      let slot ← natural
      pure (.iterNext slot (← natural))
  | 17 => do pure (.jump (← natural))
  | 18 => do pure (.jumpUnless (← natural))
  | _ => pure .ret

/-- An instruction. -/
def op : Reader Op := do
  operands (← alternative 20)

/-- A visibility. -/
def visibility : Reader Visibility :=
  oneOf [.everyone, .owner]

/-- A binding. -/
def binding : Reader Binding := do
  match ← alternative 3 with
  | 0 => pure .static
  | 1 => pure .onInstance
  | _ => pure (.closure (← natural))

/-- A routine. -/
def routine : Reader Routine := do
  let name ← text
  let owner ← option natural
  let visibility ← visibility
  let binding ← binding
  let arity ← natural
  let locals ← natural
  let code ← list op
  pure ⟨name, owner, visibility, binding, arity, locals, code.toArray⟩

/-- A type. -/
def typeDefinition : Reader TypeDefinition := do
  let namespaceName ← text
  let name ← text
  let fields ← list text
  let initializer ← option natural
  let methods ← list natural
  pure ⟨namespaceName, name, fields, initializer, methods⟩

/-- An import. -/
def imported : Reader Import := do
  let moduleName ← text
  let major ← short
  let minor ← short
  let function ← text
  pure ⟨moduleName, major, minor, function⟩

/-- The fields of an image. -/
def payload : Reader Image := do
  let name ← text
  let imports ← list imported
  let types ← list typeDefinition
  let routines ← list routine
  let entry ← option natural
  pure ⟨name, imports.toArray, types.toArray, routines.toArray, entry⟩

end Read

/-! ## Images -/

/-- Why bytes are not an image that can be used. -/
inductive ImageError where
  | empty
  | truncated (length : Nat)
  | badMagic (found : Bytes)
  | unsupportedVersion (found : Nat)
  | payload (error : PayloadError)
  | invalid (invalid : Invalid)
  deriving DecidableEq

namespace ImageError

/-- The message of an image error. -/
def message : ImageError → String
  | .empty => "image is empty"
  | .truncated length => s!"image too short: {length} bytes"
  | .badMagic found =>
      "bad magic: [" ++ ", ".intercalate (found.map fun byte ↦ toString byte.toNat) ++ "]"
  | .unsupportedVersion found => s!"unsupported format version {found}"
  | .payload error => "payload could not be decoded: " ++ error.text
  | .invalid (.badEntry entry) => "entry point " ++ routineText entry ++ " does not exist"
  | .invalid (.defect place defect) => "in function " ++ place ++ ": " ++ defect.text

/-- The messages of what lies behind an image error. -/
def causes : ImageError → List String
  | .payload error => [error.text]
  | _ => []

end ImageError

namespace Image

/-- The bytes that every image starts with. -/
def magic : Bytes := [70, 76, 75, 82]

/-- The version of the wire form. -/
def formatVersion : Nat := 1

/-- The wire form of an image. -/
def encode (image : Image) : Bytes :=
  magic ++ Write.littleEndian 2 formatVersion ++ Write.payload image

/-- Read the fields of an image and verify it. -/
def decodePayload (payload : Bytes) : Except ImageError Image :=
  match Read.payload payload with
  | .error error => .error (.payload error)
  | .ok (image, _) =>
      match image.verify with
      | .error invalid => .error (.invalid invalid)
      | .ok () => .ok image

/-- The image of these bytes. What lies behind the image is ignored. -/
def decode : Bytes → Except ImageError Image
  | [] => .error .empty
  | first :: second :: third :: fourth :: low :: high :: payload =>
      let found := [first, second, third, fourth]
      let version := low.toNat + 256 * high.toNat
      if found ≠ magic then .error (.badMagic found)
      else if version ≠ formatVersion then .error (.unsupportedVersion version)
      else decodePayload payload
  | short => .error (.truncated short.length)

end Image

end GuestScript.Bytecode
