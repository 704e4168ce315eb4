/-!
# Text as bytes

`Utf8.encode` writes a text as UTF-8 and `Utf8.decode` reads it back. Reading refuses every byte
sequence that is not the form of some text, and says where the refused sequence starts and how many
of its bytes could still have been the start of a character.
-/

namespace GuestScript.Utf8

/-- Why bytes are not a text: a sequence that starts no character, or one that the end of the bytes
cuts short. -/
inductive Problem where
  | invalid (length : Nat) (index : Nat)
  | incomplete (index : Nat)
  deriving DecidableEq

/-- The message of a problem. -/
def Problem.text : Problem → String
  | .invalid length index => s!"invalid utf-8 sequence of {length} bytes from index {index}"
  | .incomplete index => s!"incomplete utf-8 byte sequence from index {index}"

/-- The bytes of a text. -/
def encode (text : String) : List UInt8 :=
  text.toList.flatMap String.utf8EncodeChar

/-- Whether a byte continues a character that an earlier byte started. -/
def isContinuation (byte : UInt8) : Bool :=
  0x80 ≤ byte && byte ≤ 0xBF

/-- Whether a byte may follow the first byte of a character of three bytes. Shorter forms exist
for what the others would spell, or it would be a surrogate. -/
def mayFollowOfThree (first second : UInt8) : Bool :=
  if first = 0xE0 then 0xA0 ≤ second && second ≤ 0xBF
  else if first = 0xED then 0x80 ≤ second && second ≤ 0x9F
  else isContinuation second

/-- Whether a byte may follow the first byte of a character of four bytes. A shorter form exists
for what the others would spell, or it would lie behind the last character. -/
def mayFollowOfFour (first second : UInt8) : Bool :=
  if first = 0xF0 then 0x90 ≤ second && second ≤ 0xBF
  else if first = 0xF4 then 0x80 ≤ second && second ≤ 0x8F
  else isContinuation second

/-- The six bits that a continuation byte adds. -/
def payload (byte : UInt8) : Nat :=
  byte.toNat % 64

/-- The character of two bytes. -/
def ofTwo (first second : UInt8) : Char :=
  Char.ofNat (first.toNat % 32 * 64 + payload second)

/-- The character of three bytes. -/
def ofThree (first second third : UInt8) : Char :=
  Char.ofNat ((first.toNat % 16 * 64 + payload second) * 64 + payload third)

/-- The character of four bytes. -/
def ofFour (first second third fourth : UInt8) : Char :=
  Char.ofNat
    (((first.toNat % 8 * 64 + payload second) * 64 + payload third) * 64 + payload fourth)

/-- Read bytes that stand at an index, behind a text that was read before them. -/
def decodeFrom : List UInt8 → Nat → String → Except Problem String
  | [], _, text => .ok text
  | first :: rest, index, text =>
      if first < 0x80 then decodeFrom rest (index + 1) (text.push (Char.ofNat first.toNat))
      else if 0xC2 ≤ first && first ≤ 0xDF then
        match rest with
        | [] => .error (.incomplete index)
        | second :: rest =>
            if isContinuation second then
              decodeFrom rest (index + 2) (text.push (ofTwo first second))
            else .error (.invalid 1 index)
      else if 0xE0 ≤ first && first ≤ 0xEF then
        match rest with
        | [] => .error (.incomplete index)
        | second :: rest =>
            if mayFollowOfThree first second then
              match rest with
              | [] => .error (.incomplete index)
              | third :: rest =>
                  if isContinuation third then
                    decodeFrom rest (index + 3) (text.push (ofThree first second third))
                  else .error (.invalid 2 index)
            else .error (.invalid 1 index)
      else if 0xF0 ≤ first && first ≤ 0xF4 then
        match rest with
        | [] => .error (.incomplete index)
        | second :: rest =>
            if mayFollowOfFour first second then
              match rest with
              | [] => .error (.incomplete index)
              | third :: rest =>
                  if isContinuation third then
                    match rest with
                    | [] => .error (.incomplete index)
                    | fourth :: rest =>
                        if isContinuation fourth then
                          decodeFrom rest (index + 4) (text.push (ofFour first second third fourth))
                        else .error (.invalid 3 index)
                  else .error (.invalid 2 index)
            else .error (.invalid 1 index)
      else .error (.invalid 1 index)

/-- The text of these bytes. -/
def decode (bytes : List UInt8) : Except Problem String :=
  decodeFrom bytes 0 ""

end GuestScript.Utf8
