import GuestScript.Syntax.Problem
import Mathlib.Algebra.Group.Nat.Defs

/-!
# The values of literals

Integer literals are decimal and have to fit 64 bits with a sign. The text between the quotes of a
string stands for itself, but for a backslash and the character behind it, which together stand for
one character; a pair that stands for nothing is left out and is a problem.
-/

namespace GuestScript.Syntax.Literal

/-- The number that decimal digits stand for. -/
def naturalOf (digits : List Char) : Nat :=
  digits.foldl (fun value digit ↦ value * 10 + (digit.toNat - '0'.toNat)) 0

/-- The value of an integer literal. One that does not fit is a problem and counts as zero. -/
def integer (digits : String) (span : Span) : Int64 × List Problem :=
  let value := naturalOf digits.toList
  if value < 2 ^ 63 then (Int64.ofNat value, [])
  else (0, [.integerOutOfRange digits span])

/-- The character that a backslash and this character stand for. -/
def escaped? : Char → Option Char
  | 'n' => some '\n'
  | 't' => some '\t'
  | '0' => some '\x00'
  | '\\' => some '\\'
  | '"' => some '"'
  | _ => none

/-- Read the inside of a string literal, behind a value and the problems (the newest first) that
were read before it. -/
@[grind =]
def unescape (span : Span) : List Char → String → List Problem → String × List Problem
  | [], value, problems => (value, problems.reverse)
  | '\\' :: [], value, problems => (value, (.unknownEscape ' ' span :: problems).reverse)
  | '\\' :: character :: rest, value, problems =>
      match escaped? character with
      | some meant => unescape span rest (value.push meant) problems
      | none => unescape span rest value (.unknownEscape character span :: problems)
  | character :: rest, value, problems => unescape span rest (value.push character) problems

/-- The text that the inside of a string literal stands for. -/
def string (body : String) (span : Span) : String × List Problem :=
  unescape span body.toList "" []

end GuestScript.Syntax.Literal
