import GuestScript.Source

/-!
# A place in the text being read

A cursor holds the characters still to be read and the number of bytes read before them. Between
two tokens `Cursor.skipGap` passes over blanks and comments; a comment that is never closed is not
a comment, so the cursor stays in front of it.
-/

namespace GuestScript.Grammar

/-- The characters still to be read, and how many bytes lie before them. -/
structure Cursor where
  offset : Nat
  rest : List Char

namespace Cursor

/-- The place before the first character. -/
def start (characters : List Char) : Cursor :=
  ⟨0, characters⟩

/-- Pass over one character, which is the first of those still to be read. -/
def past (cursor : Cursor) (character : Char) (rest : List Char) : Cursor :=
  ⟨cursor.offset + character.utf8Size, rest⟩

/-- The place behind these characters, if they are the next ones. -/
def skip? : List Char → Cursor → Option Cursor
  | [], cursor => some cursor
  | expected :: more, cursor =>
      match cursor.rest with
      | [] => none
      | found :: rest => if found = expected then skip? more (cursor.past found rest) else none

/-- Add the characters whose bytes lie before an offset to a text. -/
def collect (stop : Nat) : Nat → List Char → String → String
  | _, [], text => text
  | here, character :: rest, text =>
      if here < stop then collect stop (here + character.utf8Size) rest (text.push character)
      else text

/-- The text from here to an offset further on. -/
def textTo (cursor : Cursor) (stop : Nat) : String :=
  collect stop cursor.offset cursor.rest ""

/-- Whether a character only separates tokens. -/
def isBlank (character : Char) : Bool :=
  character = ' ' || character = '\t' || character = '\r' || character = '\n'

/-- What lies between two tokens: blanks, a comment to the end of the line, or a bracketed comment
that may still turn out not to be closed and then ends the gap where it started. -/
inductive Gap where
  | blanks
  | lineComment
  | bracketComment (opening : Cursor)

/-- The end of the gap that starts here. The characters are those of the cursor; a bracketed
comment that is still open at the end of the text was no comment. -/
@[grind =]
def gapEnd : Gap → Nat → List Char → Cursor
  | .blanks, offset, '/' :: '/' :: rest => gapEnd .lineComment (offset + 2) rest
  | .blanks, offset, '/' :: '*' :: rest =>
      gapEnd (.bracketComment ⟨offset, '/' :: '*' :: rest⟩) (offset + 2) rest
  | .blanks, offset, character :: rest =>
      if isBlank character then gapEnd .blanks (offset + 1) rest else ⟨offset, character :: rest⟩
  | .lineComment, offset, character :: rest =>
      if character = '\n' then gapEnd .blanks (offset + 1) rest
      else gapEnd .lineComment (offset + character.utf8Size) rest
  | .bracketComment _, offset, '*' :: '/' :: rest => gapEnd .blanks (offset + 2) rest
  | .bracketComment opening, offset, character :: rest =>
      gapEnd (.bracketComment opening) (offset + character.utf8Size) rest
  | .blanks, offset, [] => ⟨offset, []⟩
  | .lineComment, offset, [] => ⟨offset, []⟩
  | .bracketComment opening, _, [] => opening

/-- The place behind the blanks and comments that start here. -/
def skipGap (cursor : Cursor) : Cursor :=
  gapEnd .blanks cursor.offset cursor.rest

end Cursor

end GuestScript.Grammar
