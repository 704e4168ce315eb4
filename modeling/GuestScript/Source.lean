/-!
# Source text, versions and positions

A source unit is a text together with the language version it is written for. Positions in the
text are byte offsets into its UTF-8 form; a `Span` is a half-open range of them, and
`SourceUnit.locate` turns the start of a span into the line and column that a reader counts.
-/

namespace GuestScript

/-- A revision of the language. Each revision admits every program of the earlier ones. -/
inductive LanguageVersion where
  | v1
  | v2
  deriving DecidableEq

namespace LanguageVersion

/-- The revision that a source is written for when it does not say. -/
def latest : LanguageVersion := .v2

/-- The number of a revision; a later revision has a greater one. -/
def number : LanguageVersion → Nat
  | .v1 => 1
  | .v2 => 2

/-- The name of a revision, such as `v2`. -/
def text (version : LanguageVersion) : String :=
  s!"v{version.number}"

/-- Whether a source of one version may use what another version introduced. -/
def includes (version needed : LanguageVersion) : Bool :=
  needed.number ≤ version.number

/-- Read the name of a revision: its number with or without a leading `v`, or `latest`. -/
def ofText (name : String) : Except String LanguageVersion :=
  if name = "v1" ∨ name = "1" then .ok .v1
  else if name = "v2" ∨ name = "2" ∨ name = "latest" then .ok .v2
  else .error s!"unknown language version: {name}"

end LanguageVersion

/-- A half-open range of byte offsets. -/
structure Span where
  start : Nat
  stop : Nat
  deriving DecidableEq

/-- The smallest span that covers two spans. -/
def Span.cover (first second : Span) : Span :=
  ⟨min first.start second.start, max first.stop second.stop⟩

/-- A line and a column, both counted from one; a column is one character wide. -/
structure Location where
  line : Nat
  column : Nat
  deriving DecidableEq

namespace Location

/-- The written form, line before column. -/
def text (location : Location) : String :=
  s!"{location.line}:{location.column}"

/-- The location of the first character of a text. -/
def origin : Location := ⟨1, 1⟩

/-- The location after a character. Only the line feed ends a line, so a carriage return before
it is the last column of its line, and one on its own is a column like any other. -/
def after (location : Location) (character : Char) : Location :=
  if character = '\n' then ⟨location.line + 1, 1⟩ else ⟨location.line, location.column + 1⟩

/-- Walk this many bytes over the characters and say where the walk ends. A walk that runs out of
characters ends after the last one; a walk that ends inside a character has no location. -/
def walk : List Char → Nat → Location → Option Location
  | _, 0, here => some here
  | [], _ + 1, here => some here
  | character :: rest, bytes + 1, here =>
      if bytes + 1 < character.utf8Size then none
      else walk rest (bytes + 1 - character.utf8Size) (here.after character)

end Location

/-- A text submitted to the compiler, and the version it is written for. -/
structure SourceUnit where
  text : String
  version : LanguageVersion := .latest

/-- Where a span starts. An offset behind the text counts as its end, and an offset inside a
character counts as the start of the text. -/
def SourceUnit.locate (source : SourceUnit) (span : Span) : Location :=
  (Location.walk source.text.toList span.start .origin).getD .origin

end GuestScript
