import GuestScript.Syntax.Assembly

/-!
# Parsing a source unit

`parse` gives the syntax tree of a source unit, or the diagnostics that say why it has none: one
diagnostic if the text does not follow the grammar, and otherwise one for each problem that applies
to the version of the unit.
-/

namespace GuestScript.Syntax

open Grammar (Farthest)

/-- The diagnostic for a text that does not follow the grammar. -/
def syntaxError (source : SourceUnit) (farthest : Farthest) : Diagnostic Span :=
  let found :=
    if farthest.offset = source.text.utf8ByteSize then "end of input" else "unexpected input"
  .error .syntaxError (farthest.message ++ "; found " ++ found)
    ⟨farthest.offset, farthest.offset⟩

/-- The diagnostic for a rule tree without a meaning, which the grammar never produces. -/
def emptyParse : Diagnostic Span :=
  ⟨.error, .syntaxError, "empty parse", none, false⟩

/-- The syntax tree of a source unit, or what is wrong with it, in terms of spans. -/
def parseSpans (source : SourceUnit) : Except (List (Diagnostic Span)) File :=
  match Grammar.readFile source.text with
  | .error farthest => .error [syntaxError source farthest]
  | .ok node =>
      match Assembly.fileOf node with
      | none => .error [emptyParse]
      | some (file, problems) =>
          match problems.filter (Problem.appliesTo source.version) with
          | [] => .ok file
          | applicable => .error (applicable.map (Problem.diagnostic source.version))

/-- The syntax tree of a source unit, or what is wrong with it. -/
def parse (source : SourceUnit) : Except (List (Diagnostic Location)) File :=
  match parseSpans source with
  | .ok file => .ok file
  | .error diagnostics => .error (diagnostics.map (Diagnostic.relocate source.locate))

end GuestScript.Syntax
