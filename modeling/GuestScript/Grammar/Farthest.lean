import GuestScript.Grammar.Rule

/-!
# The farthest failure

When a text does not follow the grammar, the message names what could have stood at the farthest
place that any rule failed at. While the text is read, a `Farthest` keeps that place and the rules
that failed there. A rule whose parts failed at its own start replaces them by itself, unless
exactly one part did, which then says more than the rule would.
-/

namespace GuestScript.Grammar

/-- The farthest offset that a rule failed at, and the rules that did, the last one first. -/
structure Farthest where
  offset : Nat
  rules : List Rule

namespace Farthest

/-- Nothing has failed yet. -/
def none : Farthest := ⟨0, []⟩

/-- How many rules are on record for this offset. -/
def countAt (farthest : Farthest) (offset : Nat) : Nat :=
  if farthest.offset = offset then farthest.rules.length else 0

/-- Keep only the oldest rules. -/
def keepOldest (count : Nat) (rules : List Rule) : List Rule :=
  rules.drop (rules.length - count)

/-- Record that a rule failed at an offset where this many rules were on record before it was
tried. -/
def record (rule : Rule) (offset before : Nat) (farthest : Farthest) : Farthest :=
  if farthest.countAt offset = before + 1 then farthest
  else if offset = farthest.offset then
    ⟨offset, rule :: keepOldest before farthest.rules⟩
  else if farthest.offset < offset then ⟨offset, [rule]⟩
  else farthest

/-- The rules on record, each once and in the order of the grammar. -/
def expected (farthest : Farthest) : List Rule :=
  Rule.all.filter farthest.rules.contains

/-- Join alternatives: with "or" between two, and with commas between more. -/
def joinAlternatives (labels : List String) : String :=
  match labels.reverse with
  | [] => ""
  | [only] => only
  | [second, first] => first ++ " or " ++ second
  | last :: others => ", ".intercalate others.reverse ++ ", or " ++ last

/-- Say what was expected at the farthest place. -/
def message (farthest : Farthest) : String :=
  if farthest.expected.isEmpty then "unknown parsing error"
  else "expected " ++ joinAlternatives (farthest.expected.map Rule.label)

end Farthest

end GuestScript.Grammar
