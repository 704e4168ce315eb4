import GuestScript.Grammar.Cursor
import GuestScript.Grammar.Farthest
import GuestScript.Grammar.Pattern

/-!
# Reading a text by the grammar

`run` matches a pattern against the text at a cursor and builds a tree with one node for each rule
that took part. Tokens are the leaves of the tree and carry their text. The matcher spends one
unit of fuel for each level of nesting and each repetition; `fuelFor` is far more than a text can
use up, and `readFile` hides it.
-/

namespace GuestScript.Grammar

/-- What a rule matched: a token with its text, or a rule with the rules inside it. -/
inductive Node where
  | leaf (rule : Rule) (span : Span) (text : String)
  | branch (rule : Rule) (span : Span) (children : List Node)

namespace Node

/-- The rule that matched. -/
def rule : Node → Rule
  | .leaf rule .. => rule
  | .branch rule .. => rule

/-- The part of the text that the rule matched. A rule that ends with something optional may
include the gap in front of what was not there. -/
def span : Node → Span
  | .leaf _ span _ => span
  | .branch _ span _ => span

end Node

/-- A state of the matcher: where it is, the nodes it has made, the newest first, and the farthest
failure so far. -/
structure Progress where
  cursor : Cursor
  nodes : List Node
  farthest : Farthest

/-- A pattern either matches and moves on, or fails and leaves only its failures on record. -/
inductive Outcome where
  | matched (progress : Progress)
  | failed (farthest : Farthest)

namespace Progress

/-- Move on to another place. -/
def moveTo (progress : Progress) (cursor : Cursor) : Progress :=
  { progress with cursor }

/-- Pass over the gap between two parts, where the mode allows one. -/
def skipGap (mode : Mode) (progress : Progress) : Progress :=
  match mode with
  | .spaced => progress.moveTo progress.cursor.skipGap
  | _ => progress

/-- The node of a rule that matched from here to there. -/
def nodeFor (rule : Rule) (before after : Progress) : Node :=
  let span : Span := ⟨before.cursor.offset, after.cursor.offset⟩
  match rule.mode with
  | .atomic => .leaf rule span (before.cursor.textTo span.stop)
  | _ => .branch rule span after.nodes.reverse

/-- Add the node of a rule that matched from here to there. -/
def close (rule : Rule) (before after : Progress) : Progress :=
  ⟨after.cursor, nodeFor rule before after :: before.nodes, after.farthest⟩

/-- The failure of a pattern here. -/
def fail (progress : Progress) : Outcome :=
  .failed progress.farthest

/-- Go on at a place, or fail if there is none. -/
def orFail (progress : Progress) : Option Cursor → Outcome
  | some cursor => .matched (progress.moveTo cursor)
  | none => progress.fail

/-- Pass over one character of a class. -/
def one (progress : Progress) (accepts : Char → Bool) : Outcome :=
  match progress.cursor.rest with
  | [] => progress.fail
  | character :: rest =>
      if accepts character then .matched (progress.moveTo (progress.cursor.past character rest))
      else progress.fail

/-- Match nothing, where a condition holds. -/
def require (progress : Progress) (condition : Bool) : Outcome :=
  if condition then .matched progress else progress.fail

end Progress

mutual

/-- Match a pattern. Inside a token, and when only looking ahead, rules leave no trace: neither a
node nor a failure on record. The answer is `none` only if the fuel runs out. -/
@[grind =]
def run : Nat → Mode → Pattern → Progress → Option Outcome
  | 0, _, _, _ => none
  | _ + 1, _, .text characters, progress =>
      some (progress.orFail (progress.cursor.skip? characters))
  | _ + 1, _, .one accepts, progress => some (progress.one accepts)
  | fuel + 1, .atomic, .rule rule, progress => run fuel .atomic rule.body progress
  | fuel + 1, _, .rule rule, progress =>
      let before := progress.farthest.countAt progress.cursor.offset
      match run fuel rule.mode rule.body { progress with nodes := [] } with
      | none => none
      | some (.matched after) => some (.matched (progress.close rule after))
      | some (.failed farthest) =>
          some (.failed (farthest.record rule progress.cursor.offset before))
  | fuel + 1, mode, .sequence first second, progress =>
      match run fuel mode first progress with
      | some (.matched after) => run fuel mode second (after.skipGap mode)
      | other => other
  | fuel + 1, mode, .choice first second, progress =>
      match run fuel mode first progress with
      | some (.failed farthest) => run fuel mode second { progress with farthest }
      | other => other
  | fuel + 1, mode, .optional inner, progress =>
      match run fuel mode inner progress with
      | some (.failed farthest) => some (.matched { progress with farthest })
      | other => other
  | fuel + 1, mode, .many inner, progress =>
      match run fuel mode inner progress with
      | some (.failed farthest) => some (.matched { progress with farthest })
      | some (.matched after) => runMore fuel mode inner after
      | none => none
  | fuel + 1, _, .unless inner, progress =>
      match run fuel .atomic inner progress with
      | none => none
      | some (.matched _) => some progress.fail
      | some (.failed _) => some (.matched progress)
  | _ + 1, _, .startOfText, progress => some (progress.require (progress.cursor.offset = 0))
  | _ + 1, _, .endOfText, progress => some (progress.require progress.cursor.rest.isEmpty)

/-- Match a pattern as often as it matches, with a gap before each time. -/
@[grind =]
def runMore : Nat → Mode → Pattern → Progress → Option Outcome
  | 0, _, _, _ => none
  | fuel + 1, mode, inner, progress =>
      match run fuel mode inner (progress.skipGap mode) with
      | none => none
      | some (.failed farthest) => some (.matched { progress with farthest })
      | some (.matched after) => runMore fuel mode inner after

end

/-- Fuel for a text of this many characters. No chain of rules and patterns without a character
read in between is nearly as long as the factor. -/
def fuelFor (characters : Nat) : Nat :=
  1000 * (characters + 1)

/-- Read a whole file. The answer is its tree, or the farthest failure. -/
def readFile (text : String) : Except Farthest Node :=
  let characters := text.toList
  let beginning : Progress := ⟨.start characters, [], .none⟩
  match run (fuelFor characters.length) .spaced (.rule .file) beginning with
  | some (.matched { nodes := [file], .. }) => .ok file
  | some (.matched progress) => .error progress.farthest
  | some (.failed farthest) => .error farthest
  | none => .error .none

end GuestScript.Grammar
