import GuestScript.Proofs.Grammar.Derivations
import GuestScript.Proofs.Grammar.LockStep

/-!
# String literals in a text

A match of a string literal passes over a quote, a closed row of characters and another quote, and its
node holds just these characters: `stringLiteral_of_run`. No other expression starts with a quote, so
where a quoted row of characters stands the matcher takes it as a whole, whatever stands behind it:
`run_expression_of_quoted`. And nothing but quoted rows of characters become string literals in the
tree of a text: `isWritten_of_readFile`.
-/

namespace GuestScript.Grammar

open Pattern

/-- How many bytes characters take. -/
def bytesOf (characters : List Char) : Nat :=
  (characters.map Char.utf8Size).sum

/-- Characters between two quotes. -/
def quoted (body : List Char) : List Char :=
  '"' :: (body ++ ['"'])

/-- A piece of a text stands at a span. -/
def StandsAt (text piece : List Char) (span : Span) : Prop :=
  ∃ before after, text = before ++ (piece ++ after) ∧
    span = ⟨bytesOf before, bytesOf before + bytesOf piece⟩

/-- The node of a string literal with these characters between its quotes. -/
def Node.ofString (span : Span) (body : List Char) : Node :=
  .branch .stringLiteral span
    [.leaf .stringBody ⟨span.start + 1, span.stop - 1⟩ (String.ofList body)]

/-! ## A match of a string literal -/

section Peeling

variable {fuel : Nat} {mode : Mode} {before after : Progress}

theorem run_rule_matched (outside : mode ≠ .atomic) {name : Rule}
    (ran : run fuel mode (.rule name) before = some (.matched after)) :
    ∃ less inside, run less name.mode name.body { before with nodes := [] } =
      some (.matched inside) ∧ after = before.close name inside := by
  obtain ⟨less, result, inside, ran⟩ := run_rule_eq_some outside ran
  obtain ⟨_, _, ran⟩ | ⟨last, same, ran⟩ := resume_cases ran
  · exact absurd ran nofun
  · exact ⟨less, last, inside.trans same, (Outcome.matched.inj (Option.some.inj ran)).symm⟩

theorem run_sequence_matched {first second : Pattern}
    (ran : run fuel mode (.sequence first second) before = some (.matched after)) :
    ∃ less middle, run less mode first before = some (.matched middle) ∧
      run less mode second (middle.skipGap mode) = some (.matched after) := by
  obtain ⟨less, result, start, ran⟩ := run_sequence_eq_some ran
  obtain ⟨_, _, ran⟩ | ⟨middle, same, ran⟩ := resume_cases ran
  · cases ran
  · exact ⟨less, middle, start.trans same, ran⟩

theorem run_choice_eq_some {first second : Pattern} {outcome : Outcome}
    (ran : run fuel mode (.choice first second) before = some outcome) :
    ∃ less result, run less mode first before = some result ∧
      resume (fun farthest ↦ run less mode second { before with farthest })
        (fun after ↦ some (.matched after)) (some result) = some outcome := by
  cases fuel with
  | zero => exact absurd ran nofun
  | succ fuel =>
      rw [run_choice] at ran
      exact ⟨fuel, resume_eq_some ran⟩

theorem matched_of_runMore : (fuel : Nat) → {inner : Pattern} → {before : Progress} →
    {outcome : Outcome} → runMore fuel mode inner before = some outcome →
    ∃ after, outcome = .matched after
  | 0, _, _, _, ran => absurd ran nofun
  | fuel + 1, inner, before, outcome, ran => by
      rw [runMore_succ] at ran
      obtain ⟨farthest, _, ran⟩ | ⟨middle, _, ran⟩ := resume_cases ran
      · exact ⟨_, (Option.some.inj ran).symm⟩
      · exact matched_of_runMore fuel ran

theorem matched_of_run_many {inner : Pattern} {outcome : Outcome}
    (ran : run fuel mode (.many inner) before = some outcome) :
    ∃ after, outcome = .matched after := by
  cases fuel with
  | zero => exact absurd ran nofun
  | succ fuel =>
      rw [run_many] at ran
      obtain ⟨farthest, _, ran⟩ | ⟨middle, _, ran⟩ := resume_cases ran
      · exact ⟨_, (Option.some.inj ran).symm⟩
      · exact matched_of_runMore fuel ran

end Peeling

section Inside

variable {fuel : Nat} {progress : Progress} {outcome : Outcome}

theorem run_stringPart_end (next : progress.cursor.rest = [])
    (ran : run fuel .atomic .stringPart progress = some outcome) : outcome = progress.fail := by
  rcases fuel with _ | _ | _ | _ | _ | fuel <;>
    simp [run, stringPart, oneOf, inOrder, word, Pattern.any, oneOfWords, Progress.orFail,
      Cursor.skip?, next, Progress.fail, Progress.one, Progress.skipGap] at ran ⊢
  all_goals exact ran.symm

theorem run_stringPart_slash (next : progress.cursor.rest = ['\\'])
    (ran : run fuel .atomic .stringPart progress = some outcome) : outcome = progress.fail := by
  rcases fuel with _ | _ | _ | _ | _ | fuel <;>
    simp [run, stringPart, oneOf, inOrder, word, Pattern.any, oneOfWords, Progress.orFail,
      Cursor.skip?, next, Progress.fail, Progress.one, Progress.skipGap, Progress.moveTo,
      Cursor.past] at ran ⊢
  all_goals exact ran.symm

end Inside

/-- What is read of the inside of a string is closed. -/
theorem stringBody_of_runMore : (fuel : Nat) → {before after : Progress} →
    runMore fuel .atomic .stringPart before = some (.matched after) →
    ∃ body, IsStringBody body ∧ Cursor.Reads body before.cursor after.cursor ∧
      after.nodes = before.nodes
  | 0, _, _, ran => absurd ran nofun
  | fuel + 1, before, after, ran => by
      rw [runMore_succ] at ran
      obtain ⟨farthest, _, ran⟩ | ⟨middle, part, ran⟩ := resume_cases ran
      · obtain rfl := Outcome.matched.inj (Option.some.inj ran)
        exact ⟨[], .nil, .refl _, rfl⟩
      obtain ⟨body, closed, reads, nodes⟩ := stringBody_of_runMore fuel ran
      have part : run fuel .atomic .stringPart before = some (.matched middle) := part
      match next : before.cursor.rest with
      | [] => exact absurd (run_stringPart_end next part) nofun
      | character :: rest =>
          by_cases quote : character = '"'
          · subst quote
            exact absurd (run_stringPart_quote next part) nofun
          by_cases slash : character = '\\'
          · subst slash
            cases rest with
            | nil => exact absurd (run_stringPart_slash next part) nofun
            | cons mark rest =>
                obtain rfl := Outcome.matched.inj (run_stringPart_escaped next part)
                have pair := (Cursor.Reads.past before.cursor next).trans (.past _ rfl)
                exact ⟨'\\' :: mark :: body, .escaped mark closed, pair.trans reads, nodes⟩
          obtain rfl := Outcome.matched.inj (run_stringPart_plain quote slash next part)
          have here := Cursor.Reads.past before.cursor next
          exact ⟨character :: body, .plain quote slash closed, here.trans reads, nodes⟩

theorem quote_of_run {fuel : Nat} {before after : Progress}
    (ran : run fuel .tight (.word "\"") before = some (.matched after)) :
    Cursor.Reads ['"'] before.cursor after.cursor ∧ after.nodes = before.nodes := by
  cases fuel with
  | zero => exact absurd ran nofun
  | succ fuel =>
      rw [word, run] at ran
      obtain ⟨⟨characters, spelled, reads⟩, nodes⟩ := readsToken_orFail (Option.some.inj ran)
      obtain rfl := spells_text.mp spelled
      exact ⟨reads, nodes⟩

/-- A match of a string literal reads a quoted row of characters, and its node holds them. -/
theorem stringLiteral_of_run {fuel : Nat} {mode : Mode} (outside : mode ≠ .atomic)
    {before after : Progress}
    (ran : run fuel mode (.rule .stringLiteral) before = some (.matched after)) :
    ∃ body, IsStringBody body ∧ Cursor.Reads (quoted body) before.cursor after.cursor ∧
      after.nodes =
        .ofString ⟨before.cursor.offset, after.cursor.offset⟩ body :: before.nodes := by
  obtain ⟨_, last, whole, rfl⟩ := run_rule_matched outside ran
  obtain ⟨_, opened, opening, whole⟩ := run_sequence_matched whole
  obtain ⟨_, middle, inside, closing⟩ := run_sequence_matched whole
  obtain ⟨_, behind, parts, rfl⟩ := run_rule_matched (by decide) inside
  have parts : run _ .atomic (.many .stringPart) { opened with nodes := [] } =
    some (.matched behind) := parts
  rw [run_many_inToken] at parts
  obtain ⟨first, nodes⟩ := quote_of_run opening
  obtain ⟨body, closed, reads, -⟩ := stringBody_of_runMore _ parts
  obtain ⟨final, kept⟩ := quote_of_run closing
  refine ⟨body, closed, first.trans (reads.trans final), ?_⟩
  have text : opened.cursor.textTo behind.cursor.offset = String.ofList body := reads.textTo
  have start : opened.cursor.offset = before.cursor.offset + 1 := first.offset
  have stop : last.cursor.offset = behind.cursor.offset + 1 := final.offset
  have token : Progress.nodeFor .stringBody opened behind =
      .leaf .stringBody ⟨before.cursor.offset + 1, last.cursor.offset - 1⟩ (String.ofList body) := by
    rw [stop, Nat.add_sub_cancel, ← start, ← text]
    rfl
  have children : last.nodes = [Progress.nodeFor .stringBody opened behind] :=
    kept.trans (congrArg (Progress.nodeFor .stringBody opened behind :: ·) nodes)
  show .branch .stringLiteral ⟨before.cursor.offset, last.cursor.offset⟩ last.nodes.reverse ::
    before.nodes = _
  rw [children, token]
  rfl

/-! ## Where a quote stands -/

/-- A pattern never matches where this character comes next. -/
def Pattern.Refuses (character : Char) (pattern : Pattern) : Prop :=
  ∀ fuel mode progress rest outcome, run fuel mode pattern progress = some outcome →
    progress.cursor.rest = character :: rest → ∃ farthest, outcome = .failed farthest

namespace Pattern.Refuses

variable {character : Char} {first second : Pattern}

theorem text {expected : Char} {more : List Char} (differs : character ≠ expected) :
    Refuses character (.text (expected :: more)) := by
  intro fuel mode progress rest outcome ran next
  cases fuel with
  | zero => exact absurd ran nofun
  | succ fuel =>
      have skipped : progress.cursor.skip? (expected :: more) = none := by
        rw [Cursor.skip?, next]
        exact if_neg differs
      rw [run, skipped] at ran
      exact ⟨_, (Option.some.inj ran).symm⟩

theorem one {accepts : Char → Bool} (outside : accepts character = false) :
    Refuses character (.one accepts) := by
  intro fuel mode progress rest outcome ran next
  cases fuel with
  | zero => exact absurd ran nofun
  | succ fuel =>
      rw [run, Progress.one, next] at ran
      simp only [outside, Bool.false_eq_true, if_false, Option.some.injEq] at ran
      exact ⟨_, ran.symm⟩

theorem rule {name : Rule} (refuses : Refuses character name.body) :
    Refuses character (.rule name) := by
  intro fuel mode progress rest outcome ran next
  by_cases inside : mode = .atomic
  · subst inside
    cases fuel with
    | zero => exact absurd ran nofun
    | succ fuel => exact refuses _ _ _ _ _ ran next
  · obtain ⟨_, result, body, ran⟩ := run_rule_eq_some inside ran
    obtain ⟨farthest, rfl⟩ := refuses _ _ _ _ _ body next
    exact ⟨_, (Option.some.inj ran).symm⟩

theorem sequence (refuses : Refuses character first) :
    Refuses character (.sequence first second) := by
  intro fuel mode progress rest outcome ran next
  obtain ⟨_, result, start, ran⟩ := run_sequence_eq_some ran
  obtain ⟨farthest, rfl⟩ := refuses _ _ _ _ _ start next
  exact ⟨_, (Option.some.inj ran).symm⟩

/-- Where the first of two alternatives refuses, the second is tried at the same place. -/
theorem run_second (refuses : Refuses character first) {fuel : Nat} {mode : Mode}
    {progress : Progress} {rest : List Char} {outcome : Outcome}
    (ran : run fuel mode (.choice first second) progress = some outcome)
    (next : progress.cursor.rest = character :: rest) :
    ∃ less farthest, run less mode second { progress with farthest } = some outcome := by
  cases fuel with
  | zero => exact absurd ran nofun
  | succ fuel =>
      rw [run_choice] at ran
      obtain ⟨farthest, _, ran⟩ | ⟨after, start, _⟩ := resume_cases ran
      · exact ⟨fuel, farthest, ran⟩
      · obtain ⟨_, same⟩ := refuses _ _ _ _ _ start next
        exact absurd same nofun

theorem choice (refuses : Refuses character first) (refuses' : Refuses character second) :
    Refuses character (.choice first second) := by
  intro fuel mode progress rest outcome ran next
  obtain ⟨_, _, ran⟩ := refuses.run_second ran next
  exact refuses' _ _ _ _ _ ran next

/-- What is repeated does not even match once. -/
theorem run_many (refuses : Refuses character first) {fuel : Nat} {mode : Mode}
    {progress : Progress} {rest : List Char} {outcome : Outcome}
    (ran : run fuel mode (.many first) progress = some outcome)
    (next : progress.cursor.rest = character :: rest) :
    ∃ farthest, outcome = .matched { progress with farthest } := by
  cases fuel with
  | zero => exact absurd ran nofun
  | succ fuel =>
      rw [Grammar.run_many] at ran
      obtain ⟨farthest, _, ran⟩ | ⟨after, start, _⟩ := resume_cases ran
      · exact ⟨farthest, (Option.some.inj ran).symm⟩
      · obtain ⟨_, same⟩ := refuses _ _ _ _ _ start next
        exact absurd same nofun

end Pattern.Refuses

/-! ### What does not start with a quote -/

theorem lambda_refuses : Refuses '"' (.rule .lambda) :=
  Refuses.rule (.sequence (.text (by decide)))

theorem newExpression_refuses : Refuses '"' (.rule .newExpression) :=
  Refuses.rule (.sequence (.rule (.sequence (.text (by decide)))))

theorem integerLiteral_refuses : Refuses '"' (.rule .integerLiteral) :=
  Refuses.rule (.sequence (.one (by decide)))

theorem unaryOperator_refuses : Refuses '"' unaryOperator :=
  Refuses.choice (.rule (.text (by decide))) (.rule (.text (by decide)))

/-! ### What a quote starts -/

/-- The node of a string literal as an expression. -/
def Node.ofLiteral (span : Span) (body : List Char) : Node :=
  .branch .literal span [.ofString span body]

/-- A quoted row of characters that may stand in a text comes next, and then this. -/
structure IsAhead (body follow : List Char) (progress : Progress) : Prop where
  closed : IsStringBody body
  next : progress.cursor.rest = quoted body ++ follow

/-- The span of a quoted row of characters that comes next. -/
def Progress.spanOf (progress : Progress) (body : List Char) : Span :=
  ⟨progress.cursor.offset, progress.cursor.offset + bytesOf (quoted body)⟩

/-- A quoted row of characters that came next has been passed over, and has become this node. -/
structure Passes (body follow : List Char) (node : Node) (before after : Progress) : Prop where
  cursor : after.cursor = ⟨(before.spanOf body).stop, follow⟩
  nodes : after.nodes = node :: before.nodes

section Quote

variable {fuel : Nat} {mode : Mode} {progress : Progress} {outcome : Outcome}
  {body follow : List Char}

theorem IsAhead.rest_eq (ahead : IsAhead body follow progress) :
    progress.cursor.rest = '"' :: (body ++ '"' :: follow) := by
  rw [ahead.next, quoted, List.cons_append, List.append_assoc, List.singleton_append]

theorem IsAhead.skipGap (ahead : IsAhead body follow progress) :
    progress.skipGap .spaced = progress := by
  have settled : isSettled progress.cursor.rest = true := by
    rw [ahead.rest_eq]
    rfl
  rw [Progress.skipGap, Progress.moveTo, Cursor.skipGap, gapEnd_of_isSettled settled]

/-- A rule that matches no more than a quoted row of characters has one node inside its own. -/
theorem Passes.close {node : Node} {after : Progress} {name : Rule} {farthest : Farthest}
    (spaced : name.mode = .spaced)
    (passes : Passes body follow node { progress with nodes := [], farthest } after) :
    Passes body follow (.branch name (progress.spanOf body) [node]) progress
      (progress.close name after) := by
  refine ⟨passes.cursor, ?_⟩
  rw [Progress.close, Progress.nodeFor, spaced, passes.nodes, passes.cursor]
  rfl

theorem run_stringLiteral_of_isAhead
    (ran : run fuel .spaced (.rule .stringLiteral) progress = some outcome)
    (ahead : IsAhead body follow progress) :
    ∃ after, outcome = .matched after ∧
      Passes body follow (.ofString (progress.spanOf body) body) progress after := by
  obtain ⟨after, rfl, last, -⟩ := run_stringLiteral ahead.closed ahead.rest_eq ran
  obtain ⟨body', closed, reads, nodes⟩ := stringLiteral_of_run (by decide) ran
  have same : quoted body' ++ follow = quoted body ++ follow := by
    rw [← last, ← reads.rest, ahead.next, last]
  obtain rfl : body' = body := by
    simpa only [quoted, List.cons_append, List.append_assoc, List.cons.injEq, true_and,
      List.append_left_inj] using same
  have stop : after.cursor.offset = (progress.spanOf body').stop := reads.offset
  rw [stop] at nodes
  exact ⟨after, rfl, by rw [← stop, ← last], nodes⟩

theorem run_literal_of_isAhead
    (ran : run fuel .spaced (.rule .literal) progress = some outcome)
    (ahead : IsAhead body follow progress) :
    ∃ after, outcome = .matched after ∧
      Passes body follow (.ofLiteral (progress.spanOf body) body) progress after := by
  obtain ⟨_, result, inside, ran⟩ := run_rule_eq_some (by decide) ran
  obtain ⟨_, farthest, inside⟩ := integerLiteral_refuses.run_second inside ahead.rest_eq
  obtain ⟨_, literal, inside, goes⟩ := run_choice_eq_some inside
  obtain ⟨after, rfl, passes⟩ := run_stringLiteral_of_isAhead inside ⟨ahead.closed, ahead.next⟩
  obtain rfl := Option.some.inj goes
  exact ⟨_, (Option.some.inj ran).symm, passes.close rfl⟩

/-- Where a quoted row of characters comes next, the matcher takes it for an expression by itself,
whatever stands behind it. -/
theorem run_primary_of_isAhead
    (ran : run fuel .spaced primary progress = some outcome)
    (ahead : IsAhead body follow progress) :
    ∃ after, outcome = .matched after ∧
      Passes body follow (.ofLiteral (progress.spanOf body) body) progress after := by
  obtain ⟨_, farthest, ran⟩ := lambda_refuses.run_second ran ahead.rest_eq
  obtain ⟨_, farthest, ran⟩ := newExpression_refuses.run_second ran ahead.rest_eq
  obtain ⟨_, result, literal, goes⟩ := run_choice_eq_some ran
  obtain ⟨after, rfl, passes⟩ := run_literal_of_isAhead literal ⟨ahead.closed, ahead.next⟩
  exact ⟨after, (Option.some.inj goes).symm, passes.cursor, passes.nodes⟩

/-- What is repeated never fails, and adds nodes behind those there are. -/
theorem run_many_adds {inner : Pattern} {before : Progress} (outside : mode ≠ .atomic)
    (ran : run fuel mode (.many inner) (before.skipGap mode) = some outcome) :
    ∃ after added, outcome = .matched after ∧ after.nodes.reverse = before.nodes.reverse ++ added := by
  obtain ⟨after, rfl⟩ := matched_of_run_many ran
  obtain ⟨added, nodes, -⟩ := (addsNodes_run fuel (.many inner) outside ran).skipGap
  exact ⟨after, added, rfl, by rw [nodes, List.reverse_append, List.reverse_reverse]⟩

/-- An operand that starts with a quoted row of characters has it as the first part of its node. -/
theorem run_suffixed_of_isAhead
    (ran : run fuel .spaced (.rule .suffixed) progress = some outcome)
    (ahead : IsAhead body follow progress) :
    ∃ after span suffixes, outcome = .matched after ∧
      after.nodes = .branch .suffixed span (.ofLiteral (progress.spanOf body) body :: suffixes) ::
        progress.nodes := by
  obtain ⟨_, result, inside, ran⟩ := run_rule_eq_some (by decide) ran
  obtain ⟨_, first, literal, inside⟩ := run_sequence_eq_some inside
  obtain ⟨middle, rfl, passes⟩ := run_primary_of_isAhead literal ⟨ahead.closed, ahead.next⟩
  obtain ⟨after, suffixes, rfl, nodes⟩ := run_many_adds (by decide) inside
  obtain rfl := Option.some.inj ran
  refine ⟨_, ⟨progress.cursor.offset, after.cursor.offset⟩, suffixes, rfl, ?_⟩
  rw [passes.nodes] at nodes
  exact congrArg (fun children ↦ Node.branch .suffixed _ children :: progress.nodes) nodes

/-- An expression that starts with a quoted row of characters has an operand first that starts with
it. -/
theorem run_expression_of_isAhead
    (ran : run fuel .spaced (.rule .expression) progress = some outcome)
    (ahead : IsAhead body follow progress) :
    ∃ after whole operand suffixes links, outcome = .matched after ∧
      after.nodes = .branch .expression whole (.branch .suffixed operand
        (.ofLiteral (progress.spanOf body) body :: suffixes) :: links) :: progress.nodes := by
  obtain ⟨_, result, inside, ran⟩ := run_rule_eq_some (by decide) ran
  obtain ⟨_, first, operators, inside⟩ := run_sequence_eq_some inside
  obtain ⟨farthest, rfl⟩ := unaryOperator_refuses.run_many operators ahead.rest_eq
  have ahead' : IsAhead body follow { progress with nodes := [], farthest } :=
    ⟨ahead.closed, ahead.next⟩
  obtain ⟨_, first, suffixed, inside⟩ := run_sequence_eq_some inside
  rw [show Rule.expression.mode = .spaced from rfl, ahead'.skipGap] at suffixed
  obtain ⟨middle, operand, suffixes, rfl, here⟩ := run_suffixed_of_isAhead suffixed ahead'
  obtain ⟨after, links, rfl, nodes⟩ := run_many_adds (by decide) inside
  obtain rfl := Option.some.inj ran
  refine ⟨_, ⟨progress.cursor.offset, after.cursor.offset⟩, operand, suffixes, links, rfl, ?_⟩
  rw [here] at nodes
  exact congrArg (fun children ↦ Node.branch .expression _ children :: progress.nodes) nodes

end Quote

end GuestScript.Grammar
