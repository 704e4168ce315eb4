import GuestScript.Proofs.Grammar.Fuel
import GuestScript.Proofs.Grammar.Tokens
import GuestScript.Proofs.Syntax.Bare

/-!
# Reading like texts in step

The matcher makes the same moves on two texts that are alike: a rule matches on both or on neither, and
where it does, what is left to read is alike again. Tokens are read in step, a string is one as a whole,
and between tokens each run passes over its own gap. So two texts that write the same tokens have trees
that differ in nothing but where things stand: `bare_readFile`.
-/

namespace GuestScript.Grammar

/-! ## Strings -/

/-- One character of the inside of a string, or a backslash and one. -/
def Pattern.stringPart : Pattern :=
  oneOf [inOrder [.unless (oneOfWords ["\"", "\\"]), any], inOrder [word "\\", any]]

section Strings

variable {fuel : Nat} {progress : Progress} {outcome : Outcome} {rest : List Char}

theorem run_stringPart_quote (next : progress.cursor.rest = '"' :: rest)
    (ran : run fuel .atomic .stringPart progress = some outcome) : outcome = progress.fail := by
  rcases fuel with _ | _ | _ | _ | _ | fuel <;>
    simp [run, Pattern.stringPart, Pattern.oneOf, Pattern.inOrder, Pattern.word,
      Pattern.oneOfWords, Progress.orFail, Cursor.skip?, next, Progress.fail] at ran ⊢
  all_goals exact ran.symm

theorem run_stringPart_plain {character : Char} (inside : character ≠ '"')
    (inside' : character ≠ '\\') (next : progress.cursor.rest = character :: rest)
    (ran : run fuel .atomic .stringPart progress = some outcome) :
    outcome = .matched (progress.moveTo (progress.cursor.past character rest)) := by
  rcases fuel with _ | _ | _ | _ | _ | fuel <;>
    simp [run, Pattern.stringPart, Pattern.oneOf, Pattern.inOrder, Pattern.word, Pattern.any,
      Pattern.oneOfWords, Progress.orFail, Cursor.skip?, next, Progress.fail, inside, inside',
      Progress.one, Progress.skipGap] at ran ⊢
  all_goals exact ran.symm

theorem run_stringPart_escaped {character : Char}
    (next : progress.cursor.rest = '\\' :: character :: rest)
    (ran : run fuel .atomic .stringPart progress = some outcome) :
    outcome = .matched (progress.moveTo
      ((progress.cursor.past '\\' (character :: rest)).past character rest)) := by
  rcases fuel with _ | _ | _ | _ | _ | fuel <;>
    simp [run, Pattern.stringPart, Pattern.oneOf, Pattern.inOrder, Pattern.word, Pattern.any,
      Pattern.oneOfWords, Progress.orFail, Cursor.skip?, next, Progress.fail,
      Progress.one, Progress.skipGap, Progress.moveTo, Cursor.past] at ran ⊢
  all_goals exact ran.symm

/-- The inside of a string ends in front of the quote. -/
theorem runMore_stringPart {body : List Char} (closed : IsStringBody body)
    (ran : runMore fuel .atomic .stringPart progress = some outcome)
    (next : progress.cursor.rest = body ++ '"' :: rest) :
    ∃ after, outcome = .matched after ∧ after.cursor.rest = '"' :: rest ∧
      Cursor.Reads body progress.cursor after.cursor := by
  induction closed generalizing fuel progress with
  | nil =>
      obtain ⟨less, result, part, ran⟩ := runMore_eq_some ran
      obtain rfl := run_stringPart_quote next part
      obtain rfl := Option.some.inj ran
      exact ⟨_, rfl, next, .refl _⟩
  | @plain character more inside inside' _ ih =>
      obtain ⟨less, result, part, ran⟩ := runMore_eq_some ran
      obtain rfl := run_stringPart_plain inside inside' next part
      obtain ⟨after, same, last, reads⟩ := ih ran rfl
      exact ⟨after, same, last, (Cursor.Reads.past _ next).trans reads⟩
  | @escaped more character _ ih =>
      obtain ⟨less, result, part, ran⟩ := runMore_eq_some ran
      obtain rfl := run_stringPart_escaped next part
      obtain ⟨after, same, last, reads⟩ := ih ran rfl
      have pair := (Cursor.Reads.past _ next).trans (.past _ rfl)
      exact ⟨after, same, last, pair.trans reads⟩

/-- The inside of a string is a token. -/
theorem run_stringBody {body : List Char} (closed : IsStringBody body)
    (ran : run fuel .tight (.rule .stringBody) progress = some outcome)
    (next : progress.cursor.rest = body ++ '"' :: rest) :
    ∃ after, outcome = .matched after ∧ after.cursor.rest = '"' :: rest ∧
      after.nodes.map Node.bare =
        .leaf .stringBody .nowhere (String.ofList body) :: progress.nodes.map Node.bare := by
  obtain ⟨less, result, parts, ran⟩ := run_rule_eq_some (by decide) ran
  have parts : run less .atomic (.many .stringPart) { progress with nodes := [] } = some result :=
    parts
  rw [run_many_inToken] at parts
  obtain ⟨after, rfl, last, reads⟩ := runMore_stringPart closed parts next
  obtain rfl := Option.some.inj ran
  refine ⟨_, rfl, last, ?_⟩
  have text : progress.cursor.textTo after.cursor.offset = String.ofList body := reads.textTo
  rw [bare_close_token rfl, text]

theorem run_quote {mode : Mode} (ran : run fuel mode (.word "\"") progress = some outcome)
    (next : progress.cursor.rest = '"' :: rest) :
    outcome = .matched (progress.moveTo (progress.cursor.past '"' rest)) := by
  cases fuel with
  | zero => exact absurd ran nofun
  | succ fuel =>
      have skipped : progress.cursor.skip? ['"'] = some (progress.cursor.past '"' rest) := by
        rw [Cursor.skip?, next]
        rfl
      rw [Pattern.word, run, show "\"".toList = ['"'] from rfl, skipped] at ran
      exact (Option.some.inj ran).symm

/-- A string is read up to its closing quote, and its inside is the text of a token. -/
theorem run_stringLiteral {body : List Char} (closed : IsStringBody body)
    (next : progress.cursor.rest = '"' :: (body ++ '"' :: rest))
    (ran : run fuel .spaced (.rule .stringLiteral) progress = some outcome) :
    ∃ after, outcome = .matched after ∧ after.cursor.rest = rest ∧
      after.nodes.map Node.bare =
        .branch .stringLiteral .nowhere [.leaf .stringBody .nowhere (String.ofList body)] ::
          progress.nodes.map Node.bare := by
  obtain ⟨less, result, whole, ran⟩ := run_rule_eq_some (by decide) ran
  obtain ⟨less, opened, quote, whole⟩ := run_sequence_eq_some whole
  obtain rfl := run_quote quote next
  obtain ⟨less, inside, parts, whole⟩ := run_sequence_eq_some whole
  obtain ⟨after, rfl, last, nodes⟩ := run_stringBody closed parts rfl
  obtain rfl := run_quote whole last
  obtain rfl := Option.some.inj ran
  refine ⟨_, rfl, rfl, ?_⟩
  rw [bare_close (by decide)]
  exact congrArg (fun children ↦ .branch .stringLiteral .nowhere children.reverse ::
    progress.nodes.map Node.bare) nodes

/-- Where there is no quote there is no string. -/
theorem run_stringLiteral_failed (ran : run fuel .spaced (.rule .stringLiteral) progress = some outcome)
    (refuses : ∀ rest, progress.cursor.rest ≠ '"' :: rest) :
    ∃ farthest, outcome = .failed farthest := by
  obtain ⟨less, result, whole, ran⟩ := run_rule_eq_some (by decide) ran
  obtain ⟨less, opened, quote, whole⟩ := run_sequence_eq_some whole
  have skipped : progress.cursor.skip? ['"'] = none := by
    rw [Cursor.skip?]
    split
    · rfl
    · next found rest same =>
        refine if_neg fun (quote : found = '"') ↦ refuses rest ?_
        rw [same, quote]
  cases less with
  | zero => cases quote
  | succ less =>
      rw [Pattern.word, run, show "\"".toList = ['"'] from rfl, skipped] at quote
      obtain rfl := Option.some.inj quote
      obtain rfl := Option.some.inj whole
      obtain rfl := Option.some.inj ran
      exact ⟨_, rfl⟩

end Strings

/-! ## Between tokens -/

/-- Two runs that stand at texts that are alike and have made the same nodes, up to positions. -/
structure Abreast (first second : Progress) : Prop where
  alike : Alike first.cursor.rest second.cursor.rest
  bare : first.nodes.map Node.bare = second.nodes.map Node.bare

namespace Abreast

variable {first second : Progress}

theorem skipGap (abreast : Abreast first second) :
    Abreast (first.skipGap .spaced) (second.skipGap .spaced) :=
  ⟨.aligned abreast.alike.skipGap, abreast.bare⟩

theorem stay (abreast : Abreast first second) (farthest farthest' : Farthest) :
    Abreast { first with farthest } { second with farthest := farthest' } :=
  ⟨abreast.alike, abreast.bare⟩

theorem afterRead (abreast : Abreast first second) {after after' : Progress}
    (read : ReadAlike first second after after') : Abreast after after' :=
  ⟨read.alike, by rw [read.nodes, read.nodes', abreast.bare]⟩

end Abreast

/-- Two texts that are alike both start with a string of the same inside, or neither does. -/
theorem Alike.string {first second : List Char} (alike : Alike first second) :
    ((∀ rest, first ≠ '"' :: rest) ∧ ∀ rest, second ≠ '"' :: rest) ∨
    ∃ body rest rest', IsStringBody body ∧ first = '"' :: (body ++ '"' :: rest) ∧
      second = '"' :: (body ++ '"' :: rest') ∧ Alike rest rest' := by
  have refuses {text : List Char} (gap : opensGap text = true) (rest : List Char) :
      text ≠ '"' :: rest := by
    rintro rfl
    exact absurd gap Bool.false_ne_true
  cases alike with
  | gap opens opens' _ _ _ => exact .inl ⟨refuses opens, refuses opens'⟩
  | aligned aligned =>
      cases aligned with
      | nil => exact .inl ⟨nofun, nofun⟩
      | @plain character rest rest' plain _ _ _ =>
          have other : character ≠ '"' := by
            rintro rfl
            exact absurd plain (by decide)
          refine .inl ⟨?_, ?_⟩ <;> exact fun _ same ↦ other (List.cons.inj same).1
      | string closed alike => exact .inr ⟨_, _, _, closed, rfl, rfl, alike⟩

theorem agree_stringLiteral (fuel fuel' : Nat) {first second : Progress}
    (abreast : Abreast first second) :
    Agree Abreast (run fuel .spaced (.rule .stringLiteral) first)
      (run fuel' .spaced (.rule .stringLiteral) second) := by
  cases left : run fuel .spaced (.rule .stringLiteral) first with
  | none => exact Agree.none_left
  | some outcome =>
      cases right : run fuel' .spaced (.rule .stringLiteral) second with
      | none => exact Agree.none_right
      | some outcome' =>
          obtain ⟨refuses, refuses'⟩ | ⟨body, rest, rest', closed, next, next', alike⟩ :=
            abreast.alike.string
          · obtain ⟨_, rfl⟩ := run_stringLiteral_failed left refuses
            obtain ⟨_, rfl⟩ := run_stringLiteral_failed right refuses'
            trivial
          · obtain ⟨after, rfl, last, nodes⟩ := run_stringLiteral closed next left
            obtain ⟨after', rfl, last', nodes'⟩ := run_stringLiteral closed next' right
            exact ⟨by rwa [last, last'], by rw [nodes, nodes', abreast.bare]⟩

/-- A token leaves the same node. -/
theorem agree_token (fuel fuel' : Nat) {name : Rule} (token : name.mode = .atomic)
    (inner : name ≠ .stringBody) {first second : Progress} (abreast : Abreast first second) :
    Agree Abreast (run fuel .spaced (.rule name) first) (run fuel' .spaced (.rule name) second) := by
  rcases fuel with _ | fuel
  · exact Agree.none_left
  rcases fuel' with _ | fuel'
  · exact Agree.none_right
  rw [run_rule (by decide), run_rule (by decide), token]
  have inside := agree_inToken fuel fuel' name.body { first with nodes := [] }
    { second with nodes := [] } (name.isWithinTokens_body_of_atomic token inner) abreast.alike
  refine inside.resume (fun _ _ ↦ trivial) fun after after' read ↦ ⟨read.alike, ?_⟩
  obtain ⟨characters, reads, reads'⟩ := read.same
  have text : first.cursor.textTo after.cursor.offset = String.ofList characters := reads.textTo
  have text' : second.cursor.textTo after'.cursor.offset = String.ofList characters := reads'.textTo
  rw [bare_close_token token, bare_close_token token, text, text', abreast.bare]

theorem Rule.mode_eq_spaced (rule : Rule) (outside : rule.mode ≠ .atomic)
    (quoted : rule ≠ .stringLiteral) : rule.mode = .spaced := by
  cases rule <;> first | rfl | exact absurd rfl outside | exact absurd rfl quoted

mutual

/-- Between tokens, two runs that are abreast stay so. -/
theorem agree_run : (fuel fuel' : Nat) → (pattern : Pattern) → (first second : Progress) →
    pattern.IsWithinTokens .spaced → Abreast first second →
    Agree Abreast (run fuel .spaced pattern first) (run fuel' .spaced pattern second)
  | 0, _, _, _, _, _, _ => Agree.none_left
  | _ + 1, 0, _, _, _, _, _ => Agree.none_right
  | fuel + 1, fuel' + 1, .text characters, first, second, within, abreast =>
      (agree_text within abreast.alike).imp fun _ _ ↦ abreast.afterRead
  | fuel + 1, fuel' + 1, .one accepts, first, second, within, abreast =>
      (agree_one within abreast.alike).imp fun _ _ ↦ abreast.afterRead
  | fuel + 1, fuel' + 1, .rule name, first, second, ⟨inner, last, whole⟩, abreast => by
      by_cases token : name.mode = .atomic
      · exact agree_token (fuel + 1) (fuel' + 1) token inner abreast
      by_cases quoted : name = .stringLiteral
      · subst quoted
        exact agree_stringLiteral (fuel + 1) (fuel' + 1) abreast
      have spaced := name.mode_eq_spaced token quoted
      have within := Rule.isWithinTokens_body inner last whole quoted
      rw [spaced] at within
      rw [run_rule (by decide), run_rule (by decide), spaced]
      have inside := agree_run fuel fuel' name.body { first with nodes := [] }
        { second with nodes := [] } within ⟨abreast.alike, rfl⟩
      refine inside.resume (fun _ _ ↦ trivial) fun after after' abreast' ↦ ⟨abreast'.alike, ?_⟩
      rw [bare_close token, bare_close token, abreast'.bare, abreast.bare]
  | fuel + 1, fuel' + 1, .sequence left right, first, second, within, abreast => by
      rw [run_sequence, run_sequence]
      have start := agree_run fuel fuel' left first second within.1 abreast
      refine start.resume (fun _ _ ↦ trivial) fun middle middle' abreast ↦ ?_
      exact agree_run fuel fuel' right _ _ within.2 abreast.skipGap
  | fuel + 1, fuel' + 1, .choice left right, first, second, within, abreast => by
      rw [run_choice, run_choice]
      have start := agree_run fuel fuel' left first second within.1 abreast
      refine start.resume (fun farthest farthest' ↦ ?_) fun _ _ ↦ id
      exact agree_run fuel fuel' right _ _ within.2 (abreast.stay farthest farthest')
  | fuel + 1, fuel' + 1, .optional inner, first, second, within, abreast => by
      rw [run_optional, run_optional]
      have start := agree_run fuel fuel' inner first second within abreast
      exact start.resume abreast.stay fun _ _ ↦ id
  | fuel + 1, fuel' + 1, .many inner, first, second, within, abreast => by
      rw [run_many, run_many]
      have start := agree_run fuel fuel' inner first second within abreast
      exact start.resume abreast.stay fun middle middle' ↦
        agree_runMore fuel fuel' inner middle middle' within
  | fuel + 1, fuel' + 1, .unless inner, first, second, within, abreast => by
      rw [run_unless, run_unless]
      have start := agree_inToken fuel fuel' inner first second within abreast.alike
      exact start.resume (fun _ _ ↦ abreast) fun _ _ _ ↦ trivial

/-- What is repeated between tokens. -/
theorem agree_runMore : (fuel fuel' : Nat) → (inner : Pattern) → (first second : Progress) →
    inner.IsWithinTokens .spaced → Abreast first second →
    Agree Abreast (runMore fuel .spaced inner first) (runMore fuel' .spaced inner second)
  | 0, _, _, _, _, _, _ => Agree.none_left
  | _ + 1, 0, _, _, _, _, _ => Agree.none_right
  | fuel + 1, fuel' + 1, inner, first, second, within, abreast => by
      rw [runMore_succ, runMore_succ]
      have start := agree_run fuel fuel' inner _ _ within abreast.skipGap
      exact start.resume abreast.stay fun middle middle' ↦
        agree_runMore fuel fuel' inner middle middle' within

end

/-! ## Whole files -/

section Peeling

variable {related related' : Progress → Progress → Prop} {mode : Mode} {first second : Progress}

theorem agree_sequence {left right : Pattern}
    (start : ∀ fuel fuel', Agree related (run fuel mode left first) (run fuel' mode left second))
    (goes : ∀ fuel fuel' middle middle', related middle middle' →
      Agree related' (run fuel mode right (middle.skipGap mode))
        (run fuel' mode right (middle'.skipGap mode))) (fuel fuel' : Nat) :
    Agree related' (run fuel mode (.sequence left right) first)
      (run fuel' mode (.sequence left right) second) := by
  rcases fuel with _ | fuel
  · exact Agree.none_left
  rcases fuel' with _ | fuel'
  · exact Agree.none_right
  rw [run_sequence, run_sequence]
  exact (start fuel fuel').resume (fun _ _ ↦ trivial) (goes fuel fuel')

theorem agree_rule (outside : mode ≠ .atomic) {name : Rule}
    (inside : ∀ fuel fuel', Agree related (run fuel name.mode name.body { first with nodes := [] })
      (run fuel' name.mode name.body { second with nodes := [] }))
    (closes : ∀ after after', related after after' →
      related' (first.close name after) (second.close name after')) (fuel fuel' : Nat) :
    Agree related' (run fuel mode (.rule name) first) (run fuel' mode (.rule name) second) := by
  rcases fuel with _ | fuel
  · exact Agree.none_left
  rcases fuel' with _ | fuel'
  · exact Agree.none_right
  rw [run_rule outside, run_rule outside]
  exact (inside fuel fuel').resume (fun _ _ ↦ trivial) closes

end Peeling

theorem Aligned.isEmpty_eq {first second : List Char} (aligned : Aligned first second) :
    first.isEmpty = second.isEmpty := by
  cases aligned <;> rfl

/-- The nodes made so far are the same up to positions. -/
def BareAlike (first second : Progress) : Prop :=
  first.nodes.map Node.bare = second.nodes.map Node.bare

/-- Past the last gap, either both texts are at their end or neither is. -/
theorem agree_endOfText (fuel fuel' : Nat) {first second : Progress}
    (aligned : Aligned first.cursor.rest second.cursor.rest) (bare : BareAlike first second) :
    Agree BareAlike (run fuel .spaced (.rule .endOfText) first)
      (run fuel' .spaced (.rule .endOfText) second) := by
  have same : first.cursor.rest.isEmpty = second.cursor.rest.isEmpty := aligned.isEmpty_eq
  have inside (fuel fuel' : Nat) :
      Agree BareAlike (run fuel .spaced .endOfText { first with nodes := [] })
        (run fuel' .spaced .endOfText { second with nodes := [] }) := by
    rcases fuel with _ | fuel
    · exact Agree.none_left
    rcases fuel' with _ | fuel'
    · exact Agree.none_right
    rw [run, run, Progress.require, Progress.require, same]
    cases second.cursor.rest.isEmpty with
    | true => exact rfl
    | false => trivial
  refine agree_rule (by decide) inside (fun after after' inner ↦ ?_) fuel fuel'
  rw [BareAlike] at inner bare ⊢
  rw [bare_close (by decide), bare_close (by decide), inner, bare]

/-- A file is read in step from the start of both texts, whatever gaps they start with. -/
theorem agree_file (fuel fuel' : Nat) {first second : List Char}
    (aligned : Aligned (Cursor.start first).skipGap.rest (Cursor.start second).skipGap.rest) :
    Agree BareAlike (run fuel .spaced (.rule .file) ⟨.start first, [], .none⟩)
      (run fuel' .spaced (.rule .file) ⟨.start second, [], .none⟩) := by
  let beginning (characters : List Char) : Progress := ⟨.start characters, [], .none⟩
  have start (fuel fuel' : Nat) :
      Agree (fun left right ↦ left = beginning first ∧ right = beginning second)
        (run fuel .spaced .startOfText (beginning first))
        (run fuel' .spaced .startOfText (beginning second)) := by
    rcases fuel with _ | fuel
    · exact Agree.none_left
    rcases fuel' with _ | fuel'
    · exact Agree.none_right
    exact ⟨rfl, rfl⟩
  have items : (Pattern.many Pattern.item).IsWithinTokens .spaced := by
    repeat' apply And.intro
    all_goals decide
  have body (fuel fuel' : Nat) :
      Agree BareAlike (run fuel .spaced Rule.file.body (beginning first))
        (run fuel' .spaced Rule.file.body (beginning second)) := by
    refine agree_sequence start (fun fuel fuel' _ _ same ↦ ?_) fuel fuel'
    obtain ⟨rfl, rfl⟩ := same
    have abreast : Abreast ((beginning first).skipGap .spaced) ((beginning second).skipGap .spaced) :=
      ⟨.aligned aligned, rfl⟩
    refine agree_sequence (fun fuel fuel' ↦ agree_run fuel fuel' _ _ _ ?_ abreast)
      (fun fuel fuel' middle middle' abreast ↦ ?_) fuel fuel'
    · exact ⟨nofun, nofun, nofun⟩
    · refine agree_sequence (fun fuel fuel' ↦ agree_run fuel fuel' _ _ _ items abreast.skipGap)
        (fun fuel fuel' middle middle' abreast ↦ ?_) fuel fuel'
      exact agree_endOfText fuel fuel' abreast.alike.skipGap abreast.bare
  refine agree_rule (by decide) body (fun after after' inner ↦ ?_) fuel fuel'
  rw [BareAlike] at inner ⊢
  rw [bare_close (by decide), bare_close (by decide), inner]

/-- The tree of a whole file, from the answer of the matcher. -/
def fileTree : Option Outcome → Except Farthest Node
  | some (.matched { nodes := [file], .. }) => .ok file
  | some (.matched progress) => .error progress.farthest
  | some (.failed farthest) => .error farthest
  | none => .error .none

theorem readFile_eq_fileTree (text : String) :
    readFile text = fileTree (run (fuelFor text.toList.length) .spaced (.rule .file)
      ⟨.start text.toList, [], .none⟩) := by
  -- The equation of the definition is no way in: checking it evaluates the matcher.
  delta readFile
  dsimp only
  generalize run _ _ _ _ = answer
  rcases answer with _ | ⟨⟨_, _ | ⟨_, _ | ⟨_, _⟩⟩, _⟩⟩ | _ <;> rfl

theorem bare_fileTree {first second : Option Outcome} (agree : Agree BareAlike first second)
    (ends : first ≠ none) (ends' : second ≠ none) :
    (fileTree first).toOption.map Node.bare = (fileTree second).toOption.map Node.bare := by
  rcases first with _ | ⟨⟨cursor, nodes, farthest⟩⟩ | farthest
  · exact absurd rfl ends
  all_goals rcases second with _ | ⟨⟨cursor', nodes', farthest'⟩⟩ | farthest'
  · exact absurd rfl ends'
  · have agree : nodes.map Node.bare = nodes'.map Node.bare := agree
    rcases nodes with _ | ⟨node, _ | ⟨other, more⟩⟩
    · obtain rfl := List.map_eq_nil_iff.mp agree.symm
      rfl
    · obtain ⟨node', rfl, same⟩ := List.map_eq_singleton_iff.mp agree.symm
      exact congrArg some same.symm
    · obtain ⟨node', _, rfl, _, rest⟩ := List.map_eq_cons_iff.mp agree.symm
      obtain ⟨other', more', rfl, _, _⟩ := List.map_eq_cons_iff.mp rest
      rfl
  · exact agree.elim
  · exact absurd rfl ends'
  · exact agree.elim
  · rfl

/-- Two texts that write the same tokens have the same tree up to positions, or neither has one. -/
theorem bare_readFile {tokens : List Token} {first second : String}
    (left : Writes tokens first.toList) (right : Writes tokens second.toList) :
    (readFile first).toOption.map Node.bare = (readFile second).toOption.map Node.bare := by
  rw [readFile_eq_fileTree, readFile_eq_fileTree]
  exact bare_fileTree (agree_file _ _ (left.aligned right)) (run_file_ne_none _) (run_file_ne_none _)

end GuestScript.Grammar
