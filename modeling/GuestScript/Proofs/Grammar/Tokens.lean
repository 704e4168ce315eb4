import GuestScript.Proofs.Grammar.Layout
import GuestScript.Proofs.Grammar.Runs
import Mathlib.Algebra.GroupWithZero.Nat

/-!
# Reading a token in step

On two texts that are alike, a pattern that stays inside its token matches in both or in neither, and
reads the same characters of both: `agree_inToken`. The reason is that only plain characters are asked
for. A gap may be another one in the other text, but it offers no plain character, so nothing inside a
token looks past the start of it.
-/

namespace GuestScript.Grammar

/-! ## Answers that agree -/

/-- Neither answer is a match without the other being one, and matches are related. Nothing is said of
a run that has no answer. -/
def Agree (related : Progress → Progress → Prop) : Option Outcome → Option Outcome → Prop
  | some (.matched first), some (.matched second) => related first second
  | some (.matched _), some (.failed _) | some (.failed _), some (.matched _) => False
  | some (.failed _), some (.failed _) | none, _ | _, none => True

namespace Agree

variable {related related' : Progress → Progress → Prop} {first second : Option Outcome}

theorem none_left : Agree related none second :=
  trivial

theorem none_right : Agree related first none := by
  rcases first with _ | _ | _ <;> trivial

theorem imp (agree : Agree related first second)
    (implies : ∀ left right, related left right → related' left right) :
    Agree related' first second := by
  rcases first with _ | left | _ <;> rcases second with _ | right | _ <;>
    first | exact agree | exact implies left right agree

/-- What goes on from answers that agree agrees. -/
theorem resume {failed failed' : Farthest → Option Outcome}
    {matched matched' : Progress → Option Outcome} (agree : Agree related first second)
    (failures : ∀ left right, Agree related' (failed left) (failed' right))
    (matches' : ∀ left right, related left right → Agree related' (matched left) (matched' right)) :
    Agree related' (resume failed matched first) (resume failed' matched' second) := by
  rcases first with _ | left | left <;> rcases second with _ | right | right
  · exact none_left
  · exact none_left
  · exact none_left
  · exact none_right
  · exact matches' left right agree
  · exact agree.elim
  · exact none_right
  · exact agree.elim
  · exact failures left right

end Agree

/-! ## Inside a token -/

/-- These characters were read between two places. -/
structure Cursor.Reads (characters : List Char) (before after : Cursor) : Prop where
  rest : before.rest = characters ++ after.rest
  offset : after.offset = before.offset + (characters.map Char.utf8Size).sum

namespace Cursor.Reads

theorem refl (cursor : Cursor) : Reads [] cursor cursor :=
  ⟨rfl, rfl⟩

theorem past (cursor : Cursor) {character : Char} {rest : List Char}
    (next : cursor.rest = character :: rest) :
    Reads [character] cursor (cursor.past character rest) :=
  ⟨next, rfl⟩

theorem trans {characters more : List Char} {before middle after : Cursor}
    (first : Reads characters before middle) (second : Reads more middle after) :
    Reads (characters ++ more) before after := by
  refine ⟨?_, ?_⟩
  · rw [first.rest, second.rest, List.append_assoc]
  · rw [second.offset, first.offset, List.map_append, List.sum_append, Nat.add_assoc]

/-- The text between two places is what was read there. -/
theorem textTo {characters : List Char} {before after : Cursor}
    (reads : Reads characters before after) :
    before.textTo after.offset = String.ofList characters := by
  have collected (here : Nat) (text : String) (characters rest : List Char) :
      collect (here + (characters.map Char.utf8Size).sum) here (characters ++ rest) text =
        text ++ String.ofList characters := by
    induction characters generalizing here text with
    | nil =>
        cases rest with
        | nil => exact String.append_empty.symm
        | cons => exact (if_neg (Nat.lt_irrefl here)).trans String.append_empty.symm
    | cons character more ih =>
        have further : here < here + (character.utf8Size + (more.map Char.utf8Size).sum) := by
          have := character.utf8Size_pos
          omega
        rw [List.map_cons, List.sum_cons, List.cons_append, collect, if_pos further, ← Nat.add_assoc,
          ih, ← String.toList_inj]
        simp only [String.toList_append, String.toList_push, String.toList_ofList, List.append_assoc,
          List.singleton_append]
  rw [Cursor.textTo, reads.rest, reads.offset, collected]
  exact String.empty_append

end Cursor.Reads

/-- What two runs inside a token have in common: they read the same characters, what is left is alike,
and neither makes a node. -/
structure ReadAlike (before before' after after' : Progress) : Prop where
  same : ∃ characters, Cursor.Reads characters before.cursor after.cursor ∧
    Cursor.Reads characters before'.cursor after'.cursor
  alike : Alike after.cursor.rest after'.cursor.rest
  nodes : after.nodes = before.nodes
  nodes' : after'.nodes = before'.nodes

/-- A class of plain characters has the next character of both texts or of neither. -/
theorem Alike.next {accepts : Char → Bool}
    (plain : ∀ character, accepts character = true → isPlain character = true)
    {first second : List Char} (alike : Alike first second) :
    ((∀ character rest, first = character :: rest → accepts character = false) ∧
      ∀ character rest, second = character :: rest → accepts character = false) ∨
    ∃ character rest rest', accepts character = true ∧ first = character :: rest ∧
      second = character :: rest' ∧ Alike rest rest' := by
  have refuses {text : List Char} (gap : opensGap text = true) (character : Char)
      (rest : List Char) (same : text = character :: rest) : accepts character = false := by
    subst same
    refine Bool.eq_false_iff.mpr fun accepted ↦ ?_
    have := plain character accepted
    rw [isPlain, show Cursor.isBlank character = true from gap] at this
    exact absurd this Bool.false_ne_true
  cases alike with
  | gap opens opens' _ _ _ => exact .inl ⟨refuses opens, refuses opens'⟩
  | aligned aligned =>
      cases aligned with
      | nil => refine .inl ⟨?_, ?_⟩ <;> exact fun _ _ same ↦ by cases same
      | @plain character rest rest' _ _ _ alike =>
          cases accepted : accepts character with
          | true => exact .inr ⟨character, rest, rest', accepted, rfl, rfl, alike⟩
          | false =>
              refine .inl ⟨?_, ?_⟩ <;>
                exact fun _ _ same ↦ (List.cons.inj same).1 ▸ accepted
      | string =>
          have quote : accepts '"' = false :=
            Bool.eq_false_iff.mpr fun accepted ↦ absurd (plain '"' accepted) (by decide)
          refine .inl ⟨?_, ?_⟩ <;> exact fun _ _ same ↦ (List.cons.inj same).1 ▸ quote

theorem agree_one {accepts : Char → Bool}
    (plain : ∀ character, accepts character = true → isPlain character = true)
    {before before' : Progress} (alike : Alike before.cursor.rest before'.cursor.rest) :
    Agree (ReadAlike before before') (some (before.one accepts)) (some (before'.one accepts)) := by
  obtain ⟨refuses, refuses'⟩ | ⟨character, rest, rest', accepted, next, next', after⟩ :=
    alike.next plain
  · have fails {progress : Progress} (refuses : ∀ character rest,
        progress.cursor.rest = character :: rest → accepts character = false) :
        progress.one accepts = progress.fail := by
      rw [Progress.one]
      split
      · rfl
      · next character rest same => rw [refuses character rest same]; rfl
    rw [fails refuses, fails refuses']
    trivial
  · rw [Progress.one, Progress.one, next, next']
    simp only [accepted, if_true]
    exact ⟨⟨[character], .past _ next, .past _ next'⟩, after, rfl, rfl⟩

/-- The same characters come next in both texts, or in neither. -/
theorem Alike.skip? {characters : List Char}
    (plain : ∀ character ∈ characters, isPlain character = true) {before before' : Cursor}
    (alike : Alike before.rest before'.rest) :
    (before.skip? characters = none ∧ before'.skip? characters = none) ∨
    ∃ after after', before.skip? characters = some after ∧
      before'.skip? characters = some after' ∧ Cursor.Reads characters before after ∧
      Cursor.Reads characters before' after' ∧ Alike after.rest after'.rest := by
  induction characters generalizing before before' with
  | nil => exact .inr ⟨before, before', rfl, rfl, .refl _, .refl _, alike⟩
  | cons expected more ih =>
      obtain ⟨here, others⟩ := List.forall_mem_cons.mp plain
      have only (character : Char) (same : (character == expected) = true) :
          isPlain character = true := eq_of_beq same ▸ here
      obtain ⟨refuses, refuses'⟩ | ⟨character, rest, rest', same, next, next', after⟩ :=
        alike.next only
      · have stops {cursor : Cursor} (refuses : ∀ character rest,
            cursor.rest = character :: rest → (character == expected) = false) :
            cursor.skip? (expected :: more) = none := by
          rw [Cursor.skip?]
          split
          · rfl
          · next found rest same => exact if_neg (ne_of_beq_false (refuses found rest same))
        exact .inl ⟨stops refuses, stops refuses'⟩
      · obtain rfl := eq_of_beq same
        have goes {cursor : Cursor} {rest : List Char} (next : cursor.rest = character :: rest) :
            cursor.skip? (character :: more) = (cursor.past character rest).skip? more := by
          rw [Cursor.skip?, next]
          exact if_pos rfl
        rw [goes next, goes next']
        obtain fails | ⟨last, last', skipped, skipped', reads, reads', alike⟩ :=
          ih others (show Alike (before.past character rest).rest
            (before'.past character rest').rest from after)
        · exact .inl fails
        · exact .inr ⟨last, last', skipped, skipped', (Cursor.Reads.past _ next).trans reads,
            (Cursor.Reads.past _ next').trans reads', alike⟩

theorem agree_text {characters : List Char}
    (plain : ∀ character ∈ characters, isPlain character = true) {before before' : Progress}
    (alike : Alike before.cursor.rest before'.cursor.rest) :
    Agree (ReadAlike before before')
      (some (before.orFail (before.cursor.skip? characters)))
      (some (before'.orFail (before'.cursor.skip? characters))) := by
  obtain ⟨fails, fails'⟩ | ⟨after, after', skipped, skipped', reads, reads', alike⟩ :=
    alike.skip? plain
  · rw [fails, fails']
    trivial
  · rw [skipped, skipped']
    exact ⟨⟨characters, reads, reads'⟩, alike, rfl, rfl⟩

/-! ## Patterns that stay inside their token -/

/-- Whether a pattern asks for nothing but the plain characters of a token: it may read a string as a
whole, but not look into one, and the ends of the text do not matter to it. -/
def Pattern.IsWithinTokens : Mode → Pattern → Prop
  | _, .text characters => ∀ character ∈ characters, isPlain character = true
  | _, .one accepts => ∀ character, accepts character = true → isPlain character = true
  | .atomic, .rule name => name.mode = .atomic ∧ name ≠ .stringBody
  | _, .rule name => name ≠ .stringBody ∧ name ≠ .endOfText ∧ name ≠ .file
  | mode, .sequence first second | mode, .choice first second =>
      first.IsWithinTokens mode ∧ second.IsWithinTokens mode
  | mode, .optional inner | mode, .many inner => inner.IsWithinTokens mode
  | _, .unless inner => inner.IsWithinTokens .atomic
  | _, .startOfText | _, .endOfText => False

theorem Pattern.isWithinTokens_text {mode : Mode} {characters : List Char}
    (plain : characters.all isPlain = true) : (text characters).IsWithinTokens mode :=
  List.all_eq_true.mp plain

theorem Pattern.isWithinTokens_optional {mode : Mode} {inner : Pattern}
    (within : inner.IsWithinTokens mode) : (optional inner).IsWithinTokens mode :=
  within

theorem Pattern.isWithinTokens_unless {mode : Mode} {inner : Pattern}
    (within : inner.IsWithinTokens .atomic) : (Pattern.unless inner).IsWithinTokens mode :=
  within

theorem Pattern.isWithinTokens_one {mode : Mode} {accepts : Char → Bool}
    (inWord : ∀ character, accepts character = true → character.isAlphanum = true) :
    (one accepts).IsWithinTokens mode :=
  fun character accepted ↦ (isPlain_of_isAlphanum (inWord character accepted)).1

/-- Only the rules of strings and of the whole file ask for more. -/
theorem Rule.isWithinTokens_body {rule : Rule} (inner : rule ≠ .stringBody) (last : rule ≠ .endOfText)
    (whole : rule ≠ .file) (quoted : rule ≠ .stringLiteral) :
    rule.body.IsWithinTokens rule.mode := by
  have letter (character : Char) : character.isAlpha = true → character.isAlphanum = true := by
    intro letter
    rw [Char.isAlphanum, letter, Bool.true_or]
  have digit (character : Char) : character.isDigit = true → character.isAlphanum = true := by
    intro digit
    rw [Char.isAlphanum, digit, Bool.or_true]
  cases rule <;> first
    | exact absurd rfl inner
    | exact absurd rfl last
    | exact absurd rfl whole
    | exact absurd rfl quoted
    | repeat' apply And.intro
      all_goals first
        | decide
        | exact Pattern.isWithinTokens_text (by decide)
        | exact Pattern.isWithinTokens_optional (Pattern.isWithinTokens_text (by decide))
        | exact Pattern.isWithinTokens_unless (Pattern.isWithinTokens_text (by decide))
        | exact Pattern.isWithinTokens_one fun _ ↦ id
        | exact Pattern.isWithinTokens_one letter
        | exact (Pattern.isWithinTokens_one digit : Pattern.digit.IsWithinTokens .atomic)

theorem Rule.isWithinTokens_body_of_atomic (rule : Rule) (token : rule.mode = .atomic)
    (inner : rule ≠ .stringBody) : rule.body.IsWithinTokens .atomic := by
  have differs (other : Rule) (outside : other.mode ≠ .atomic) : rule ≠ other := by
    rintro rfl
    exact outside token
  have within := isWithinTokens_body inner (differs .endOfText nofun) (differs .file nofun)
    (differs .stringLiteral nofun)
  rwa [token] at within

namespace ReadAlike

variable {before before' middle middle' after after' : Progress}

theorem stay (alike : Alike before.cursor.rest before'.cursor.rest) (farthest farthest' : Farthest) :
    ReadAlike before before' { before with farthest } { before' with farthest := farthest' } :=
  ⟨⟨[], .refl _, .refl _⟩, alike, rfl, rfl⟩

theorem trans (first : ReadAlike before before' middle middle')
    (second : ReadAlike middle middle' after after') : ReadAlike before before' after after' := by
  obtain ⟨characters, reads, reads'⟩ := first.same
  obtain ⟨more, goes, goes'⟩ := second.same
  exact ⟨⟨characters ++ more, reads.trans goes, reads'.trans goes'⟩, second.alike,
    second.nodes.trans first.nodes, second.nodes'.trans first.nodes'⟩

end ReadAlike

mutual

/-- Inside a token, two runs on like texts read the same characters. -/
theorem agree_inToken : (fuel fuel' : Nat) → (pattern : Pattern) → (before before' : Progress) →
    pattern.IsWithinTokens .atomic → Alike before.cursor.rest before'.cursor.rest →
    Agree (ReadAlike before before') (run fuel .atomic pattern before)
      (run fuel' .atomic pattern before')
  | 0, _, _, _, _, _, _ => Agree.none_left
  | _ + 1, 0, _, _, _, _, _ => Agree.none_right
  | fuel + 1, fuel' + 1, .text characters, before, before', within, alike => agree_text within alike
  | fuel + 1, fuel' + 1, .one accepts, before, before', within, alike => agree_one within alike
  | fuel + 1, fuel' + 1, .rule name, before, before', within, alike => by
      have within' := name.isWithinTokens_body_of_atomic within.1 within.2
      exact agree_inToken fuel fuel' name.body before before' within' alike
  | fuel + 1, fuel' + 1, .sequence first second, before, before', within, alike => by
      rw [run_sequence, run_sequence]
      have start := agree_inToken fuel fuel' first before before' within.1 alike
      refine start.resume (fun _ _ ↦ trivial) fun middle middle' read ↦ ?_
      exact (agree_inToken fuel fuel' second middle middle' within.2 read.alike).imp
        fun _ _ ↦ read.trans
  | fuel + 1, fuel' + 1, .choice first second, before, before', within, alike => by
      rw [run_choice, run_choice]
      have start := agree_inToken fuel fuel' first before before' within.1 alike
      refine start.resume (fun farthest farthest' ↦ ?_) fun _ _ ↦ id
      have stay := ReadAlike.stay alike farthest farthest'
      exact (agree_inToken fuel fuel' second _ _ within.2 stay.alike).imp fun _ _ ↦ stay.trans
  | fuel + 1, fuel' + 1, .optional inner, before, before', within, alike => by
      rw [run_optional, run_optional]
      have start := agree_inToken fuel fuel' inner before before' within alike
      exact start.resume (ReadAlike.stay alike) fun _ _ ↦ id
  | fuel + 1, fuel' + 1, .many inner, before, before', within, alike => by
      rw [run_many, run_many]
      have start := agree_inToken fuel fuel' inner before before' within alike
      refine start.resume (ReadAlike.stay alike) fun middle middle' read ↦ ?_
      exact (agree_moreInToken fuel fuel' inner middle middle' within read.alike).imp
        fun _ _ ↦ read.trans
  | fuel + 1, fuel' + 1, .unless inner, before, before', within, alike => by
      rw [run_unless, run_unless]
      have start := agree_inToken fuel fuel' inner before before' within alike
      exact start.resume (fun _ _ ↦ ReadAlike.stay alike _ _) fun _ _ _ ↦ trivial

/-- What is repeated inside a token. -/
theorem agree_moreInToken : (fuel fuel' : Nat) → (inner : Pattern) → (before before' : Progress) →
    inner.IsWithinTokens .atomic → Alike before.cursor.rest before'.cursor.rest →
    Agree (ReadAlike before before') (runMore fuel .atomic inner before)
      (runMore fuel' .atomic inner before')
  | 0, _, _, _, _, _, _ => Agree.none_left
  | _ + 1, 0, _, _, _, _, _ => Agree.none_right
  | fuel + 1, fuel' + 1, inner, before, before', within, alike => by
      rw [runMore_succ, runMore_succ]
      have start := agree_inToken fuel fuel' inner before before' within alike
      refine start.resume (ReadAlike.stay alike) fun middle middle' read ↦ ?_
      exact (agree_moreInToken fuel fuel' inner middle middle' within read.alike).imp
        fun _ _ ↦ read.trans

end

end GuestScript.Grammar
