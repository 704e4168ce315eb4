import GuestScript.Grammar.Match

/-!
# Tokens and the gaps between them

A text is a row of tokens with blanks and comments in the gaps between them. `Writes` says that a text
is one way to write a row of tokens. What is left to read of two texts that write the same tokens is
`Alike`: the same characters stand in both, except that a gap may be a different one.
-/

namespace GuestScript.Grammar

open Cursor (isBlank gapEnd)

/-! ## Tokens -/

/-- The words that an identifier may not be. -/
def keywords : List String :=
  ["use", "namespace", "type", "static", "pub", "fn", "let", "field", "for", "in", "if", "else",
    "while", "return", "true", "false", "self", "new"]

/-- The punctuation and the operators. -/
def symbols : List String :=
  [";", ".", "\x7b", "\x7d", ":", "=", "(", ")", ",", "->", "[", "]", "<", ">", "!", "-", "||", "&&",
    "==", "!=", "<=", ">=", "+", "*", "/", "%", "|", "::"]

/-- Whether a text has the shape of an identifier and is no keyword. -/
def isIdentifier (name : String) : Bool :=
  match name.toList with
  | [] => false
  | first :: rest =>
      (first.isAlpha || first = '_') && rest.all (fun part ↦ part.isAlphanum || part = '_') &&
        !keywords.contains name

/-- Whether a text is a row of decimal digits. -/
def isNumber (digits : String) : Bool :=
  !digits.toList.isEmpty && digits.toList.all Char.isDigit

/-- What may stand between the quotes of a string: a quote only behind a backslash, and a backslash
only in front of a character. -/
inductive IsStringBody : List Char → Prop
  | nil : IsStringBody []
  | plain {character rest} : character ≠ '"' → character ≠ '\\' → IsStringBody rest →
      IsStringBody (character :: rest)
  | escaped {rest} (character) : IsStringBody rest → IsStringBody ('\\' :: character :: rest)

/-- A token. -/
inductive Token where
  | keyword (word : String) (known : word ∈ keywords)
  | identifier (name : String) (shaped : isIdentifier name = true)
  | integer (digits : String) (shaped : isNumber digits = true)
  | string (body : List Char) (closed : IsStringBody body)
  | symbol (text : String) (known : text ∈ symbols)

/-- How a token is written. -/
def Token.characters : Token → List Char
  | .keyword text _ | .identifier text _ | .integer text _ | .symbol text _ => text.toList
  | .string body _ => '"' :: (body ++ ['"'])

/-! ## Gaps -/

/-- Blanks and complete comments. A comment goes to the end of its line, or to the first closing
bracket. -/
inductive IsGap : List Char → Prop
  | nil : IsGap []
  | blank {character rest} : isBlank character = true → IsGap rest → IsGap (character :: rest)
  | lineComment {comment rest} : '\n' ∉ comment → IsGap rest →
      IsGap ('/' :: '/' :: (comment ++ '\n' :: rest))
  | bracketComment {comment rest} : ¬ ['*', '/'] <:+: comment → IsGap rest →
      IsGap ('/' :: '*' :: (comment ++ '*' :: '/' :: rest))

/-- Blanks and comments behind which there is nothing more, so that the end of the last line need not
be written. -/
inductive IsLastGap : List Char → Prop
  | gap {gap} : IsGap gap → IsLastGap gap
  | lineComment {gap comment} : IsGap gap → '\n' ∉ comment →
      IsLastGap (gap ++ '/' :: '/' :: comment)

/-- Whether a text is empty or starts with a blank. -/
def opensGap : List Char → Bool
  | [] => true
  | first :: _ => isBlank first

/-- A text behind a token that writes these tokens, each behind a gap that starts with a blank. -/
inductive Follows : List Token → List Char → Prop
  | last {gap} : opensGap gap = true → IsLastGap gap → Follows [] gap
  | token {blank gap token tokens rest} : isBlank blank = true → IsGap gap → Follows tokens rest →
      Follows (token :: tokens) (blank :: (gap ++ (token.characters ++ rest)))

/-- A text that writes these tokens, with a gap that starts with a blank between two of them and any
gap in front. -/
inductive Writes : List Token → List Char → Prop
  | last {gap} : IsLastGap gap → Writes [] gap
  | token {gap token tokens rest} : IsGap gap → Follows tokens rest →
      Writes (token :: tokens) (gap ++ (token.characters ++ rest))

/-! ## Where a gap ends -/

/-- Whether a comment starts here. -/
def opensComment : List Char → Bool
  | '/' :: '/' :: _ | '/' :: '*' :: _ => true
  | _ => false

/-- Whether there is no gap here. -/
def isSettled : List Char → Bool
  | [] => true
  | first :: rest => !isBlank first && !opensComment (first :: rest)

theorem gapEnd_of_isSettled {characters : List Char} (settled : isSettled characters = true)
    (offset : Nat) : gapEnd .blanks offset characters = ⟨offset, characters⟩ := by
  cases characters with
  | nil => rfl
  | cons first rest =>
      simp only [isSettled, Bool.and_eq_true, Bool.not_eq_true'] at settled
      rw [gapEnd, settled.1]
      · rfl
      all_goals
        rintro after rfl rfl
        exact Bool.noConfusion settled.2

theorem gapEnd_blank {blank : Char} (separates : isBlank blank = true) (offset : Nat)
    (rest : List Char) : gapEnd .blanks offset (blank :: rest) = gapEnd .blanks (offset + 1) rest := by
  have solid : blank ≠ '/' := by
    rintro rfl
    exact absurd separates Bool.false_ne_true
  rw [gapEnd, if_pos separates]
  · rintro _ rfl
    exact absurd rfl solid
  · rintro _ rfl
    exact absurd rfl solid

/-- A comment to the end of the line ends behind the line feed. -/
theorem gapEnd_lineComment {comment : List Char} (inLine : '\n' ∉ comment) (offset : Nat)
    (rest : List Char) : ∃ later, gapEnd .lineComment offset (comment ++ '\n' :: rest) =
      gapEnd .blanks later rest := by
  induction comment generalizing offset with
  | nil => exact ⟨offset + 1, rfl⟩
  | cons first more ih =>
      obtain ⟨here, others⟩ := List.ne_and_not_mem_of_not_mem_cons inLine
      rw [List.cons_append, gapEnd, if_neg (Ne.symm here)]
      exact ih others _

/-- A comment in the last line may end with the text. -/
theorem gapEnd_lastComment {comment : List Char} (inLine : '\n' ∉ comment) (offset : Nat) :
    (gapEnd .lineComment offset comment).rest = [] := by
  induction comment generalizing offset with
  | nil => rfl
  | cons first more ih =>
      obtain ⟨here, others⟩ := List.ne_and_not_mem_of_not_mem_cons inLine
      rw [gapEnd, if_neg (Ne.symm here)]
      exact ih others _

/-- A bracketed comment ends behind the first closing bracket. -/
theorem gapEnd_bracketComment {comment : List Char} (open' : ¬ ['*', '/'] <:+: comment)
    (opening : Cursor) (offset : Nat) (rest : List Char) :
    ∃ later, gapEnd (.bracketComment opening) offset (comment ++ '*' :: '/' :: rest) =
      gapEnd .blanks later rest := by
  induction comment generalizing offset with
  | nil => exact ⟨offset + 2, rfl⟩
  | cons first more ih =>
      rw [List.cons_append, gapEnd]
      · exact ih (fun inside ↦ open' (List.infix_cons inside)) _
      · rintro after rfl same
        cases more with
        | nil => exact absurd (List.cons.inj same).1 (by decide)
        | cons second others =>
            obtain rfl := (List.cons.inj same).1
            exact open' ⟨[], others, rfl⟩

/-- A gap ends where it ends, whatever stands behind it. -/
theorem IsGap.gapEnd {gap : List Char} (blanks : IsGap gap) (offset : Nat) (rest : List Char) :
    ∃ later, gapEnd .blanks offset (gap ++ rest) = gapEnd .blanks later rest := by
  induction blanks generalizing offset with
  | nil => exact ⟨offset, rfl⟩
  | blank separates _ ih =>
      rw [List.cons_append, gapEnd_blank separates]
      exact ih _
  | @lineComment comment after inLine _ ih =>
      obtain ⟨later, ended⟩ := gapEnd_lineComment inLine (offset + 2) (after ++ rest)
      obtain ⟨last, ended'⟩ := ih later
      refine ⟨last, ?_⟩
      rw [← ended', ← ended]
      simp only [List.cons_append, List.append_assoc, Cursor.gapEnd]
  | @bracketComment comment after open' _ ih =>
      obtain ⟨later, ended⟩ := gapEnd_bracketComment open'
        ⟨offset, '/' :: '*' :: (comment ++ '*' :: '/' :: (after ++ rest))⟩ (offset + 2)
        (after ++ rest)
      obtain ⟨last, ended'⟩ := ih later
      refine ⟨last, ?_⟩
      rw [← ended', ← ended]
      simp only [List.cons_append, List.append_assoc, Cursor.gapEnd]

theorem IsLastGap.gapEnd {gap : List Char} (blanks : IsLastGap gap) (offset : Nat) :
    (gapEnd .blanks offset gap).rest = [] := by
  cases blanks with
  | gap blanks =>
      obtain ⟨later, ended⟩ := blanks.gapEnd offset []
      rw [List.append_nil] at ended
      rw [ended]
      rfl
  | @lineComment gap comment blanks inLine =>
      obtain ⟨later, ended⟩ := blanks.gapEnd offset ('/' :: '/' :: comment)
      rw [ended]
      exact gapEnd_lastComment inLine _

/-! ## Texts that are alike -/

/-- Whether a character may be part of a token other than a string. -/
def isPlain (character : Char) : Bool :=
  !isBlank character && character ≠ '"'

mutual

/-- The same characters stand in both texts, up to other gaps, and neither starts with a gap. -/
inductive Aligned : List Char → List Char → Prop
  | nil : Aligned [] []
  | plain {character first second} : isPlain character = true →
      opensComment (character :: first) = false → opensComment (character :: second) = false →
      Alike first second → Aligned (character :: first) (character :: second)
  | string {body first second} : IsStringBody body → Alike first second →
      Aligned ('"' :: (body ++ '"' :: first)) ('"' :: (body ++ '"' :: second))

/-- The same characters stand in both texts, up to other gaps. -/
inductive Alike : List Char → List Char → Prop
  | aligned {first second} : Aligned first second → Alike first second
  | gap {before before' first second} : opensGap before = true → opensGap before' = true →
      (∀ offset, (gapEnd .blanks offset before).rest = first) →
      (∀ offset, (gapEnd .blanks offset before').rest = second) →
      Aligned first second → Alike before before'

end

namespace Aligned

theorem isSettled_left {first second : List Char} (aligned : Aligned first second) :
    isSettled first = true := by
  cases aligned with
  | nil => rfl
  | plain plain here _ _ =>
      rw [isPlain, Bool.and_eq_true] at plain
      rw [isSettled, plain.1, here]
      rfl
  | string => rfl

theorem isSettled_right {first second : List Char} (aligned : Aligned first second) :
    isSettled second = true := by
  cases aligned with
  | nil => rfl
  | plain plain _ here _ =>
      rw [isPlain, Bool.and_eq_true] at plain
      rw [isSettled, plain.1, here]
      rfl
  | string => rfl

end Aligned

/-- Past the gaps in front of them, the texts are still alike. -/
theorem Alike.skipGap {first second : Cursor} (alike : Alike first.rest second.rest) :
    Aligned first.skipGap.rest second.skipGap.rest := by
  cases alike with
  | aligned aligned =>
      rw [Cursor.skipGap, Cursor.skipGap, gapEnd_of_isSettled aligned.isSettled_left,
        gapEnd_of_isSettled aligned.isSettled_right]
      exact aligned
  | gap _ _ ended ended' aligned =>
      rw [Cursor.skipGap, Cursor.skipGap, ended, ended']
      exact aligned

/-! ## Texts that write the same tokens are alike -/

/-- Whether these characters may be a token other than a string. A slash stands for itself only, or
it might start a comment. -/
def spellsToken (characters : List Char) : Bool :=
  characters = ['/'] ||
    !characters.isEmpty && characters.all fun character ↦ isPlain character && character ≠ '/'

theorem spellsToken_keyword : ∀ word ∈ keywords, spellsToken word.toList = true := by
  decide

theorem spellsToken_symbol : ∀ text ∈ symbols, spellsToken text.toList = true := by
  decide

/-- A letter or a digit is plain and is no slash. -/
theorem isPlain_of_isAlphanum {character : Char} (inWord : character.isAlphanum = true) :
    isPlain character = true ∧ character ≠ '/' := by
  have differs (other : Char) (outside : other.isAlphanum = false) : character ≠ other := by
    rintro rfl
    exact absurd inWord (Bool.eq_false_iff.mp outside)
  refine ⟨?_, differs '/' rfl⟩
  simp only [isPlain, isBlank, differs ' ' rfl, differs '\t' rfl, differs '\r' rfl,
    differs '\n' rfl, ne_eq, differs '"' rfl]
  decide

theorem isPlain_of_isAlpha {character : Char} (letter : character.isAlpha = true) :
    isPlain character = true ∧ character ≠ '/' :=
  isPlain_of_isAlphanum (by rw [Char.isAlphanum, letter, Bool.true_or])

theorem isPlain_of_isDigit {character : Char} (digit : character.isDigit = true) :
    isPlain character = true ∧ character ≠ '/' :=
  isPlain_of_isAlphanum (by rw [Char.isAlphanum, digit, Bool.or_true])

theorem spellsToken_of_forall {characters : List Char} (some : characters ≠ [])
    (plain : ∀ character ∈ characters, isPlain character = true ∧ character ≠ '/') :
    spellsToken characters = true := by
  rw [spellsToken, Bool.or_eq_true, Bool.and_eq_true]
  refine .inr ⟨by rwa [Bool.not_eq_true', List.isEmpty_eq_false_iff], List.all_eq_true.mpr ?_⟩
  intro character inside
  rw [Bool.and_eq_true, decide_eq_true_eq]
  exact plain character inside

theorem spellsToken_identifier {name : String} (shaped : isIdentifier name = true) :
    spellsToken name.toList = true := by
  rw [isIdentifier] at shaped
  split at shaped
  · exact absurd shaped Bool.false_ne_true
  · next first rest same =>
      simp only [Bool.and_eq_true, Bool.or_eq_true, decide_eq_true_eq, List.all_eq_true] at shaped
      rw [same]
      refine spellsToken_of_forall (List.cons_ne_nil _ _) (List.forall_mem_cons.mpr ⟨?_, ?_⟩)
      · obtain letter | rfl := shaped.1.1
        · exact isPlain_of_isAlpha letter
        · decide
      · intro part inside
        obtain inWord | rfl := shaped.1.2 part inside
        · exact isPlain_of_isAlphanum inWord
        · decide

theorem spellsToken_integer {digits : String} (shaped : isNumber digits = true) :
    spellsToken digits.toList = true := by
  simp only [isNumber, Bool.and_eq_true, Bool.not_eq_true', List.isEmpty_eq_false_iff,
    List.all_eq_true] at shaped
  exact spellsToken_of_forall shaped.1 fun digit inside ↦ isPlain_of_isDigit (shaped.2 digit inside)

theorem opensComment_of_ne {first : Char} (solid : first ≠ '/') (rest : List Char) :
    opensComment (first :: rest) = false := by
  rw [opensComment] <;> exact fun _ same ↦ solid (List.cons.inj same).1

theorem opensComment_of_opensGap {rest : List Char} (gap : opensGap rest = true) :
    opensComment ('/' :: rest) = false := by
  cases rest with
  | nil => rfl
  | cons first more =>
      rw [opensComment]
      all_goals
        intro _ same
        obtain rfl := (List.cons.inj (List.cons.inj same).2).1
        exact absurd gap Bool.false_ne_true

theorem Aligned.cons {character : Char} {first second : List Char}
    (plain : isPlain character = true ∧ character ≠ '/') (alike : Alike first second) :
    Aligned (character :: first) (character :: second) :=
  .plain plain.1 (opensComment_of_ne plain.2 first) (opensComment_of_ne plain.2 second) alike

theorem Alike.append {characters first second : List Char}
    (plain : ∀ character ∈ characters, isPlain character = true ∧ character ≠ '/')
    (alike : Alike first second) : Alike (characters ++ first) (characters ++ second) := by
  induction characters with
  | nil => exact alike
  | cons character more ih =>
      obtain ⟨here, others⟩ := List.forall_mem_cons.mp plain
      exact .aligned (.cons here (ih others))

/-- Behind a token there is a gap, or nothing, so that even a slash starts no comment. -/
theorem Aligned.append {characters first second : List Char}
    (spells : spellsToken characters = true) (left : opensGap first = true)
    (right : opensGap second = true) (alike : Alike first second) :
    Aligned (characters ++ first) (characters ++ second) := by
  rw [spellsToken, Bool.or_eq_true, decide_eq_true_eq, Bool.and_eq_true] at spells
  obtain rfl | ⟨some, plain⟩ := spells
  · exact .plain rfl (opensComment_of_opensGap left) (opensComment_of_opensGap right) alike
  · simp only [List.all_eq_true, Bool.and_eq_true, decide_eq_true_eq] at plain
    cases characters with
    | nil => exact absurd some Bool.false_ne_true
    | cons character more =>
        obtain ⟨here, others⟩ := List.forall_mem_cons.mp plain
        exact .cons here (.append others alike)

theorem Token.aligned (token : Token) {first second : List Char} (left : opensGap first = true)
    (right : opensGap second = true) (alike : Alike first second) :
    Aligned (token.characters ++ first) (token.characters ++ second) := by
  cases token with
  | keyword word known => exact .append (spellsToken_keyword word known) left right alike
  | identifier name shaped => exact .append (spellsToken_identifier shaped) left right alike
  | integer digits shaped => exact .append (spellsToken_integer shaped) left right alike
  | symbol text known => exact .append (spellsToken_symbol text known) left right alike
  | string body closed =>
      simp only [characters, List.cons_append, List.append_assoc, List.nil_append]
      exact .string closed alike

theorem Follows.opensGap {tokens : List Token} {rest : List Char} (follows : Follows tokens rest) :
    opensGap rest = true := by
  cases follows with
  | last opens _ => exact opens
  | token separates _ _ => exact separates

theorem Follows.alike {tokens : List Token} {first second : List Char}
    (left : Follows tokens first) (right : Follows tokens second) : Alike first second := by
  induction left generalizing second with
  | last opens ends =>
      cases right with
      | last opens' ends' => exact .gap opens opens' ends.gapEnd ends'.gapEnd .nil
  | @token blank gap token tokens rest separates blanks follows ih =>
      cases right with
      | @token blank' gap' _ _ rest' separates' blanks' follows' =>
          have aligned := token.aligned follows.opensGap follows'.opensGap (ih follows')
          have ended {blank gap rest} (separates : isBlank blank = true) (blanks : IsGap gap)
              (settled : isSettled rest = true) (offset : Nat) :
              (gapEnd .blanks offset (blank :: (gap ++ rest))).rest = rest := by
            obtain ⟨later, ended⟩ := blanks.gapEnd (offset + 1) rest
            rw [gapEnd_blank separates, ended, gapEnd_of_isSettled settled]
          exact .gap separates separates' (ended separates blanks aligned.isSettled_left)
            (ended separates' blanks' aligned.isSettled_right) aligned

/-- Two texts that write the same tokens are the same past the gaps in front. -/
theorem Writes.aligned {tokens : List Token} {first second : List Char}
    (left : Writes tokens first) (right : Writes tokens second) :
    Aligned (Cursor.start first).skipGap.rest (Cursor.start second).skipGap.rest := by
  cases left with
  | last ends =>
      cases right with
      | last ends' =>
          rw [Cursor.skipGap, Cursor.skipGap, Cursor.start, Cursor.start, ends.gapEnd, ends'.gapEnd]
          exact .nil
  | @token gap token tokens rest blanks follows =>
      cases right with
      | @token gap' _ _ rest' blanks' follows' =>
          have aligned := token.aligned follows.opensGap follows'.opensGap (follows.alike follows')
          obtain ⟨later, ended⟩ := blanks.gapEnd 0 (token.characters ++ rest)
          obtain ⟨later', ended'⟩ := blanks'.gapEnd 0 (token.characters ++ rest')
          rw [Cursor.skipGap, Cursor.skipGap, Cursor.start, Cursor.start, ended, ended',
            gapEnd_of_isSettled aligned.isSettled_left, gapEnd_of_isSettled aligned.isSettled_right]
          exact aligned

end GuestScript.Grammar
