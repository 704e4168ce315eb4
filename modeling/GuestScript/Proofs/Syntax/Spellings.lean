import GuestScript.Proofs.Grammar.Layout
import GuestScript.Syntax.Literal

/-!
# How a text is spelled inside a string literal

A backslash and a double quote need a backslash in front, a newline, a tab and a NUL may have a name
behind one, and any other character stands for itself. `IsBodyOf` says that a row of characters spells
a text in this way, one character after the other.

Where the inside of a string ends and what it stands for are found by two scanners, which need not
agree. A spelled text is closed for the first one, and the second one reads it back without a problem:
`isStringBody_of_isBodyOf` and `string_of_isBodyOf`. Nothing else is closed and free of problems:
`isBodyOf_of_string`.
-/

namespace GuestScript.Syntax

open Grammar (IsStringBody)

/-- The ways to spell a character inside a string literal. -/
def spellings : Char → List (List Char)
  | '\\' => [['\\', '\\']]
  | '"' => [['\\', '"']]
  | '\n' => [['\n'], ['\\', 'n']]
  | '\t' => [['\t'], ['\\', 't']]
  | '\x00' => [['\x00'], ['\\', '0']]
  | character => [[character]]

/-- Characters inside a string literal spell a text: they split into one spelling for each of its
characters. -/
inductive IsBodyOf : List Char → List Char → Prop
  | nil : IsBodyOf [] []
  | cons {character value part body} : part ∈ spellings character → IsBodyOf value body →
      IsBodyOf (character :: value) (part ++ body)

/-- A character is spelled by itself, unless it is a quote or a backslash, or by a pair that stands for
it. -/
theorem mem_spellings_iff {character : Char} {part : List Char} :
    part ∈ spellings character ↔
      part = [character] ∧ character ≠ '"' ∧ character ≠ '\\' ∨
        ∃ mark, part = ['\\', mark] ∧ Literal.escaped? mark = some character := by
  have pairs (mark meant : Char) : Literal.escaped? mark = some meant →
      ['\\', mark] ∈ spellings meant := by
    intro found
    unfold Literal.escaped? at found
    split at found
    case h_6 => exact absurd found nofun
    all_goals
      obtain rfl := Option.some.inj found
      decide
  refine ⟨fun spelled ↦ ?_, ?_⟩
  · unfold spellings at spelled
    split at spelled
    all_goals simp only [List.mem_cons, List.not_mem_nil, or_false] at spelled
    · exact .inr ⟨_, spelled, rfl⟩
    · exact .inr ⟨_, spelled, rfl⟩
    iterate 3
      · rcases spelled with raw | pair
        · exact .inl ⟨raw, by decide, by decide⟩
        · exact .inr ⟨_, pair, rfl⟩
    · next slash quote _ _ _ => exact .inl ⟨spelled, quote, slash⟩
  · rintro (⟨rfl, quote, slash⟩ | ⟨mark, rfl, found⟩)
    · unfold spellings
      split
      all_goals first
        | exact absurd rfl slash
        | exact absurd rfl quote
        | exact List.mem_cons_self
    · exact pairs mark character found

/-- What spells a text has no quote but behind a backslash, and no backslash at its end. -/
theorem isStringBody_of_isBodyOf {value body : List Char} (spelled : IsBodyOf value body) :
    IsStringBody body := by
  induction spelled with
  | nil => exact .nil
  | cons here _ closed =>
      rcases mem_spellings_iff.mp here with ⟨rfl, quote, slash⟩ | ⟨mark, rfl, -⟩
      · exact .plain quote slash closed
      · exact .escaped mark closed

namespace Literal

section Scanner

variable (span : Span)

theorem push_append (text : String) (character : Char) (value : List Char) :
    text.push character ++ String.ofList value = text ++ String.ofList (character :: value) := by
  simp only [← String.toList_inj, String.toList_append, String.toList_push, String.toList_ofList,
    List.append_assoc, List.singleton_append]

theorem unescape_plain {character : Char} (slash : character ≠ '\\') (rest : List Char) (text : String)
    (problems : List Problem) : unescape span (character :: rest) text problems =
      unescape span rest (text.push character) problems := by
  rw [unescape]
  · exact fun same ↦ absurd same slash
  · exact fun _ _ same ↦ absurd same slash

theorem unescape_pair (mark : Char) (rest : List Char) (text : String) (problems : List Problem) :
    unescape span ('\\' :: mark :: rest) text problems =
      match escaped? mark with
      | some meant => unescape span rest (text.push meant) problems
      | none => unescape span rest text (.unknownEscape mark span :: problems) := by
  cases known : escaped? mark <;> simp only [unescape, known]

/-- Problems that were met before stay. -/
theorem unescape_keeps (characters : List Char) (text : String) (problems : List Problem) :
    ∀ problem ∈ problems, problem ∈ (unescape span characters text problems).2 := by
  fun_induction unescape span characters text problems with
  | case1 => exact fun _ inside ↦ List.mem_reverse.mpr inside
  | case2 => exact fun _ inside ↦ List.mem_reverse.mpr (List.mem_cons_of_mem _ inside)
  | case3 _ _ _ _ _ _ ih => exact ih
  | case4 _ _ _ _ _ ih => exact fun problem inside ↦ ih problem (List.mem_cons_of_mem _ inside)
  | case5 _ _ _ _ _ _ ih => exact ih

/-- All problems behind those that were met before are unknown escapes. -/
theorem forall_unescape {holds : Problem → Prop}
    (unknown : ∀ character, holds (.unknownEscape character span)) (characters : List Char)
    (text : String) (problems : List Problem) (before : ∀ problem ∈ problems, holds problem) :
    ∀ problem ∈ (unescape span characters text problems).2, holds problem := by
  fun_induction unescape span characters text problems with
  | case1 => exact fun problem inside ↦ before problem (List.mem_reverse.mp inside)
  | case2 =>
      exact fun problem inside ↦
        List.forall_mem_cons.mpr ⟨unknown ' ', before⟩ problem (List.mem_reverse.mp inside)
  | case3 _ _ _ _ _ _ ih => exact ih before
  | case4 _ _ _ _ _ ih => exact ih (List.forall_mem_cons.mpr ⟨unknown _, before⟩)
  | case5 _ _ _ _ _ _ ih => exact ih before

/-- What spells a text adds it to what was read before, and there is no problem with it. -/
theorem unescape_of_isBodyOf {value body : List Char} (spelled : IsBodyOf value body)
    (text : String) : unescape span body text [] = (text ++ String.ofList value, []) := by
  induction spelled generalizing text with
  | nil =>
      rw [unescape]
      exact congrArg (·, []) String.append_empty.symm
  | cons here _ ih =>
      rcases mem_spellings_iff.mp here with ⟨rfl, -, slash⟩ | ⟨mark, rfl, found⟩
      · rw [List.singleton_append, unescape_plain span slash, ih, push_append]
      · rw [List.cons_append, List.singleton_append, unescape_pair, found]
        exact (ih _).trans (congrArg (·, []) (push_append _ _ _))

/-- A closed row of characters that is read without an unknown pair spells what it adds. -/
theorem isBodyOf_of_unescape {body : List Char} (closed : IsStringBody body) {text : String}
    {problems : List Problem} (known : ∀ character,
      .unknownEscape character span ∉ (unescape span body text problems).2) :
    ∃ value, (unescape span body text problems).1 = text ++ String.ofList value ∧
      IsBodyOf value body := by
  induction closed generalizing text problems with
  | nil =>
      rw [unescape]
      exact ⟨[], String.append_empty.symm, .nil⟩
  | @plain character rest quote slash _ ih =>
      rw [unescape_plain span slash] at known ⊢
      obtain ⟨value, same, spelled⟩ := ih known
      refine ⟨character :: value, same.trans (push_append text character value), ?_⟩
      exact .cons (mem_spellings_iff.mpr (.inl ⟨rfl, quote, slash⟩)) spelled
  | @escaped rest mark _ ih =>
      rw [unescape_pair] at known ⊢
      split at known
      · next meant found =>
          obtain ⟨value, same, spelled⟩ := ih known
          refine ⟨meant :: value, same.trans (push_append text meant value), ?_⟩
          exact .cons (mem_spellings_iff.mpr (.inr ⟨mark, rfl, found⟩)) spelled
      · exact absurd (unescape_keeps span rest text _ _ List.mem_cons_self) (known mark)

end Scanner

theorem string_of_isBodyOf {value : String} {body : List Char}
    (spelled : IsBodyOf value.toList body) (span : Span) :
    string (String.ofList body) span = (value, []) := by
  rw [string, String.toList_ofList, unescape_of_isBodyOf span spelled, String.ofList_toList]
  exact congrArg (·, []) String.empty_append

theorem isBodyOf_of_string {body : List Char} {span : Span} (closed : IsStringBody body)
    (known : ∀ character, .unknownEscape character span ∉ (string (String.ofList body) span).2) :
    IsBodyOf (string (String.ofList body) span).1.toList body := by
  rw [string, String.toList_ofList] at known ⊢
  obtain ⟨value, same, spelled⟩ := isBodyOf_of_unescape span closed known
  rwa [same, String.empty_append, String.toList_ofList]

end Literal

end GuestScript.Syntax
