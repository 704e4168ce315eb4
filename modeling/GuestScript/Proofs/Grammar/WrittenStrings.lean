import GuestScript.Proofs.Grammar.Strings

/-!
# The string literals of a tree are in the text

While a text is read, every place that the matcher comes to is a place of the text, behind gaps too. So
the span of a string literal in the tree of a text is where the text has it, with the quotes around
what the node holds: `isWritten_readFile`.
-/

namespace GuestScript.Grammar

/-- Every string literal of a tree stands in the text where its node says so. -/
inductive Node.IsWritten (text : List Char) : Node → Prop
  | leaf {rule span token} : IsWritten text (.leaf rule span token)
  | branch {rule span children} : rule ≠ .stringLiteral →
      (∀ child ∈ children, Node.IsWritten text child) → IsWritten text (.branch rule span children)
  | string {span body} : IsStringBody body → StandsAt text (quoted body) span →
      IsWritten text (.ofString span body)

/-! ## Places of a text -/

namespace Cursor

/-- A cursor stands at a place of a text: so many bytes of it lie before what is left. -/
def IsIn (text : List Char) (cursor : Cursor) : Prop :=
  ∃ before, Reads before (.start text) cursor

variable {text : List Char} {cursor : Cursor}

theorem IsIn.reads {characters : List Char} {after : Cursor} (inside : cursor.IsIn text)
    (reads : Reads characters cursor after) : after.IsIn text :=
  let ⟨before, start⟩ := inside
  ⟨before ++ characters, start.trans reads⟩

theorem IsIn.one {offset : Nat} {character : Char} {rest : List Char}
    (inside : IsIn text ⟨offset, character :: rest⟩) (narrow : character.utf8Size = 1) :
    IsIn text ⟨offset + 1, rest⟩ := by
  have reads : Reads [character] ⟨offset, character :: rest⟩ ⟨offset + 1, rest⟩ :=
    ⟨rfl, by rw [List.map_singleton, List.sum_singleton, narrow]⟩
  exact inside.reads reads

theorem IsIn.two {offset : Nat} {first second : Char} {rest : List Char}
    (inside : IsIn text ⟨offset, first :: second :: rest⟩) (narrow : first.utf8Size = 1)
    (narrow' : second.utf8Size = 1) : IsIn text ⟨offset + 2, rest⟩ :=
  (inside.one narrow).one narrow'

theorem utf8Size_of_isBlank {character : Char} (blank : isBlank character = true) :
    character.utf8Size = 1 := by
  simp only [isBlank, Bool.or_eq_true, decide_eq_true_eq] at blank
  obtain ((rfl | rfl) | rfl) | rfl := blank <;> rfl

/-- A gap ends at a place of the text, also where a bracketed comment turns out not to be closed. -/
theorem isIn_gapEnd (gap : Gap) (offset : Nat) (rest : List Char) (inside : IsIn text ⟨offset, rest⟩)
    (opened : ∀ opening, gap = .bracketComment opening → opening.IsIn text) :
    (gapEnd gap offset rest).IsIn text := by
  fun_induction gapEnd gap offset rest with
  | case1 offset rest ih => exact ih (inside.two rfl rfl) (fun _ same ↦ by cases same)
  | case2 offset rest ih =>
      refine ih (inside.two rfl rfl) fun opening same ↦ ?_
      obtain rfl := Gap.bracketComment.inj same
      exact inside
  | case3 offset character rest _ _ blank ih =>
      exact ih (inside.one (utf8Size_of_isBlank blank)) (fun _ same ↦ by cases same)
  | case5 offset rest ih => exact ih (inside.one rfl) (fun _ same ↦ by cases same)
  | case6 offset character rest _ ih => exact ih (inside.reads (.past _ rfl)) (fun _ same ↦ by cases same)
  | case7 opening offset rest ih => exact ih (inside.two rfl rfl) (fun _ same ↦ by cases same)
  | case8 opening offset character rest _ ih => exact ih (inside.reads (.past _ rfl)) opened
  | case11 opening => exact opened opening rfl
  | _ => exact inside

end Cursor

/-! ## Nodes made from a text -/

/-- The matcher stands at a place of the text, and has made nodes of it. -/
structure Progress.IsWritten (text : List Char) (progress : Progress) : Prop where
  cursor : progress.cursor.IsIn text
  nodes : ∀ node ∈ progress.nodes, node.IsWritten text

section Written

variable {text : List Char} {before after : Progress}

theorem Progress.IsWritten.skipGap (written : before.IsWritten text) (mode : Mode) :
    (before.skipGap mode).IsWritten text := by
  cases mode with
  | spaced => exact ⟨Cursor.isIn_gapEnd _ _ _ written.cursor nofun, written.nodes⟩
  | tight | atomic => exact written

theorem Progress.IsWritten.readsToken {pattern : Pattern} (written : before.IsWritten text)
    (read : ReadsToken pattern before after) : after.IsWritten text := by
  obtain ⟨⟨characters, _, reads⟩, nodes⟩ := read
  exact ⟨written.cursor.reads reads, by rw [nodes]; exact written.nodes⟩

/-- The node of a rule other than the one of string literals has those of its parts inside. -/
theorem Progress.IsWritten.close {name : Rule} (written : before.IsWritten text)
    (inside : after.IsWritten text) (other : name ≠ .stringLiteral) :
    (before.close name after).IsWritten text := by
  refine ⟨inside.cursor, List.forall_mem_cons.mpr ⟨?_, written.nodes⟩⟩
  rw [Progress.nodeFor]
  split
  · exact .leaf
  · exact .branch other fun child member ↦ inside.nodes child (List.mem_reverse.mp member)

/-- The node of a string literal is the one that the characters between the two quotes make. -/
theorem Progress.IsWritten.string {fuel : Nat} {mode : Mode} (outside : mode ≠ .atomic)
    (written : before.IsWritten text)
    (ran : run fuel mode (.rule .stringLiteral) before = some (.matched after)) :
    after.IsWritten text := by
  obtain ⟨body, closed, reads, nodes⟩ := stringLiteral_of_run outside ran
  refine ⟨written.cursor.reads reads, ?_⟩
  rw [nodes]
  refine List.forall_mem_cons.mpr ⟨.string closed ?_, written.nodes⟩
  obtain ⟨passed, start⟩ := written.cursor
  have offset : before.cursor.offset = bytesOf passed := start.offset.trans (Nat.zero_add _)
  refine ⟨passed, after.cursor.rest, start.rest.trans (congrArg (passed ++ ·) reads.rest), ?_⟩
  rw [reads.offset, offset]
  rfl

mutual

/-- A match outside tokens makes nodes of the text. -/
theorem isWritten_run : (fuel : Nat) → {mode : Mode} → (pattern : Pattern) → mode ≠ .atomic →
    {before after : Progress} → before.IsWritten text →
    run fuel mode pattern before = some (.matched after) → after.IsWritten text
  | 0, _, _, _, _, _, _, ran => absurd ran nofun
  | fuel + 1, _, .text _, _, _, _, written, ran => by
      simp only [run, Option.some.injEq] at ran
      exact written.readsToken (readsToken_orFail ran)
  | fuel + 1, _, .one _, _, _, _, written, ran => by
      simp only [run, Option.some.injEq] at ran
      exact written.readsToken (readsToken_one ran)
  | fuel + 1, mode, .rule name, outside, before, after, written, ran => by
      by_cases string : name = .stringLiteral
      · subst string
        exact written.string outside ran
      rw [run_rule outside] at ran
      obtain ⟨_, _, ran⟩ | ⟨inside, read, ran⟩ := resume_cases ran
      · exact absurd ran nofun
      · obtain rfl := Outcome.matched.inj (Option.some.inj ran)
        have fresh : Progress.IsWritten text { before with nodes := [] } :=
          ⟨written.cursor, List.forall_mem_nil _⟩
        refine written.close ?_ string
        by_cases token : name.mode = .atomic
        · rw [token] at read
          exact fresh.readsToken (readsToken_run fuel name.body read)
        · exact isWritten_run fuel name.body token fresh read
  | fuel + 1, mode, .sequence first second, outside, before, after, written, ran => by
      rw [run_sequence] at ran
      obtain ⟨_, _, ran⟩ | ⟨middle, read, ran⟩ := resume_cases ran
      · exact absurd ran nofun
      · have here := isWritten_run fuel first outside written read
        exact isWritten_run fuel second outside (here.skipGap mode) ran
  | fuel + 1, mode, .choice first second, outside, before, after, written, ran => by
      rw [run_choice] at ran
      obtain ⟨farthest, _, ran⟩ | ⟨matched, read, ran⟩ := resume_cases ran
      · have unread : Progress.IsWritten text { before with farthest } :=
          ⟨written.cursor, written.nodes⟩
        exact isWritten_run fuel second outside unread ran
      · obtain rfl := Outcome.matched.inj (Option.some.inj ran)
        exact isWritten_run fuel first outside written read
  | fuel + 1, mode, .optional inner, outside, before, after, written, ran => by
      rw [run_optional] at ran
      obtain ⟨_, _, ran⟩ | ⟨matched, read, ran⟩ := resume_cases ran
      · obtain rfl := Outcome.matched.inj (Option.some.inj ran)
        exact ⟨written.cursor, written.nodes⟩
      · obtain rfl := Outcome.matched.inj (Option.some.inj ran)
        exact isWritten_run fuel inner outside written read
  | fuel + 1, mode, .many inner, outside, before, after, written, ran => by
      rw [run_many] at ran
      obtain ⟨_, _, ran⟩ | ⟨middle, read, ran⟩ := resume_cases ran
      · obtain rfl := Outcome.matched.inj (Option.some.inj ran)
        exact ⟨written.cursor, written.nodes⟩
      · exact isWritten_runMore fuel inner outside
          (isWritten_run fuel inner outside written read) ran
  | fuel + 1, mode, .unless inner, outside, before, after, written, ran => by
      rw [run_unless] at ran
      obtain ⟨_, _, ran⟩ | ⟨_, _, ran⟩ := resume_cases ran
      · obtain rfl := Outcome.matched.inj (Option.some.inj ran)
        exact written
      · exact absurd ran nofun
  | fuel + 1, _, .startOfText, _, _, _, written, ran => by
      simp only [run, Option.some.injEq] at ran
      exact written.readsToken (readsToken_require .startOfText ran)
  | fuel + 1, _, .endOfText, _, _, _, written, ran => by
      simp only [run, Option.some.injEq] at ran
      exact written.readsToken (readsToken_require .endOfText ran)

/-- What is repeated makes nodes of the text again and again. -/
theorem isWritten_runMore : (fuel : Nat) → {mode : Mode} → (inner : Pattern) → mode ≠ .atomic →
    {before after : Progress} → before.IsWritten text →
    runMore fuel mode inner before = some (.matched after) → after.IsWritten text
  | 0, _, _, _, _, _, _, ran => absurd ran nofun
  | fuel + 1, mode, inner, outside, before, after, written, ran => by
      rw [runMore_succ] at ran
      obtain ⟨_, _, ran⟩ | ⟨middle, read, ran⟩ := resume_cases ran
      · obtain rfl := Outcome.matched.inj (Option.some.inj ran)
        exact ⟨written.cursor, written.nodes⟩
      · have here := isWritten_run fuel inner outside (written.skipGap mode) read
        exact isWritten_runMore fuel inner outside here ran

end

end Written

/-- Every string literal in the tree of a text stands in the text. -/
theorem isWritten_readFile {text : String} {node : Node} (read : readFile text = .ok node) :
    node.IsWritten text.toList := by
  delta readFile at read
  dsimp only at read
  split at read
  · next file farthest ran =>
      obtain rfl := Except.ok.inj read
      have start : Progress.IsWritten text.toList ⟨.start text.toList, [], .none⟩ :=
        ⟨⟨[], .refl _⟩, List.forall_mem_nil _⟩
      have made := isWritten_run _ _ (show Mode.spaced ≠ .atomic by decide) start ran
      exact made.nodes _ List.mem_cons_self
  all_goals exact absurd read nofun

end GuestScript.Grammar
