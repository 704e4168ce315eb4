import GuestScript.Proofs.Grammar.Tokens

/-!
# Rule trees follow the grammar

What the matcher gives back is a derivation: the text of a token is one that the pattern of its rule
spells, and the rules inside another one come in an order that its pattern allows. So what is to be
shown of every text that can be read is shown of derived trees, without the matcher: `isDerived_readFile`.
-/

namespace GuestScript.Grammar

/-- A pattern may read these characters inside a token. What is only looked at is not read. -/
inductive Pattern.Spells : Pattern → List Char → Prop
  | text (characters : List Char) : Spells (.text characters) characters
  | one {accepts : Char → Bool} {character : Char} : accepts character = true →
      Spells (.one accepts) [character]
  | rule {name : Rule} {characters : List Char} : Spells name.body characters →
      Spells (.rule name) characters
  | sequence {first second : Pattern} {characters more : List Char} : Spells first characters →
      Spells second more → Spells (.sequence first second) (characters ++ more)
  | left {first second : Pattern} {characters : List Char} : Spells first characters →
      Spells (.choice first second) characters
  | right {first second : Pattern} {characters : List Char} : Spells second characters →
      Spells (.choice first second) characters
  | absent {inner : Pattern} : Spells (.optional inner) []
  | present {inner : Pattern} {characters : List Char} : Spells inner characters →
      Spells (.optional inner) characters
  | last {inner : Pattern} : Spells (.many inner) []
  | more {inner : Pattern} {characters more : List Char} : Spells inner characters →
      Spells (.many inner) more → Spells (.many inner) (characters ++ more)
  | unless {inner : Pattern} : Spells (.unless inner) []
  | startOfText : Spells .startOfText []
  | endOfText : Spells .endOfText []

/-- A match of a pattern outside tokens may leave nodes of these rules, in this order. -/
inductive Pattern.Leaves : Pattern → List Rule → Prop
  | text {characters : List Char} : Leaves (.text characters) []
  | one {accepts : Char → Bool} : Leaves (.one accepts) []
  | rule {name : Rule} : Leaves (.rule name) [name]
  | sequence {first second : Pattern} {rules others : List Rule} : Leaves first rules →
      Leaves second others → Leaves (.sequence first second) (rules ++ others)
  | left {first second : Pattern} {rules : List Rule} : Leaves first rules →
      Leaves (.choice first second) rules
  | right {first second : Pattern} {rules : List Rule} : Leaves second rules →
      Leaves (.choice first second) rules
  | absent {inner : Pattern} : Leaves (.optional inner) []
  | present {inner : Pattern} {rules : List Rule} : Leaves inner rules →
      Leaves (.optional inner) rules
  | last {inner : Pattern} : Leaves (.many inner) []
  | more {inner : Pattern} {rules others : List Rule} : Leaves inner rules →
      Leaves (.many inner) others → Leaves (.many inner) (rules ++ others)
  | unless {inner : Pattern} : Leaves (.unless inner) []
  | startOfText : Leaves .startOfText []
  | endOfText : Leaves .endOfText []

/-- A tree that follows the grammar: tokens are spelled by their rules, and the nodes inside a rule
are ones that its pattern leaves. -/
inductive Node.IsDerived : Node → Prop
  | leaf {rule : Rule} {span : Span} {text : String} : rule.mode = .atomic →
      rule.body.Spells text.toList → IsDerived (.leaf rule span text)
  | branch {rule : Rule} {span : Span} {children : List Node} : rule.mode ≠ .atomic →
      rule.body.Leaves (children.map Node.rule) → (∀ child ∈ children, child.IsDerived) →
      IsDerived (.branch rule span children)

/-! ## What a pattern spells -/

namespace Pattern

section Spells

variable {first second inner : Pattern} {characters : List Char}

@[simp]
theorem spells_text {wanted : List Char} : (text wanted).Spells characters ↔ characters = wanted :=
  ⟨fun spelled ↦ by cases spelled; rfl, fun same ↦ same ▸ .text wanted⟩

@[simp]
theorem spells_one {accepts : Char → Bool} : (one accepts).Spells characters ↔
    ∃ character, accepts character = true ∧ characters = [character] := by
  refine ⟨fun spelled ↦ ?_, ?_⟩
  · cases spelled with
    | one accepted => exact ⟨_, accepted, rfl⟩
  · rintro ⟨character, accepted, rfl⟩
    exact .one accepted

@[simp]
theorem spells_sequence : (sequence first second).Spells characters ↔
    ∃ before, first.Spells before ∧ ∃ after, second.Spells after ∧ characters = before ++ after := by
  refine ⟨fun spelled ↦ ?_, ?_⟩
  · cases spelled with
    | sequence here others => exact ⟨_, here, _, others, rfl⟩
  · rintro ⟨before, here, after, others, rfl⟩
    exact .sequence here others

@[simp]
theorem spells_choice : (choice first second).Spells characters ↔
    first.Spells characters ∨ second.Spells characters := by
  refine ⟨fun spelled ↦ ?_, fun spelled ↦ spelled.elim .left .right⟩
  cases spelled with
  | left here => exact .inl here
  | right here => exact .inr here

@[simp]
theorem spells_unless : (Pattern.unless inner).Spells characters ↔ characters = [] :=
  ⟨fun spelled ↦ by cases spelled; rfl, fun same ↦ same ▸ .unless⟩

/-- What is repeated spells nothing but characters that each time may spell. -/
theorem forall_of_spells_many {holds : Char → Prop}
    (each : ∀ part, inner.Spells part → ∀ character ∈ part, holds character)
    (spelled : (many inner).Spells characters) : ∀ character ∈ characters, holds character := by
  generalize same : many inner = pattern at spelled
  induction spelled with
  | last => exact nofun
  | more here _ _ ih =>
      obtain rfl := Pattern.many.inj same
      exact List.forall_mem_append.mpr ⟨each _ here, ih rfl⟩
  | _ => exact absurd same nofun

end Spells

end Pattern

/-! ## What a pattern leaves -/

namespace Pattern

section Leaves

variable {first second inner : Pattern} {rules : List Rule}

@[simp]
theorem leaves_text {characters : List Char} : (text characters).Leaves rules ↔ rules = [] :=
  ⟨fun leaves ↦ by cases leaves; rfl, fun same ↦ same ▸ .text⟩

@[simp]
theorem leaves_rule {name : Rule} : (rule name).Leaves rules ↔ rules = [name] :=
  ⟨fun leaves ↦ by cases leaves; rfl, fun same ↦ same ▸ .rule⟩

@[simp]
theorem leaves_sequence : (sequence first second).Leaves rules ↔
    ∃ before, first.Leaves before ∧ ∃ after, second.Leaves after ∧ rules = before ++ after := by
  refine ⟨fun leaves ↦ ?_, ?_⟩
  · cases leaves with
    | sequence here others => exact ⟨_, here, _, others, rfl⟩
  · rintro ⟨before, here, after, others, rfl⟩
    exact .sequence here others

@[simp]
theorem leaves_choice : (choice first second).Leaves rules ↔
    first.Leaves rules ∨ second.Leaves rules := by
  refine ⟨fun leaves ↦ ?_, fun leaves ↦ leaves.elim .left .right⟩
  cases leaves with
  | left here => exact .inl here
  | right here => exact .inr here

@[simp]
theorem leaves_optional : (optional inner).Leaves rules ↔ rules = [] ∨ inner.Leaves rules := by
  refine ⟨fun leaves ↦ ?_, ?_⟩
  · cases leaves with
    | absent => exact .inl rfl
    | present here => exact .inr here
  · rintro (rfl | here)
    · exact .absent
    · exact .present here

@[simp]
theorem leaves_unless : (Pattern.unless inner).Leaves rules ↔ rules = [] :=
  ⟨fun leaves ↦ by cases leaves; rfl, fun same ↦ same ▸ .unless⟩

@[simp]
theorem leaves_startOfText : startOfText.Leaves rules ↔ rules = [] :=
  ⟨fun leaves ↦ by cases leaves; rfl, fun same ↦ same ▸ .startOfText⟩

@[simp]
theorem leaves_endOfText : endOfText.Leaves rules ↔ rules = [] :=
  ⟨fun leaves ↦ by cases leaves; rfl, fun same ↦ same ▸ .endOfText⟩

/-- What is repeated leaves the rules of each time, one after the other. -/
theorem leaves_many : (many inner).Leaves rules ↔
    ∃ parts : List (List Rule), (∀ part ∈ parts, inner.Leaves part) ∧ rules = parts.flatten := by
  refine ⟨fun leaves ↦ ?_, ?_⟩
  · generalize same : many inner = pattern at leaves
    induction leaves with
    | last => exact ⟨[], nofun, rfl⟩
    | more here _ _ ih =>
        obtain rfl := Pattern.many.inj same
        obtain ⟨parts, each, rfl⟩ := ih rfl
        exact ⟨_ :: parts, List.forall_mem_cons.mpr ⟨here, each⟩, rfl⟩
    | _ => exact absurd same nofun
  · rintro ⟨parts, each, rfl⟩
    induction parts with
    | nil => exact .last
    | cons first rest ih =>
        obtain ⟨here, others⟩ := List.forall_mem_cons.mp each
        exact .more here (ih others)

end Leaves

/-- The rules that a pattern asks for, but for those that it only looks for. -/
def rules : Pattern → List Rule
  | .rule name => [name]
  | .sequence first second | .choice first second => first.rules ++ second.rules
  | .optional inner | .many inner => inner.rules
  | _ => []

theorem mem_rules_of_leaves {pattern : Pattern} {names : List Rule} (leaves : pattern.Leaves names) :
    ∀ rule ∈ names, rule ∈ pattern.rules := by
  induction leaves with
  | rule => exact fun _ inside ↦ inside
  | sequence _ _ first second =>
      intro rule inside
      exact List.mem_append.mpr ((List.mem_append.mp inside).imp (first rule) (second rule))
  | left _ ih => exact fun rule inside ↦ List.mem_append_left _ (ih rule inside)
  | right _ ih => exact fun rule inside ↦ List.mem_append_right _ (ih rule inside)
  | present _ ih => exact ih
  | more _ _ here others =>
      exact fun rule inside ↦ (List.mem_append.mp inside).elim (here rule) (others rule)
  | _ => exact nofun

end Pattern

/-- A keyword is only looked for: no rule has one inside it. -/
theorem Rule.keyword_not_mem_rules (rule : Rule) (outside : rule.mode ≠ .atomic) :
    .keyword ∉ Pattern.rules rule.body := by
  cases rule <;> first
    | decide
    | exact absurd rfl outside

theorem Rule.ne_keyword_of_leaves {rule part : Rule} {names : List Rule} (outside : rule.mode ≠ .atomic)
    (leaves : rule.body.Leaves names) (inside : part ∈ names) : part ≠ .keyword := by
  rintro rfl
  exact rule.keyword_not_mem_rules outside (Pattern.mem_rules_of_leaves leaves _ inside)

/-! ## Inside a token -/

theorem Cursor.reads_of_skip? : {characters : List Char} → {cursor after : Cursor} →
    cursor.skip? characters = some after → Reads characters cursor after
  | [], cursor, after, skipped => by
      obtain rfl := Option.some.inj skipped
      exact .refl cursor
  | expected :: more, cursor, after, skipped => by
      rw [skip?] at skipped
      split at skipped
      · cases skipped
      · next found rest next =>
          split at skipped
          · next same =>
              subst same
              exact (Reads.past cursor next).trans (reads_of_skip? skipped)
          · cases skipped

/-- Between two states characters were read that a pattern spells, and no node was made. -/
def ReadsToken (pattern : Pattern) (before after : Progress) : Prop :=
  (∃ characters, pattern.Spells characters ∧ Cursor.Reads characters before.cursor after.cursor) ∧
    after.nodes = before.nodes

section Tokens

variable {first second inner : Pattern} {before middle after : Progress}

theorem readsToken_orFail {characters : List Char}
    (ran : before.orFail (before.cursor.skip? characters) = .matched after) :
    ReadsToken (.text characters) before after := by
  cases skipped : before.cursor.skip? characters with
  | none => rw [skipped] at ran; exact absurd ran nofun
  | some cursor =>
      rw [skipped] at ran
      obtain rfl := Outcome.matched.inj ran
      exact ⟨⟨characters, .text characters, Cursor.reads_of_skip? skipped⟩, rfl⟩

theorem readsToken_one {accepts : Char → Bool} (ran : before.one accepts = .matched after) :
    ReadsToken (.one accepts) before after := by
  rw [Progress.one] at ran
  split at ran
  · cases ran
  · next character rest next =>
      split at ran
      · next accepted =>
          obtain rfl := Outcome.matched.inj ran
          exact ⟨⟨[character], .one accepted, .past _ next⟩, rfl⟩
      · cases ran

theorem readsToken_require {condition : Bool} {pattern : Pattern} (nothing : pattern.Spells [])
    (ran : before.require condition = .matched after) : ReadsToken pattern before after := by
  rw [Progress.require] at ran
  split at ran
  · obtain rfl := Outcome.matched.inj ran
    exact ⟨⟨[], nothing, .refl _⟩, rfl⟩
  · cases ran

theorem ReadsToken.imp {pattern pattern' : Pattern} (read : ReadsToken pattern before after)
    (implies : ∀ characters, pattern.Spells characters → pattern'.Spells characters) :
    ReadsToken pattern' before after := by
  obtain ⟨⟨characters, spelled, reads⟩, nodes⟩ := read
  exact ⟨⟨characters, implies characters spelled, reads⟩, nodes⟩

theorem ReadsToken.trans {pattern : Pattern} (read : ReadsToken first before middle)
    (goes : ReadsToken second middle after)
    (joined : ∀ characters more, first.Spells characters → second.Spells more →
      pattern.Spells (characters ++ more)) : ReadsToken pattern before after := by
  obtain ⟨⟨characters, spelled, reads⟩, nodes⟩ := read
  obtain ⟨⟨more, spelled', reads'⟩, nodes'⟩ := goes
  exact ⟨⟨characters ++ more, joined _ _ spelled spelled', reads.trans reads'⟩, nodes'.trans nodes⟩

theorem readsToken_stay {pattern : Pattern} (nothing : pattern.Spells []) (farthest : Farthest) :
    ReadsToken pattern before { before with farthest } :=
  ⟨⟨[], nothing, .refl _⟩, rfl⟩

end Tokens

mutual

/-- What a pattern reads inside a token it spells. -/
theorem readsToken_run : (fuel : Nat) → (pattern : Pattern) → {before after : Progress} →
    run fuel .atomic pattern before = some (.matched after) → ReadsToken pattern before after
  | 0, _, _, _, ran => absurd ran nofun
  | fuel + 1, .text _, _, _, ran => readsToken_orFail (Option.some.inj ran)
  | fuel + 1, .one _, _, _, ran => readsToken_one (Option.some.inj ran)
  | fuel + 1, .rule name, _, _, ran => by
      rw [run] at ran
      exact (readsToken_run fuel name.body ran).imp fun _ ↦ .rule
  | fuel + 1, .sequence first second, before, after, ran => by
      rw [run_sequence] at ran
      obtain ⟨_, _, ran⟩ | ⟨middle, read, ran⟩ := resume_cases ran
      · exact absurd ran nofun
      · have goes : ReadsToken second middle after := readsToken_run fuel second ran
        exact (readsToken_run fuel first read).trans goes fun _ _ ↦ .sequence
  | fuel + 1, .choice first second, before, after, ran => by
      rw [run_choice] at ran
      obtain ⟨farthest, _, ran⟩ | ⟨matched, read, ran⟩ := resume_cases ran
      · have other := readsToken_run fuel second ran
        exact (show ReadsToken second before after from other).imp fun _ ↦ .right
      · obtain rfl := Outcome.matched.inj (Option.some.inj ran)
        exact (readsToken_run fuel first read).imp fun _ ↦ .left
  | fuel + 1, .optional inner, before, after, ran => by
      rw [run_optional] at ran
      obtain ⟨farthest, _, ran⟩ | ⟨matched, read, ran⟩ := resume_cases ran
      · obtain rfl := Outcome.matched.inj (Option.some.inj ran)
        exact readsToken_stay .absent farthest
      · obtain rfl := Outcome.matched.inj (Option.some.inj ran)
        exact (readsToken_run fuel inner read).imp fun _ ↦ .present
  | fuel + 1, .many inner, before, after, ran => by
      rw [run_many] at ran
      obtain ⟨farthest, _, ran⟩ | ⟨middle, read, ran⟩ := resume_cases ran
      · obtain rfl := Outcome.matched.inj (Option.some.inj ran)
        exact readsToken_stay .last farthest
      · exact (readsToken_run fuel inner read).trans (readsToken_runMore fuel inner ran)
          fun _ _ ↦ .more
  | fuel + 1, .unless inner, before, after, ran => by
      rw [run_unless] at ran
      obtain ⟨_, _, ran⟩ | ⟨_, _, ran⟩ := resume_cases ran
      · obtain rfl := Outcome.matched.inj (Option.some.inj ran)
        exact readsToken_stay .unless _
      · exact absurd ran nofun
  | fuel + 1, .startOfText, _, _, ran => readsToken_require .startOfText (Option.some.inj ran)
  | fuel + 1, .endOfText, _, _, ran => readsToken_require .endOfText (Option.some.inj ran)

/-- What is repeated inside a token is spelled again and again. -/
theorem readsToken_runMore : (fuel : Nat) → (inner : Pattern) → {before after : Progress} →
    runMore fuel .atomic inner before = some (.matched after) →
    ReadsToken (.many inner) before after
  | 0, _, _, _, ran => absurd ran nofun
  | fuel + 1, inner, before, after, ran => by
      rw [runMore_succ] at ran
      obtain ⟨farthest, _, ran⟩ | ⟨middle, read, ran⟩ := resume_cases ran
      · obtain rfl := Outcome.matched.inj (Option.some.inj ran)
        exact readsToken_stay .last farthest
      · have here : ReadsToken inner before middle := readsToken_run fuel inner read
        exact here.trans (readsToken_runMore fuel inner ran) fun _ _ ↦ .more

end

/-! ## Outside tokens -/

/-- Between two states nodes were added that a pattern leaves, and each of them follows the
grammar. -/
def AddsNodes (pattern : Pattern) (before after : Progress) : Prop :=
  ∃ added : List Node, after.nodes = added.reverse ++ before.nodes ∧ pattern.Leaves (added.map Node.rule) ∧
    ∀ node ∈ added, node.IsDerived

section Nodes

variable {pattern pattern' first second : Pattern} {before middle after : Progress}

theorem addsNodes_of_nodes (nothing : pattern.Leaves []) (nodes : after.nodes = before.nodes) :
    AddsNodes pattern before after :=
  ⟨[], nodes, nothing, nofun⟩

theorem AddsNodes.imp (adds : AddsNodes pattern before after)
    (implies : ∀ rules, pattern.Leaves rules → pattern'.Leaves rules) :
    AddsNodes pattern' before after := by
  obtain ⟨added, nodes, leaves, derived⟩ := adds
  exact ⟨added, nodes, implies _ leaves, derived⟩

theorem AddsNodes.trans (adds : AddsNodes first before middle) (goes : AddsNodes second middle after)
    (joined : ∀ rules others, first.Leaves rules → second.Leaves others →
      pattern.Leaves (rules ++ others)) : AddsNodes pattern before after := by
  obtain ⟨added, nodes, leaves, derived⟩ := adds
  obtain ⟨others, nodes', leaves', derived'⟩ := goes
  refine ⟨added ++ others, ?_, ?_, List.forall_mem_append.mpr ⟨derived, derived'⟩⟩
  · rw [nodes', nodes, List.reverse_append, List.append_assoc]
  · rw [List.map_append]
    exact joined _ _ leaves leaves'

/-- A gap between two parts adds no node. -/
theorem AddsNodes.skipGap {mode : Mode} (adds : AddsNodes pattern (before.skipGap mode) after) :
    AddsNodes pattern before after := by
  have nodes : (before.skipGap mode).nodes = before.nodes := by cases mode <;> rfl
  obtain ⟨added, nodes', leaves, derived⟩ := adds
  exact ⟨added, by rw [nodes', nodes], leaves, derived⟩

/-- The node of a token follows the grammar. -/
theorem addsNodes_token {rule : Rule} (token : rule.mode = .atomic)
    (read : ReadsToken rule.body { before with nodes := [] } after) :
    AddsNodes (.rule rule) before (before.close rule after) := by
  obtain ⟨⟨characters, spelled, reads⟩, _⟩ := read
  have text : before.cursor.textTo after.cursor.offset = String.ofList characters := reads.textTo
  refine ⟨[Progress.nodeFor rule before after], rfl, ?_, List.forall_mem_singleton.mpr ?_⟩
  · simp only [Progress.nodeFor, token]
    exact .rule
  · simp only [Progress.nodeFor, token, text]
    exact .leaf token (by rwa [String.toList_ofList])

/-- The node of a rule follows the grammar if the nodes inside it do. -/
theorem addsNodes_close {rule : Rule} (outside : rule.mode ≠ .atomic)
    (adds : AddsNodes rule.body { before with nodes := [] } after) :
    AddsNodes (.rule rule) before (before.close rule after) := by
  obtain ⟨added, nodes, leaves, derived⟩ := adds
  have made : Progress.nodeFor rule before after =
      .branch rule ⟨before.cursor.offset, after.cursor.offset⟩ added := by
    rw [Progress.nodeFor, nodes, List.append_nil, List.reverse_reverse]
    split
    · next token => exact absurd token outside
    · rfl
  refine ⟨[.branch rule ⟨before.cursor.offset, after.cursor.offset⟩ added], ?_, .rule, ?_⟩
  · rw [← made]
    rfl
  · exact List.forall_mem_singleton.mpr (.branch outside leaves derived)

end Nodes

mutual

/-- A match outside tokens adds nodes that follow the grammar. -/
theorem addsNodes_run : (fuel : Nat) → {mode : Mode} → (pattern : Pattern) → mode ≠ .atomic →
    {before after : Progress} → run fuel mode pattern before = some (.matched after) →
    AddsNodes pattern before after
  | 0, _, _, _, _, _, ran => absurd ran nofun
  | fuel + 1, _, .text _, _, _, _, ran => by
      simp only [run, Option.some.injEq] at ran
      exact addsNodes_of_nodes .text (readsToken_orFail ran).2
  | fuel + 1, _, .one _, _, _, _, ran => by
      simp only [run, Option.some.injEq] at ran
      exact addsNodes_of_nodes .one (readsToken_one ran).2
  | fuel + 1, mode, .rule name, outside, before, after, ran => by
      rw [run_rule outside] at ran
      obtain ⟨_, _, ran⟩ | ⟨inside, read, ran⟩ := resume_cases ran
      · exact absurd ran nofun
      · obtain rfl := Outcome.matched.inj (Option.some.inj ran)
        by_cases token : name.mode = .atomic
        · rw [token] at read
          exact addsNodes_token token (readsToken_run fuel name.body read)
        · exact addsNodes_close token (addsNodes_run fuel name.body token read)
  | fuel + 1, mode, .sequence first second, outside, before, after, ran => by
      rw [run_sequence] at ran
      obtain ⟨_, _, ran⟩ | ⟨middle, read, ran⟩ := resume_cases ran
      · exact absurd ran nofun
      · have goes := (addsNodes_run fuel second outside ran).skipGap
        exact (addsNodes_run fuel first outside read).trans goes fun _ _ ↦ .sequence
  | fuel + 1, mode, .choice first second, outside, before, after, ran => by
      rw [run_choice] at ran
      obtain ⟨farthest, _, ran⟩ | ⟨matched, read, ran⟩ := resume_cases ran
      · have other := addsNodes_run fuel second outside ran
        exact (show AddsNodes second before after from other).imp fun _ ↦ .right
      · obtain rfl := Outcome.matched.inj (Option.some.inj ran)
        exact (addsNodes_run fuel first outside read).imp fun _ ↦ .left
  | fuel + 1, mode, .optional inner, outside, before, after, ran => by
      rw [run_optional] at ran
      obtain ⟨_, _, ran⟩ | ⟨matched, read, ran⟩ := resume_cases ran
      · obtain rfl := Outcome.matched.inj (Option.some.inj ran)
        exact addsNodes_of_nodes .absent rfl
      · obtain rfl := Outcome.matched.inj (Option.some.inj ran)
        exact (addsNodes_run fuel inner outside read).imp fun _ ↦ .present
  | fuel + 1, mode, .many inner, outside, before, after, ran => by
      rw [run_many] at ran
      obtain ⟨_, _, ran⟩ | ⟨middle, read, ran⟩ := resume_cases ran
      · obtain rfl := Outcome.matched.inj (Option.some.inj ran)
        exact addsNodes_of_nodes .last rfl
      · have goes := addsNodes_runMore fuel inner outside ran
        exact (addsNodes_run fuel inner outside read).trans goes fun _ _ ↦ .more
  | fuel + 1, mode, .unless inner, outside, before, after, ran => by
      rw [run_unless] at ran
      obtain ⟨_, _, ran⟩ | ⟨_, _, ran⟩ := resume_cases ran
      · obtain rfl := Outcome.matched.inj (Option.some.inj ran)
        exact addsNodes_of_nodes .unless rfl
      · exact absurd ran nofun
  | fuel + 1, _, .startOfText, _, _, _, ran => by
      simp only [run, Option.some.injEq] at ran
      exact addsNodes_of_nodes .startOfText (readsToken_require .startOfText ran).2
  | fuel + 1, _, .endOfText, _, _, _, ran => by
      simp only [run, Option.some.injEq] at ran
      exact addsNodes_of_nodes .endOfText (readsToken_require .endOfText ran).2

/-- What is repeated adds nodes that follow the grammar again and again. -/
theorem addsNodes_runMore : (fuel : Nat) → {mode : Mode} → (inner : Pattern) → mode ≠ .atomic →
    {before after : Progress} → runMore fuel mode inner before = some (.matched after) →
    AddsNodes (.many inner) before after
  | 0, _, _, _, _, _, ran => absurd ran nofun
  | fuel + 1, mode, inner, outside, before, after, ran => by
      rw [runMore_succ] at ran
      obtain ⟨_, _, ran⟩ | ⟨middle, read, ran⟩ := resume_cases ran
      · obtain rfl := Outcome.matched.inj (Option.some.inj ran)
        exact addsNodes_of_nodes .last rfl
      · have here := (addsNodes_run fuel inner outside read).skipGap
        exact here.trans (addsNodes_runMore fuel inner outside ran) fun _ _ ↦ .more

end

/-- A rule that matches outside tokens leaves one node, and it follows the grammar. -/
theorem node_of_run_rule {fuel : Nat} {mode : Mode} {rule : Rule} {before after : Progress}
    (outside : mode ≠ .atomic)
    (ran : run fuel mode (.rule rule) before = some (.matched after)) :
    ∃ node, after.nodes = node :: before.nodes ∧ node.rule = rule ∧ node.IsDerived := by
  obtain ⟨added, nodes, leaves, derived⟩ := addsNodes_run fuel (.rule rule) outside ran
  generalize names : added.map Node.rule = rules at leaves
  cases leaves
  obtain ⟨node, rfl, same⟩ := List.map_eq_singleton_iff.mp names
  exact ⟨node, nodes, same, derived node List.mem_cons_self⟩

/-- The tree of a text that can be read follows the grammar. -/
theorem isDerived_readFile {text : String} {node : Node} (read : readFile text = .ok node) :
    node.rule = .file ∧ node.IsDerived := by
  delta readFile at read
  dsimp only at read
  split at read
  · next file farthest ran =>
      obtain rfl := Except.ok.inj read
      obtain ⟨node, nodes, rule, derived⟩ := node_of_run_rule (show Mode.spaced ≠ .atomic by decide) ran
      obtain rfl := (List.cons.inj nodes).1
      exact ⟨rule, derived⟩
  all_goals exact absurd read nofun

end GuestScript.Grammar
