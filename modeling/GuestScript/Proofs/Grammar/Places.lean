import GuestScript.Proofs.Grammar.Fuel
import GuestScript.Proofs.Grammar.WrittenStrings

/-!
# Where the nodes of a rule tree stand

The matcher only moves forward, so the nodes that it makes stand one behind the other, and those inside
a rule between the ends of that rule. `Span.IsRow` says that spans follow one another between two
offsets. In the tree of a text every node is placed: its ends are boundaries between characters of the
text, its parts are in a row between them, and a token has the text that stands at its span. This is
`isPlaced_readFile`.

A match outside tokens is made of a few kinds of step: to stay, to pass a gap, to read a token, to close
a rule. `IsKept.holds_run` is the induction over the matcher for any relation of states that these steps
keep.
-/

namespace GuestScript

namespace Span

/-- Spans follow one another between two offsets. -/
def IsRow (start stop : Nat) : List Span → Prop
  | [] => start ≤ stop
  | span :: rest => start ≤ span.start ∧ span.start ≤ span.stop ∧ IsRow span.stop stop rest

section Rows

variable {start start' middle stop stop' : Nat} {spans others : List Span}

theorem IsRow.le (row : IsRow start stop spans) : start ≤ stop := by
  induction spans generalizing start with
  | nil => exact row
  | cons span rest ih =>
      have := ih row.2.2
      have := row.1
      have := row.2.1
      omega

theorem IsRow.append (row : IsRow start middle spans) (row' : IsRow middle stop others) :
    IsRow start stop (spans ++ others) := by
  induction spans generalizing start with
  | nil =>
      cases others with
      | nil => exact Nat.le_trans row row'
      | cons => exact ⟨Nat.le_trans row row'.1, row'.2⟩
  | cons span rest ih => exact ⟨row.1, row.2.1, ih row.2.2⟩

theorem IsRow.split (row : IsRow start stop (spans ++ others)) :
    ∃ middle, IsRow start middle spans ∧ IsRow middle stop others := by
  induction spans generalizing start with
  | nil => exact ⟨start, Nat.le_refl _, row⟩
  | cons span rest ih =>
      obtain ⟨middle, first, second⟩ := ih row.2.2
      exact ⟨middle, ⟨row.1, row.2.1, first⟩, second⟩

theorem IsRow.widen (row : IsRow start stop spans) (before : start' ≤ start) (behind : stop ≤ stop') :
    IsRow start' stop' spans := by
  induction spans generalizing start start' with
  | nil => exact Nat.le_trans before (Nat.le_trans row behind)
  | cons span rest ih =>
      exact ⟨Nat.le_trans before row.1, row.2.1, ih row.2.2 (Nat.le_refl _)⟩

/-- Some of the spans of a row are in a row. -/
theorem IsRow.sublist (row : IsRow start stop spans) (part : others.Sublist spans) :
    IsRow start stop others := by
  induction part generalizing start with
  | slnil => exact row
  | cons _ _ ih =>
      exact ih (row.2.2.widen (Nat.le_trans row.1 row.2.1) (Nat.le_refl _))
  | cons_cons _ _ ih => exact ⟨row.1, row.2.1, ih row.2.2⟩

/-- The spans of a row lie between its ends. -/
theorem IsRow.within (row : IsRow start stop spans) :
    ∀ span ∈ spans, start ≤ span.start ∧ span.start ≤ span.stop ∧ span.stop ≤ stop := by
  induction spans generalizing start with
  | nil => exact nofun
  | cons first rest ih =>
      refine List.forall_mem_cons.mpr ⟨⟨row.1, row.2.1, row.2.2.le⟩, fun span inside ↦ ?_⟩
      obtain ⟨low, order, high⟩ := ih row.2.2 span inside
      exact ⟨Nat.le_trans row.1 (Nat.le_trans row.2.1 low), order, high⟩

/-- Of two spans of a row the first ends where the second starts, or before. -/
theorem IsRow.pairwise (row : IsRow start stop spans) :
    spans.Pairwise fun first second ↦ first.stop ≤ second.start := by
  induction spans generalizing start with
  | nil => exact .nil
  | cons first rest ih =>
      exact .cons (fun span inside ↦ (row.2.2.within span inside).1) (ih row.2.2)

end Rows

end Span

namespace Grammar

/-! ## Boundaries of a text -/

/-- An offset is a boundary of a text: it lies between two of its characters, or at one of its ends. -/
def IsBoundary (text : List Char) (offset : Nat) : Prop :=
  ∃ before after, text = before ++ after ∧ offset = bytesOf before

section Boundaries

variable {text : List Char}

theorem bytesOf_append (first second : List Char) :
    bytesOf (first ++ second) = bytesOf first + bytesOf second := by
  rw [bytesOf, List.map_append, List.sum_append]
  rfl

theorem bytesOf_pos {characters : List Char} (some : characters ≠ []) : 0 < bytesOf characters := by
  cases characters with
  | nil => exact absurd rfl some
  | cons first rest =>
      rw [bytesOf, List.map_cons, List.sum_cons]
      exact Nat.lt_of_lt_of_le first.utf8Size_pos (Nat.le_add_right _ _)

theorem StandsAt.isBoundary {piece : List Char} {span : Span} (stands : StandsAt text piece span) :
    IsBoundary text span.start ∧ IsBoundary text span.stop ∧ span.start ≤ span.stop := by
  obtain ⟨before, after, rfl, rfl⟩ := stands
  refine ⟨⟨before, piece ++ after, rfl, rfl⟩, ⟨before ++ piece, after, ?_, ?_⟩, Nat.le_add_right _ _⟩
  · exact (List.append_assoc ..).symm
  · exact (bytesOf_append ..).symm

theorem Cursor.IsIn.isBoundary {cursor : Cursor} (inside : cursor.IsIn text) :
    IsBoundary text cursor.offset := by
  obtain ⟨before, reads⟩ := inside
  exact ⟨before, cursor.rest, reads.rest, reads.offset.trans (Nat.zero_add _)⟩

/-- What is read between two places of a text stands there. -/
theorem Cursor.IsIn.standsAt {before after : Cursor} {characters : List Char}
    (inside : before.IsIn text) (reads : Cursor.Reads characters before after) :
    StandsAt text characters ⟨before.offset, after.offset⟩ := by
  obtain ⟨passed, start⟩ := inside
  refine ⟨passed, after.rest, start.rest.trans (congrArg (passed ++ ·) reads.rest), ?_⟩
  rw [reads.offset, start.offset]
  exact Span.mk.injEq .. ▸ ⟨Nat.zero_add _, congrArg (· + bytesOf characters) (Nat.zero_add _)⟩

theorem Cursor.IsIn.bytesOf_eq {cursor : Cursor} (inside : cursor.IsIn text) :
    bytesOf text = cursor.offset + bytesOf cursor.rest := by
  obtain ⟨passed, reads⟩ := inside
  have offset : cursor.offset = bytesOf passed := reads.offset.trans (Nat.zero_add _)
  rw [offset, ← bytesOf_append]
  exact congrArg bytesOf reads.rest

/-- Of two places of a text, the one with less left to read is further on. -/
theorem Cursor.IsIn.offset_le {first second : Cursor} (inside : first.IsIn text)
    (inside' : second.IsIn text) (less : second.size ≤ first.size) :
    first.offset ≤ second.offset ∧ (second.size < first.size → first.offset < second.offset) := by
  have bytes := inside.bytesOf_eq
  have bytes' := inside'.bytesOf_eq
  obtain ⟨passed, reads⟩ := inside
  obtain ⟨passed', reads'⟩ := inside'
  obtain ⟨between, rest⟩ : second.rest <:+ first.rest :=
    List.suffix_of_suffix_length_le ⟨passed', reads'.rest.symm⟩ ⟨passed, reads.rest.symm⟩ less
  rw [← rest, bytesOf_append] at bytes
  refine ⟨by omega, fun strict ↦ ?_⟩
  have some : between ≠ [] := by
    rintro rfl
    exact absurd strict (by rw [Cursor.size, Cursor.size, ← rest]; exact Nat.lt_irrefl _)
  have := bytesOf_pos some
  omega

end Boundaries

/-! ## Relations that a match keeps -/

/-- A relation of states of the matcher that is kept by all that a match outside tokens is made of: to
stay, to go on, to pass a gap, to read a token, and to close a rule behind what its body did. -/
structure IsKept (related : Progress → Progress → Prop) : Prop where
  stay : ∀ (before : Progress) (farthest : Farthest), related before { before with farthest }
  trans : ∀ {before middle after : Progress}, related before middle → related middle after →
    related before after
  gap : ∀ (mode : Mode) (before : Progress), related before (before.skipGap mode)
  token : ∀ {pattern : Pattern} {before after : Progress}, ReadsToken pattern before after →
    related before after
  close : ∀ {fuel : Nat} {name : Rule} {before inside : Progress},
    run fuel name.mode name.body { before with nodes := [] } = some (.matched inside) →
    related { before with nodes := [] } inside → related before (before.close name inside)

namespace IsKept

variable {related : Progress → Progress → Prop}

mutual

/-- A relation that is kept holds between the ends of every match outside tokens. -/
theorem holds_run (kept : IsKept related) : (fuel : Nat) → {mode : Mode} → (pattern : Pattern) →
    mode ≠ .atomic → {before after : Progress} → run fuel mode pattern before = some (.matched after) →
    related before after
  | 0, _, _, _, _, _, ran => absurd ran nofun
  | fuel + 1, _, .text _, _, _, _, ran => by
      simp only [run, Option.some.injEq] at ran
      exact kept.token (readsToken_orFail ran)
  | fuel + 1, _, .one _, _, _, _, ran => by
      simp only [run, Option.some.injEq] at ran
      exact kept.token (readsToken_one ran)
  | fuel + 1, mode, .rule name, outside, before, after, ran => by
      rw [run_rule outside] at ran
      obtain ⟨_, _, ran⟩ | ⟨inside, read, ran⟩ := resume_cases ran
      · exact absurd ran nofun
      · obtain rfl := Outcome.matched.inj (Option.some.inj ran)
        refine kept.close read ?_
        by_cases token : name.mode = .atomic
        · rw [token] at read
          exact kept.token (readsToken_run fuel name.body read)
        · exact holds_run kept fuel name.body token read
  | fuel + 1, mode, .sequence first second, outside, before, after, ran => by
      rw [run_sequence] at ran
      obtain ⟨_, _, ran⟩ | ⟨middle, read, ran⟩ := resume_cases ran
      · exact absurd ran nofun
      · have goes := kept.trans (kept.gap mode middle) (holds_run kept fuel second outside ran)
        exact kept.trans (holds_run kept fuel first outside read) goes
  | fuel + 1, mode, .choice first second, outside, before, after, ran => by
      rw [run_choice] at ran
      obtain ⟨farthest, _, ran⟩ | ⟨matched, read, ran⟩ := resume_cases ran
      · exact kept.trans (kept.stay before farthest) (holds_run kept fuel second outside ran)
      · obtain rfl := Outcome.matched.inj (Option.some.inj ran)
        exact holds_run kept fuel first outside read
  | fuel + 1, mode, .optional inner, outside, before, after, ran => by
      rw [run_optional] at ran
      obtain ⟨farthest, _, ran⟩ | ⟨matched, read, ran⟩ := resume_cases ran
      · obtain rfl := Outcome.matched.inj (Option.some.inj ran)
        exact kept.stay before farthest
      · obtain rfl := Outcome.matched.inj (Option.some.inj ran)
        exact holds_run kept fuel inner outside read
  | fuel + 1, mode, .many inner, outside, before, after, ran => by
      rw [run_many] at ran
      obtain ⟨farthest, _, ran⟩ | ⟨middle, read, ran⟩ := resume_cases ran
      · obtain rfl := Outcome.matched.inj (Option.some.inj ran)
        exact kept.stay before farthest
      · exact kept.trans (holds_run kept fuel inner outside read)
          (holds_runMore kept fuel inner outside ran)
  | fuel + 1, mode, .unless inner, outside, before, after, ran => by
      rw [run_unless] at ran
      obtain ⟨_, _, ran⟩ | ⟨_, _, ran⟩ := resume_cases ran
      · obtain rfl := Outcome.matched.inj (Option.some.inj ran)
        exact kept.stay before before.farthest
      · exact absurd ran nofun
  | fuel + 1, _, .startOfText, _, _, _, ran => by
      simp only [run, Option.some.injEq] at ran
      exact kept.token (readsToken_require .startOfText ran)
  | fuel + 1, _, .endOfText, _, _, _, ran => by
      simp only [run, Option.some.injEq] at ran
      exact kept.token (readsToken_require .endOfText ran)

/-- A relation that is kept holds between the ends of every repetition outside tokens. -/
theorem holds_runMore (kept : IsKept related) : (fuel : Nat) → {mode : Mode} → (inner : Pattern) →
    mode ≠ .atomic → {before after : Progress} →
    runMore fuel mode inner before = some (.matched after) → related before after
  | 0, _, _, _, _, _, ran => absurd ran nofun
  | fuel + 1, mode, inner, outside, before, after, ran => by
      rw [runMore_succ] at ran
      obtain ⟨farthest, _, ran⟩ | ⟨middle, read, ran⟩ := resume_cases ran
      · obtain rfl := Outcome.matched.inj (Option.some.inj ran)
        exact kept.stay before farthest
      · have here := kept.trans (kept.gap mode before) (holds_run kept fuel inner outside read)
        exact kept.trans here (holds_runMore kept fuel inner outside ran)

end

end IsKept

/-! ## Nodes at their places -/

/-- Every node of a tree stands at its place in a text: its ends are boundaries of the text, and the
nodes inside it are in a row between them. What stands at a token is its text, a rule that may not match
no text takes up room, and one that is nothing but another rule takes up the same. -/
inductive Node.IsPlaced (text : List Char) : Node → Prop
  | leaf {rule : Rule} {span : Span} {token : String} : StandsAt text token.toList span →
      (rule.mayBeEmpty = false → span.start < span.stop) → IsPlaced text (.leaf rule span token)
  | branch {rule : Rule} {span : Span} {children : List Node} : IsBoundary text span.start →
      IsBoundary text span.stop → (rule.mayBeEmpty = false → span.start < span.stop) →
      Span.IsRow span.start span.stop (children.map Node.span) →
      (∀ name, rule.body = .rule name → children.map Node.span = [span]) →
      (∀ child ∈ children, child.IsPlaced text) → IsPlaced text (.branch rule span children)

section Placed

variable {text : List Char} {before middle after : Progress}

/-- Between two states of the matcher nodes were added, in a row between the places of the states, each
of them placed. -/
structure AddsInRow (text : List Char) (before after : Progress) : Prop where
  cursor : after.cursor.IsIn text
  nodes : ∃ added : List Node, after.nodes = added.reverse ++ before.nodes ∧
    Span.IsRow before.cursor.offset after.cursor.offset (added.map Node.span) ∧
    ∀ node ∈ added, node.IsPlaced text

theorem addsInRow_of_nodes (inside : after.cursor.IsIn text)
    (further : before.cursor.offset ≤ after.cursor.offset) (nodes : after.nodes = before.nodes) :
    AddsInRow text before after :=
  ⟨inside, [], nodes, further, nofun⟩

theorem AddsInRow.trans (adds : AddsInRow text before middle) (goes : AddsInRow text middle after) :
    AddsInRow text before after := by
  obtain ⟨added, nodes, row, placed⟩ := adds.nodes
  obtain ⟨others, nodes', row', placed'⟩ := goes.nodes
  refine ⟨goes.cursor, added ++ others, ?_, ?_, List.forall_mem_append.mpr ⟨placed, placed'⟩⟩
  · rw [nodes', nodes, List.reverse_append, List.append_assoc]
  · rw [List.map_append]
    exact row.append row'

theorem span_nodeFor (name : Rule) (before after : Progress) :
    (Progress.nodeFor name before after).span = ⟨before.cursor.offset, after.cursor.offset⟩ := by
  rw [Progress.nodeFor]
  split <;> rfl

/-- A rule that is nothing but another one has a single node inside, of its own span. -/
theorem map_span_of_rule {fuel : Nat} {mode : Mode} {inner : Rule} {added : List Node}
    (outside : mode ≠ .atomic)
    (ran : run fuel mode (.rule inner) { before with nodes := [] } = some (.matched after))
    (nodes : after.nodes = added.reverse) :
    added.map Node.span = [⟨before.cursor.offset, after.cursor.offset⟩] := by
  obtain ⟨_, inside, _, rfl⟩ := run_rule_matched outside ran
  obtain rfl : added = [Progress.nodeFor inner { before with nodes := [] } inside] :=
    List.reverse_inj.mp nodes.symm
  exact congrArg ([·]) (span_nodeFor inner _ inside)

/-- What a rule has matched becomes a node at the place where it was read. -/
theorem AddsInRow.close {fuel : Nat} {name : Rule} (start : before.cursor.IsIn text)
    (ran : run fuel name.mode name.body { before with nodes := [] } = some (.matched after))
    (adds : AddsInRow text { before with nodes := [] } after) :
    AddsInRow text before (before.close name after) := by
  obtain ⟨added, nodes, row, placed⟩ := adds.nodes
  have nonempty : name.mayBeEmpty = false → before.cursor.offset < after.cursor.offset := fun some ↦ by
    obtain ⟨less, strict⟩ := size_run_le fuel name.body ran
    exact (start.offset_le adds.cursor less).2 (strict (Bool.eq_false_iff.mpr fun empty ↦
      Bool.eq_false_iff.mp some (name.mayBeEmpty_of_body empty)))
  have node : (Progress.nodeFor name before after).IsPlaced text := by
    by_cases token : name.mode = .atomic
    · rw [token] at ran
      obtain ⟨⟨characters, _, reads⟩, _⟩ := readsToken_run fuel name.body ran
      have spelled : before.cursor.textTo after.cursor.offset = String.ofList characters := reads.textTo
      simp only [Progress.nodeFor, token, spelled]
      exact .leaf (by rw [String.toList_ofList]; exact start.standsAt reads) nonempty
    · have made : Progress.nodeFor name before after =
          .branch name ⟨before.cursor.offset, after.cursor.offset⟩ added := by
        rw [Progress.nodeFor, nodes, List.append_nil, List.reverse_reverse]
        split
        · next token' => exact absurd token' token
        · rfl
      rw [made]
      refine .branch start.isBoundary adds.cursor.isBoundary nonempty row (fun inner same ↦ ?_) placed
      exact map_span_of_rule token (same ▸ ran) (nodes.trans (List.append_nil _))
  refine ⟨adds.cursor, [Progress.nodeFor name before after], rfl, ?_, List.forall_mem_singleton.mpr node⟩
  rw [List.map_singleton, span_nodeFor]
  exact ⟨Nat.le_refl _, row.le, Nat.le_refl _⟩

/-- Every match that starts at a place of a text adds placed nodes of it. -/
theorem isKept_addsInRow (text : List Char) :
    IsKept fun before after ↦ before.cursor.IsIn text → AddsInRow text before after where
  stay before farthest inside := addsInRow_of_nodes inside (Nat.le_refl _) rfl
  trans first second inside := (first inside).trans (second (first inside).cursor)
  gap mode before inside := by
    cases mode with
    | spaced =>
        have behind : before.cursor.skipGap.IsIn text := Cursor.isIn_gapEnd _ _ _ inside nofun
        exact addsInRow_of_nodes behind
          (inside.offset_le behind (Cursor.size_skipGap_le before.cursor)).1 rfl
    | tight | atomic => exact addsInRow_of_nodes inside (Nat.le_refl _) rfl
  token read inside := by
    obtain ⟨⟨characters, _, reads⟩, nodes⟩ := read
    exact addsInRow_of_nodes (inside.reads reads) (reads.offset ▸ Nat.le_add_right _ _) nodes
  close ran adds inside := (adds inside).close inside ran

end Placed

/-- Every node in the tree of a text stands at its place in the text. -/
theorem isPlaced_readFile {text : String} {node : Node} (read : readFile text = .ok node) :
    node.IsPlaced text.toList := by
  delta readFile at read
  dsimp only at read
  split at read
  · next file farthest ran =>
      obtain rfl := Except.ok.inj read
      obtain ⟨added, nodes, _, placed⟩ := ((isKept_addsInRow text.toList).holds_run _ _
        (show Mode.spaced ≠ .atomic by decide) ran ⟨[], .refl _⟩).nodes
      have only : [file] = added.reverse := nodes.trans (List.append_nil _)
      exact placed file (List.mem_reverse.mp (only ▸ List.mem_cons_self))
  all_goals exact absurd read nofun

end Grammar

end GuestScript
