import GuestScript.Proofs.Syntax.PlacedAssembly

/-!
# Pieces stand where their nodes do

From the tokens up, the piece of a node stands where the node does. A token is one region or none; the
parts of a rule are in a row inside it, and what the rule makes of them keeps them there. On the way the
uses in the regions are found to be those among the problems, in the same order: `stands_of_builds`.
So the spans of a tree fit its text: `spans_areWellFormed`.
-/

namespace GuestScript.Syntax

open Grammar (IsBoundary Node Rule StandsAt)
open Grammar.Pattern

namespace Assembly

/-! ## Tokens -/

section Tokens

variable {text : List Char} {rule : Rule} {span : Span} {token : String} {piece : Piece}
  {problems : List Problem}

/-- Nothing is wrong with a literal but its value. -/
theorem usesAmong_string (body : String) (span : Span) :
    usesAmong (Literal.string body span).2 = [] :=
  List.filterMap_eq_nil_iff.mpr
    (Literal.forall_unescape span (fun _ ↦ rfl) body.toList "" [] (List.forall_mem_nil _))

theorem usesAmong_integer (digits : String) (span : Span) :
    usesAmong (Literal.integer digits span).2 = [] := by
  unfold Literal.integer
  dsimp only
  split <;> rfl

/-- A token whose piece has no region stands where it is. -/
theorem isAt_of_no_regions (stands : StandsAt text token.toList span) (own : piece.span? = none)
    (regions : piece.regions = []) : piece.IsAt text span := by
  obtain ⟨start, stop, order⟩ := stands.isBoundary
  refine ⟨start, stop, fun _ same ↦ absurd (own.symm.trans same) nofun, ?_⟩
  rw [regions]
  exact .nil order

/-- A token whose piece is one region stands where it is. -/
theorem isAt_of_region {kind : Region.Kind} (stands : StandsAt text token.toList span)
    (room : span.start < span.stop) (own : piece.span? = none)
    (regions : piece.regions = [.mk kind span []])
    (named : ∀ name, kind = .name name → name = token) : piece.IsAt text span := by
  obtain ⟨start, stop, order⟩ := stands.isBoundary
  refine ⟨start, stop, fun _ same ↦ absurd (own.symm.trans same) nofun, ?_⟩
  rw [regions]
  refine arePlaced_singleton.mpr ⟨?_, Nat.le_refl _, Nat.le_refl _⟩
  exact .mk start stop room (fun name same ↦ named name same ▸ stands) order nofun

/-- The piece of a token stands where the token does. -/
theorem stands_ofToken (stands : StandsAt text token.toList span)
    (room : rule.mayBeEmpty = false → span.start < span.stop)
    (made : ofToken rule span token = some (piece, problems)) :
    piece.IsAt text span ∧ usesOf piece.regions = usesAmong problems := by
  unfold ofToken at made
  split at made
  case h_1 =>
    obtain ⟨rfl, rfl⟩ := Prod.mk.inj (Option.some.inj made)
    refine ⟨isAt_of_region stands (room rfl) rfl rfl fun name same ↦ ?_, rfl⟩
    exact (Region.Kind.name.inj same).symm
  case h_2 | h_3 =>
    obtain ⟨rfl, rfl⟩ := Prod.mk.inj (Option.some.inj made)
    exact ⟨isAt_of_no_regions stands rfl rfl, rfl⟩
  case h_4 | h_5 =>
    obtain ⟨rfl, rfl⟩ := Prod.mk.inj (Option.some.inj made)
    exact ⟨isAt_of_region stands (room rfl) rfl rfl nofun, rfl⟩
  case h_6 =>
    obtain ⟨rfl, rfl⟩ := Prod.mk.inj (Option.some.inj made)
    exact ⟨isAt_of_region stands (room rfl) rfl rfl nofun, (usesAmong_integer token span).symm⟩
  case h_7 =>
    obtain ⟨rfl, rfl⟩ := Prod.mk.inj (Option.some.inj made)
    exact ⟨isAt_of_no_regions stands rfl rfl, (usesAmong_string token span).symm⟩
  case h_8 =>
    repeat' split at made
    all_goals first
      | obtain ⟨rfl, rfl⟩ := Prod.mk.inj (Option.some.inj made)
        exact ⟨isAt_of_region stands (room rfl) rfl rfl nofun, rfl⟩
      | exact absurd made nofun
  case h_9 => exact absurd made nofun

/-- What a token is built into is made of its text. -/
theorem exists_token_of_builds {node : Node} (builds : Builds node piece problems)
    (derived : node.IsDerived) (same : node.rule = rule) (atomic : rule.mode = .atomic) :
    ∃ token, node = .leaf rule node.span token ∧ ofToken rule node.span token = some (piece, problems) := by
  subst same
  cases builds with
  | leaf made => exact ⟨_, rfl, made⟩
  | branch =>
      cases derived with
      | branch outside _ _ => exact absurd atomic outside

/-- The name that an identifier becomes stands where the identifier does. -/
theorem standsAt_of_builds_identifier {node : Node} {name : Identifier}
    (builds : Builds node (.name name) problems) (derived : node.IsDerived) (placed : node.IsPlaced text)
    (identifier : node.rule = .identifier) : StandsAt text name.name.toList node.span := by
  obtain ⟨token, leaf, made⟩ := exists_token_of_builds builds derived identifier rfl
  obtain ⟨same, -⟩ := Prod.mk.inj (Option.some.inj made)
  obtain rfl := Piece.name.inj same
  rw [leaf] at placed
  cases placed with
  | leaf stands _ => exact stands

/-- The receiver uses nothing that not every version has. -/
theorem uses_of_builds_selfWord {node : Node} (builds : Builds node piece problems)
    (derived : node.IsDerived) (receiver : node.rule = .selfWord) : usesOf piece.regions = [] := by
  obtain ⟨token, -, made⟩ := exists_token_of_builds builds derived receiver rfl
  obtain ⟨rfl, -⟩ := Prod.mk.inj (Option.some.inj made)
  rfl

end Tokens

/-! ## Rules -/

section Rules

variable {text : List Char} {rule : Rule} {span : Span} {rules others : List Rule} {pieces : List Piece}
  {piece : Piece}

theorem makesAll_append (made : MakesAll (rules ++ others) pieces) :
    ∃ front behind, pieces = front ++ behind ∧ MakesAll rules front ∧ MakesAll others behind := by
  rw [MakesAll, List.filter_append] at made
  have front := List.forall₂_take (rules.filter fun rule ↦ !rule.isIntroducer).length made
  have behind := List.forall₂_drop (rules.filter fun rule ↦ !rule.isIntroducer).length made
  rw [List.take_left] at front
  rw [List.drop_left] at behind
  exact ⟨_, _, (List.take_append_drop _ _).symm, front, behind⟩

theorem member_of_makes {rule : Rule} (inside : rule ∈ member.rules) (piece : Piece)
    (made : Makes rule piece) :
    (∃ field, piece = .field field) ∨ ∃ function, piece = .function function := by
  change rule ∈ [Rule.fieldDeclaration, .functionDeclaration] at inside
  simp only [List.mem_cons, List.not_mem_nil, or_false] at inside
  obtain rfl | rfl := inside
  · exact .inl made
  · exact .inr made

theorem isItem_of_makes {rule : Rule} (inside : rule ∈ item.rules) (piece : Piece)
    (made : Makes rule piece) : IsItem piece := by
  change rule ∈ [Rule.namespaceDeclaration, .typeDeclaration] at inside
  simp only [List.mem_cons, List.not_mem_nil, or_false] at inside
  obtain rfl | rfl := inside
  · exact .inr made
  · exact .inl made

/-- The parts of a type are its name and its members. -/
theorem exists_members_of_makesAll (leaves : Rule.typeDeclaration.body.Leaves rules)
    (made : MakesAll rules pieces) : ∃ name members, pieces = .name name :: members ∧
      ∀ piece ∈ members, (∃ field, piece = .field field) ∨ ∃ function, piece = .function function := by
  rw [Rule.body, inOrder, leaves_sequence] at leaves
  obtain ⟨_, introducer, _, leaves, rfl⟩ := leaves
  obtain rfl := leaves_rule.mp introducer
  rw [inOrder, leaves_sequence] at leaves
  obtain ⟨_, named, members, leaves, rfl⟩ := leaves
  obtain rfl := leaves_rule.mp named
  obtain _ | ⟨⟨name, rfl⟩, rest⟩ :=
    (made : List.Forall₂ Makes (.identifier :: members.filter _) pieces)
  refine ⟨name, _, rfl, forall_of_makesAll rest fun rule inside _ piece here ↦ ?_⟩
  exact member_of_makes (mem_rules_of_leaves leaves rule inside) piece here

/-- The parts of a file are the modules that it asks for, its types and namespaces, and its end. -/
theorem exists_items_of_makesAll (leaves : Rule.file.body.Leaves rules)
    (made : MakesAll rules pieces) : ∃ uses items, pieces = uses ++ (items ++ [.ending]) ∧
      (∀ piece ∈ uses, IsUse piece) ∧ ∀ piece ∈ items, IsItem piece := by
  simp only [Rule.body, inOrder, leaves_sequence, leaves_startOfText, leaves_rule, exists_eq_left,
    List.nil_append] at leaves
  obtain ⟨_, ⟨modules, repeated, _, ⟨declared, repeated', rfl⟩, rfl⟩, rfl⟩ := leaves
  obtain ⟨uses, _, rfl, first, behind⟩ := makesAll_append made
  obtain ⟨items, _, rfl, second, last⟩ := makesAll_append behind
  obtain _ | ⟨rfl, _ | _⟩ := (last : List.Forall₂ Makes [.endOfText] _)
  refine ⟨uses, items, rfl, forall_of_makesAll first fun rule inside _ piece here ↦ ?_,
    forall_of_makesAll second fun rule inside _ piece here ↦ ?_⟩
  · obtain rfl := List.mem_singleton.mp (mem_rules_of_leaves repeated rule inside)
    exact here
  · exact isItem_of_makes (mem_rules_of_leaves repeated' rule inside) piece here

/-- The parts of an assignment to a field are the receiver and the name of the field. -/
theorem leaves_fieldPlace (leaves : Rule.fieldPlace.body.Leaves rules) :
    rules = [.selfWord, .identifier] := by
  simpa only [Rule.body, inOrder, word, leaves_sequence, leaves_text, leaves_rule, exists_eq_left,
    List.nil_append, List.cons_append] using leaves

/-- What is made of parts with placed regions stands where the rule does, with the uses in them. -/
theorem Makings.stands (makes : Makings rule span (regionsOfPieces pieces) piece)
    (start : IsBoundary text span.start) (stop : IsBoundary text span.stop)
    (room : rule.mayBeEmpty = false → span.start < span.stop)
    (there : PiecesAt text span.start span.stop pieces) : piece.IsAt text span ∧
      usesOf piece.regions = usesAmong (problemsOf rule span) ++ usesOf (regionsOfPieces pieces) :=
  ⟨makes.isAt start stop room there.arePlaced, makes.frames.uses⟩

/-- The piece of a rule stands where the rule does if its parts are in a row there, and nothing is added
to their uses but that of the rule itself. -/
theorem stands_assemble (leaves : rule.body.Leaves rules) (made : MakesAll rules pieces)
    (assembled : assemble rule span pieces = some piece) (start : IsBoundary text span.start)
    (stop : IsBoundary text span.stop) (room : rule.mayBeEmpty = false → span.start < span.stop)
    (there : PiecesAt text span.start span.stop pieces)
    (named : rule = .namedType → ∀ name, pieces = [.name name] → StandsAt text name.name.toList span)
    (receiver : rule = .fieldPlace → ∀ first rest, pieces = first :: rest → usesOf first.regions = []) :
    piece.IsAt text span ∧
      usesOf piece.regions = usesAmong (problemsOf rule span) ++ usesOf (regionsOfPieces pieces) := by
  by_cases regular : rule ∈ particularRules
  case neg => exact (makings_assemble regular assembled).stands start stop room there
  simp only [particularRules, List.mem_cons, List.not_mem_nil, or_false] at regular
  obtain rfl | rfl | rfl | rfl | rfl | rfl := regular
  · obtain ⟨uses, items, rfl, modules, kinds⟩ := exists_items_of_makesAll leaves made
    obtain rfl := Option.some.inj assembled
    exact (makings_file modules kinds).stands start stop room there
  · obtain ⟨name, members, rfl, kinds⟩ := exists_members_of_makesAll leaves made
    obtain rfl := Option.some.inj assembled
    obtain ⟨_, _, _, behind⟩ := there.uncons
    exact (makings_typeDeclaration kinds behind.arePlaced).stands start stop room there
  · obtain rfl := leaves_rule.mp leaves
    obtain _ | ⟨⟨name, rfl⟩, _ | _⟩ := (made : List.Forall₂ Makes [.identifier] pieces)
    obtain rfl := Option.some.inj assembled
    refine ⟨isAt_of_region (named rfl name rfl) (room rfl) rfl rfl fun name same ↦ ?_, rfl⟩
    exact (Region.Kind.name.inj same).symm
  · obtain rfl := leaves_fieldPlace leaves
    obtain _ | ⟨⟨value, rfl⟩, _ | ⟨⟨name, rfl⟩, _ | _⟩⟩ :=
      (made : List.Forall₂ Makes [.selfWord, .identifier] pieces)
    obtain rfl := Option.some.inj assembled
    have without := (List.append_nil _).symm.trans (receiver rfl _ _ rfl)
    exact (makings_fieldPlace without).stands start stop room there
  · obtain ⟨chain, rfl⟩ := exists_chain_of_makesAll leaves made
    obtain rfl := Option.some.inj ((expressionOf_pieces chain).symm.trans assembled)
    rw [← Grouping.pieces_ofChain] at there ⊢
    refine ⟨⟨start, stop, (fun _ same ↦ by cases same), arePlaced_region.mpr there.grouping⟩, ?_⟩
    exact (List.append_nil _).trans (uses_toExpression _)
  · rw [Rule.body, inOrder, leaves_sequence] at leaves
    obtain ⟨first, primary, suffixes, further, rfl⟩ := leaves
    obtain ⟨rule, rfl, part⟩ := exists_of_primary primary
    obtain ⟨first, rest, rfl, here, _⟩ := makesAll_cons part made
    obtain ⟨value, rfl⟩ := primary_of_makes primary first here
    rw [assemble_of_mem_expressionRules span (by decide), assembleExpression, Option.bind_eq_bind,
      Option.bind_eq_some_iff] at assembled
    obtain ⟨whole, applied, same⟩ := assembled
    obtain rfl := Option.some.inj same
    obtain ⟨own, before, stands, behind⟩ := there.uncons
    have within := arePlaced_region.mp (stands.placed.widen before (Nat.le_refl _))
    refine ⟨⟨start, stop, (fun _ same ↦ by cases same),
      arePlaced_region.mpr (within.suffixes behind applied)⟩, ?_⟩
    exact (List.append_nil _).trans (uses_suffixes applied)

end Rules

/-! ## Trees -/

section Trees

variable {text : List Char}

/-- The first of some nodes is built into the first of their pieces. -/
theorem exists_first_of_buildsAll {nodes : List Node} {pieces : List Piece} {problems : List Problem}
    {rule : Rule} {rules : List Rule} (builds : BuildsAll nodes pieces problems)
    (same : nodes.map Node.rule = rule :: rules) (part : rule.isIntroducer = false) :
    ∃ first rest, nodes = first :: rest ∧ first.rule = rule ∧
      ∃ piece behind found, pieces = piece :: behind ∧ Builds first piece found := by
  cases builds with
  | nil => exact absurd same nofun
  | skip skipped _ =>
      obtain ⟨rfl, -⟩ := List.cons.inj same
      exact absurd (part.symm.trans skipped) nofun
  | cons _ first _ => exact ⟨_, _, rfl, (List.cons.inj same).1, _, _, _, rfl, first⟩

/-- A type that is written as a name stands where the name does. -/
theorem standsAt_of_namedType {children : List Node} {span : Span} {name : Identifier}
    {problems : List Problem} (leaves : Rule.namedType.body.Leaves (children.map Node.rule))
    (builds : BuildsAll children [.name name] problems) (derived : ∀ child ∈ children, child.IsDerived)
    (placed : ∀ child ∈ children, child.IsPlaced text) (same : children.map Node.span = [span]) :
    StandsAt text name.name.toList span := by
  obtain ⟨child, others, rfl, identifier, piece, behind, found, parts, built⟩ :=
    exists_first_of_buildsAll builds (leaves_rule.mp leaves) rfl
  obtain ⟨rfl, -⟩ := List.cons.inj parts
  exact (List.cons.inj same).1 ▸ standsAt_of_builds_identifier built (derived child List.mem_cons_self)
    (placed child List.mem_cons_self) identifier

/-- The first part of an assignment to a field uses nothing that not every version has. -/
theorem uses_of_receiver {children : List Node} {pieces : List Piece} {problems : List Problem}
    (leaves : Rule.fieldPlace.body.Leaves (children.map Node.rule))
    (builds : BuildsAll children pieces problems) (derived : ∀ child ∈ children, child.IsDerived)
    {first : Piece} {rest : List Piece} (parts : pieces = first :: rest) :
    usesOf first.regions = [] := by
  obtain ⟨child, others, rfl, receiver, piece, behind, found, same, built⟩ :=
    exists_first_of_buildsAll builds (leaves_fieldPlace leaves) rfl
  obtain ⟨rfl, -⟩ := List.cons.inj (same.symm.trans parts)
  exact uses_of_builds_selfWord built (derived child List.mem_cons_self) receiver

mutual

/-- The piece of a node stands where the node does, and the uses in its regions are the ones among its
problems, in the same order. -/
theorem stands_of_builds : {node : Node} → {piece : Piece} → {problems : List Problem} →
    Builds node piece problems → node.IsDerived → node.IsPlaced text →
    piece.IsAt text node.span ∧ usesOf piece.regions = usesAmong problems
  | _, _, _, .leaf made, _, placed => by
      cases placed with
      | leaf stands room => exact stands_ofToken stands room made
  | _, _, _, .branch each assembled, derived, placed => by
      cases derived with
      | branch outside leaves parts =>
          cases placed with
          | branch start stop room row single inner =>
              have other (child : Node) (inside : child ∈ _) :=
                Grammar.Rule.ne_keyword_of_leaves outside leaves (List.mem_map_of_mem inside)
              obtain ⟨there, uses⟩ := piecesAt_of_buildsAll each parts inner row
              have made := makesAll_of_buildsAll each parts other
              obtain ⟨stands, own⟩ := stands_assemble leaves made assembled start stop room there
                (fun same name only ↦ by
                  subst same only
                  exact standsAt_of_namedType leaves each parts inner (single .identifier rfl))
                (fun same first rest ↦ by
                  subst same
                  exact uses_of_receiver leaves each parts)
              exact ⟨stands, by rw [own, uses, usesAmong_append]⟩

/-- The pieces of nodes in a row are in a row. -/
theorem piecesAt_of_buildsAll : {nodes : List Node} → {pieces : List Piece} → {problems : List Problem} →
    BuildsAll nodes pieces problems → (∀ node ∈ nodes, node.IsDerived) →
    (∀ node ∈ nodes, node.IsPlaced text) → {start stop : Nat} →
    Span.IsRow start stop (nodes.map Node.span) →
    PiecesAt text start stop pieces ∧ usesOf (regionsOfPieces pieces) = usesAmong problems
  | _, _, _, .nil, _, _, _, _, row => ⟨.nil row, rfl⟩
  | _, _, _, .skip _ each, derived, placed, _, _, row => by
      obtain ⟨there, uses⟩ := piecesAt_of_buildsAll each (List.forall_mem_cons.mp derived).2
        (List.forall_mem_cons.mp placed).2 row.2.2
      exact ⟨there.widen (Nat.le_trans row.1 row.2.1), uses⟩
  | _, _, _, .cons _ here each, derived, placed, _, _, row => by
      obtain ⟨derived, derivedRest⟩ := List.forall_mem_cons.mp derived
      obtain ⟨placed, placedRest⟩ := List.forall_mem_cons.mp placed
      obtain ⟨stands, uses⟩ := stands_of_builds here derived placed
      obtain ⟨there, others⟩ := piecesAt_of_buildsAll each derivedRest placedRest row.2.2
      refine ⟨.cons row.1 stands there, ?_⟩
      rw [regionsOfPieces, List.flatMap_cons, usesOf_append, uses, others, usesAmong_append]

end

end Trees

end Assembly

/-! ## The spans of a parsed tree fit its text

Whatever text is parsed, each span of its tree lies in the text between two boundaries of
characters, a name stands exactly where its span says, a span encloses those of all parts at any
depth, and the parts of anything follow one another. The spans of expressions are put together from
those of operands, operators and suffixes, without the parentheses, and fit in with those that rules
have.
-/

/-- A region is in a file: it is one of those at the top, or inside one. -/
def File.Holds (file : File) (region : Region) : Prop :=
  ∃ top ∈ file.regions, region = top ∨ region.IsInside top

theorem arePlaced_of_parse {source : SourceUnit} {file : File} (parsed : parse source = .ok file) :
    ∃ start stop, ArePlaced source.text.toList start stop file.regions := by
  obtain ⟨node, problems, derived, placed, builds⟩ := exists_builds_of_parse parsed
  exact ⟨_, _, (Assembly.stands_of_builds builds derived placed).1.placed⟩

/-- All that is in the tree of a text is well formed, and what stands at its top follows one another. -/
theorem spans_areWellFormed {source : SourceUnit} {file : File} (parsed : parse source = .ok file) :
    (file.regions.Pairwise fun first second ↦ first.span.stop ≤ second.span.start) ∧
      ∀ region, file.Holds region → region.IsWellFormed source.text.toList := by
  obtain ⟨start, stop, placed⟩ := arePlaced_of_parse parsed
  refine ⟨List.pairwise_map.mp placed.row.pairwise, fun region ⟨top, inside, here⟩ ↦ ?_⟩
  have above := placed.each top inside
  obtain rfl | deeper := here
  · exact above.isWellFormed
  · exact (above.inside deeper).1.isWellFormed

/-- Parentheses, blanks and a comment between operands, members in turn, and a letter of two bytes. -/
def spacedSource : SourceUnit :=
  ⟨"use m; type T \x7b fn f(a: int) \x7b let s = \"é\"; (a) - (/**/ -a . b [0] (1)) ; \x7d field g: dyn; fn h() \x7b \x7d \x7d",
    .v2⟩

theorem spans_areWellFormed_spaced : ∃ file, parse spacedSource = .ok file ∧
    file.imports.length = 1 ∧ (file.types.map fun type ↦ type.functions.length) = [2] ∧
    (file.regions.Pairwise fun first second ↦ first.span.stop ≤ second.span.start) ∧
    ∀ region, file.Holds region → region.IsWellFormed spacedSource.text.toList := by
  have checked : (parse spacedSource).toOption.any (fun file ↦ file.imports.length = 1 ∧
      (file.types.map fun type ↦ type.functions.length) = [2]) = true := by
    decide +kernel
  obtain ⟨file, parsed, counts⟩ := exists_of_any checked
  obtain ⟨imports, functions⟩ := of_decide_eq_true counts
  exact ⟨file, parsed, imports, functions, spans_areWellFormed parsed⟩

end GuestScript.Syntax
