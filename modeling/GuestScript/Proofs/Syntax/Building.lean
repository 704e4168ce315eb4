import GuestScript.Proofs.Grammar.Places
import GuestScript.Proofs.Syntax.Meanings

/-!
# What a rule tree is built into

A tree is built with the problems met so far in hand, the newest first, and its parts with the pieces
made so far. `Builds` says what comes of it without these: a node is built into a piece with the problems
that are in it, in the order in which they are met. What is to be shown of the pieces and problems of all
trees follows the constructors of this relation.

Whether a text has a tree, and which, does not depend on the version that it is parsed under; the version
only decides which of the problems count. This is `parseSpans_cases_of_text`.
-/

namespace GuestScript.Syntax

open Grammar (Farthest Node Rule)

namespace Assembly

mutual

/-- `Builds node piece problems` says that a node becomes this piece and has these problems in it, in
the order in which they are met. -/
inductive Builds : Node → Piece → List Problem → Prop
  | leaf {rule : Rule} {span : Span} {text : String} {piece : Piece} {problems : List Problem} :
      ofToken rule span text = some (piece, problems) → Builds (.leaf rule span text) piece problems
  | branch {rule : Rule} {span : Span} {children : List Node} {pieces : List Piece} {piece : Piece}
      {problems : List Problem} : BuildsAll children pieces problems →
      assemble rule span pieces = some piece →
      Builds (.branch rule span children) piece (problemsOf rule span ++ problems)

/-- `BuildsAll nodes pieces problems` says the same of nodes in order; those that only introduce a
construct become nothing. -/
inductive BuildsAll : List Node → List Piece → List Problem → Prop
  | nil : BuildsAll [] [] []
  | skip {node : Node} {rest : List Node} {pieces : List Piece} {problems : List Problem} :
      node.rule.isIntroducer = true → BuildsAll rest pieces problems →
      BuildsAll (node :: rest) pieces problems
  | cons {node : Node} {rest : List Node} {piece : Piece} {pieces : List Piece}
      {found problems : List Problem} : node.rule.isIntroducer = false → Builds node piece found →
      BuildsAll rest pieces problems → BuildsAll (node :: rest) (piece :: pieces) (found ++ problems)

end

mutual

/-- What is built is built whatever problems were met before, and those stay where they are. -/
theorem builds_of_build : {node : Node} → {problems found : List Problem} → {piece : Piece} →
    build node problems = some (piece, found) →
    ∃ inside, Builds node piece inside ∧ found = inside.reverse ++ problems
  | .leaf rule span text, problems, found, piece, built => by
      rw [build, Option.bind_eq_bind, Option.bind_eq_some_iff] at built
      obtain ⟨⟨piece', inside⟩, made, same⟩ := built
      obtain ⟨rfl, rfl⟩ := Prod.mk.inj (Option.some.inj same)
      exact ⟨inside, .leaf made, rfl⟩
  | .branch rule span children, problems, found, piece, built => by
      rw [build, Option.bind_eq_bind, Option.bind_eq_some_iff] at built
      obtain ⟨⟨pieces, found'⟩, parts, built⟩ := built
      rw [Option.bind_eq_bind, Option.bind_eq_some_iff] at built
      obtain ⟨piece', made, same⟩ := built
      obtain ⟨rfl, rfl⟩ := Prod.mk.inj (Option.some.inj same)
      obtain ⟨pieces', inside, each, rfl, rfl⟩ := buildsAll_of_buildAll parts
      refine ⟨problemsOf rule span ++ inside, .branch each made, ?_⟩
      -- A rule has one problem of its own at most, so its order does not matter.
      have own : (problemsOf rule span).reverse = problemsOf rule span := by
        cases rule <;> rfl
      rw [List.reverse_append, own, List.append_assoc]

/-- What nodes are built into in order goes behind the pieces and problems from before. -/
theorem buildsAll_of_buildAll : {nodes : List Node} → {problems found : List Problem} →
    {before pieces : List Piece} → buildAll nodes problems before = some (pieces, found) →
    ∃ made inside, BuildsAll nodes made inside ∧ pieces = before.reverse ++ made ∧
      found = inside.reverse ++ problems
  | [], problems, found, before, pieces, built => by
      rw [buildAll] at built
      obtain ⟨rfl, rfl⟩ := Prod.mk.inj (Option.some.inj built)
      exact ⟨[], [], .nil, (List.append_nil _).symm, rfl⟩
  | node :: rest, problems, found, before, pieces, built => by
      rw [buildAll] at built
      split at built
      · next skipped =>
          obtain ⟨made, inside, each, same, same'⟩ := buildsAll_of_buildAll built
          exact ⟨made, inside, .skip skipped each, same, same'⟩
      · next part =>
          split at built
          · exact absurd built nofun
          · next piece problems' first =>
              obtain ⟨inside, here, rfl⟩ := builds_of_build first
              obtain ⟨made, others, each, rfl, rfl⟩ := buildsAll_of_buildAll built
              refine ⟨piece :: made, inside ++ others, .cons (Bool.eq_false_iff.mpr part) here each, ?_, ?_⟩
              · rw [List.reverse_cons, List.append_assoc, List.singleton_append]
              · rw [List.reverse_append, List.append_assoc]

end

/-- The file of a rule tree, and the problems in it in order. -/
theorem builds_of_fileOf {node : Node} {file : File} {problems : List Problem}
    (found : fileOf node = some (file, problems)) : Builds node (.file file) problems := by
  unfold fileOf at found
  split at found
  · next built =>
      obtain ⟨rfl, rfl⟩ := Prod.mk.inj (Option.some.inj found)
      obtain ⟨inside, builds, rfl⟩ := builds_of_build built
      rwa [List.append_nil, List.reverse_reverse]
  · exact absurd found nofun

mutual

/-- A node that follows the grammar is built into a piece of the kind that its rule stands for. -/
theorem makes_of_builds : {node : Node} → {piece : Piece} → {problems : List Problem} →
    Builds node piece problems → node.IsDerived → node.rule.isIntroducer = false →
    node.rule ≠ .keyword → Makes node.rule piece
  | _, _, _, .leaf made, derived, part, other => by
      cases derived with
      | leaf token spelled =>
          obtain ⟨piece', found, made', makes⟩ := exists_ofToken _ token spelled part other
          obtain ⟨rfl, -⟩ := Prod.mk.inj (Option.some.inj (made.symm.trans made'))
          exact makes
  | _, _, _, .branch each made, derived, part, other => by
      cases derived with
      | branch outside leaves parts =>
          have inner := makesAll_of_buildsAll each parts fun child inside ↦
            Grammar.Rule.ne_keyword_of_leaves outside leaves (List.mem_map_of_mem inside)
          obtain ⟨piece', made', makes⟩ := exists_assemble _ outside leaves inner
          exact Option.some.inj (made.symm.trans made') ▸ makes

/-- Nodes that follow the grammar are built into pieces of the kinds that their rules stand for. -/
theorem makesAll_of_buildsAll : {nodes : List Node} → {pieces : List Piece} →
    {problems : List Problem} → BuildsAll nodes pieces problems → (∀ node ∈ nodes, node.IsDerived) →
    (∀ node ∈ nodes, node.rule ≠ .keyword) → MakesAll (nodes.map Node.rule) pieces
  | _, _, _, .nil, _, _ => .nil
  | _, _, _, .skip skipped each, derived, other => by
      rw [MakesAll, List.map_cons, List.filter_cons_of_neg (by rw [skipped]; exact nofun)]
      exact makesAll_of_buildsAll each (List.forall_mem_cons.mp derived).2
        (List.forall_mem_cons.mp other).2
  | _, _, _, .cons part here each, derived, other => by
      obtain ⟨derived, derivedRest⟩ := List.forall_mem_cons.mp derived
      obtain ⟨other, otherRest⟩ := List.forall_mem_cons.mp other
      rw [MakesAll, List.map_cons, List.filter_cons_of_pos (by rw [part]; rfl)]
      exact .cons (makes_of_builds here derived part other)
        (makesAll_of_buildsAll each derivedRest otherRest)

end

end Assembly

/-! ## Texts under every version -/

/-- What is given for a file with problems under a version: the file if none of them applies, and else
a diagnostic for each that does. -/
def judged (version : LanguageVersion) (file : File) (problems : List Problem) :
    Except (List (Diagnostic Span)) File :=
  match problems.filter (Problem.appliesTo version) with
  | [] => .ok file
  | applicable => .error (applicable.map (Problem.diagnostic version))

theorem judged_eq_ok_iff {version : LanguageVersion} {file file' : File} {problems : List Problem} :
    judged version file problems = .ok file' ↔
      file' = file ∧ problems.filter (Problem.appliesTo version) = [] := by
  unfold judged
  cases applicable : problems.filter (Problem.appliesTo version) with
  | nil => exact ⟨fun same ↦ ⟨(Except.ok.inj same).symm, rfl⟩, fun ⟨same, _⟩ ↦ same ▸ rfl⟩
  | cons => exact ⟨nofun, fun ⟨_, empty⟩ ↦ absurd empty nofun⟩

theorem judged_eq_error_iff {version : LanguageVersion} {file : File} {problems : List Problem}
    {found : List (Diagnostic Span)} : judged version file problems = .error found ↔
      problems.filter (Problem.appliesTo version) ≠ [] ∧
        found = (problems.filter (Problem.appliesTo version)).map (Problem.diagnostic version) := by
  unfold judged
  cases applicable : problems.filter (Problem.appliesTo version) with
  | nil => exact ⟨nofun, fun ⟨applies, _⟩ ↦ absurd rfl applies⟩
  | cons => exact ⟨fun same ↦ ⟨nofun, (Except.error.inj same).symm⟩, fun ⟨_, same⟩ ↦ same ▸ rfl⟩

/-- A text does not follow the grammar under any version, with the same diagnostic under all; or it has
one tree under all, built from the nodes of the text at their places, and each version judges the
problems in it. -/
theorem parseSpans_cases_of_text (text : String) :
    (∃ farthest, ∀ version,
      parseSpans ⟨text, version⟩ = .error [syntaxError ⟨text, version⟩ farthest]) ∨
    ∃ (node : Node) (file : File) (problems : List Problem), node.IsDerived ∧
      node.IsPlaced text.toList ∧ Assembly.Builds node (.file file) problems ∧
      ∀ version, parseSpans ⟨text, version⟩ = judged version file problems := by
  -- The equation of the definition is no way in: checking it evaluates the matcher.
  delta parseSpans
  dsimp only
  cases read : Grammar.readFile text with
  | error farthest => exact .inl ⟨farthest, fun _ ↦ rfl⟩
  | ok node =>
      obtain ⟨whole, derived⟩ := Grammar.isDerived_readFile read
      obtain ⟨file, problems, found⟩ := Assembly.exists_fileOf derived whole
      refine .inr ⟨node, file, problems, derived, Grammar.isPlaced_readFile read,
        Assembly.builds_of_fileOf found, fun version ↦ ?_⟩
      simp only [found]
      rfl

theorem parse_eq_ok_iff {source : SourceUnit} {file : File} :
    parse source = .ok file ↔ parseSpans source = .ok file := by
  unfold parse
  cases parseSpans source with
  | ok =>
      exact ⟨fun same ↦ congrArg Except.ok (Except.ok.inj same),
        fun same ↦ congrArg Except.ok (Except.ok.inj same)⟩
  | error => exact ⟨nofun, nofun⟩

theorem parse_of_error {source : SourceUnit} {found : List (Diagnostic Span)}
    (rejected : parseSpans source = .error found) :
    parse source = .error (found.map (Diagnostic.relocate source.locate)) := by
  unfold parse
  split
  · next found => exact absurd (rejected.symm.trans found) nofun
  · next spans => obtain rfl := Except.error.inj (rejected.symm.trans spans); rfl

/-- The diagnostics of a source without a tree are those of its spans. -/
theorem exists_of_parse_error {source : SourceUnit} {errors : List (Diagnostic Location)}
    (rejected : parse source = .error errors) : ∃ found, parseSpans source = .error found ∧
      errors = found.map (Diagnostic.relocate source.locate) := by
  unfold parse at rejected
  split at rejected
  · exact absurd rejected nofun
  · next found spans => exact ⟨found, spans, (Except.error.inj rejected).symm⟩

/-- The tree of a text that parses is built from the nodes of the text at their places. -/
theorem exists_builds_of_parse {source : SourceUnit} {file : File} (parsed : parse source = .ok file) :
    ∃ (node : Node) (problems : List Problem), node.IsDerived ∧ node.IsPlaced source.text.toList ∧
      Assembly.Builds node (.file file) problems := by
  have spans := parse_eq_ok_iff.mp parsed
  obtain ⟨farthest, failed⟩ | ⟨node, file', problems, derived, placed, builds, each⟩ :=
    parseSpans_cases_of_text source.text
  · exact absurd ((failed source.version).symm.trans spans) nofun
  · obtain ⟨rfl, -⟩ := judged_eq_ok_iff.mp ((each source.version).symm.trans spans)
    exact ⟨node, problems, derived, placed, builds⟩

/-- An outcome whose value passes a check is a value that does. -/
theorem exists_of_any {Error Value : Type} {outcome : Except Error Value} {check : Value → Bool}
    (passed : outcome.toOption.any check = true) :
    ∃ value, outcome = .ok value ∧ check value = true := by
  cases outcome with
  | error => exact absurd passed nofun
  | ok value => exact ⟨value, rfl, passed⟩

end GuestScript.Syntax
