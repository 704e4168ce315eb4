import GuestScript.Proofs.Grammar.WrittenStrings
import GuestScript.Proofs.Syntax.Spellings
import GuestScript.Proofs.Syntax.StringLiterals

/-!
# Every text can be written as a string literal

What is read and what is meant come together here. A spelled text between two quotes is one string
literal with that text as its value, at every place where an expression is read and whatever stands
behind it. And every string literal of a source text that can be parsed is written like that:
`spelledLiterals_exact`.
-/

namespace GuestScript.Syntax

open Grammar (Cursor IsAhead IsStringBody Node Pattern Progress Rule StandsAt fuelFor quoted run)

/-- A text stands in a source text as a string literal: its characters are spelled between two quotes. -/
def IsSpelledAt (text : List Char) (literal : StringLiteral) : Prop :=
  ∃ body, StandsAt text (quoted body) literal.2 ∧ IsBodyOf literal.1.toList body

/-- A literal with this value stands at a place of a text, and behind it stands more. With the fuel that
a text of this length has, the matcher takes just the literal for an expression without operators and
suffixes, and begins an expression with it. The literal means its value and there is no problem with
it, and so it is with an expression that consists of it. -/
structure ReadsLiteral (value : String) (body follow : List Char) (progress : Progress) : Prop where
  primary : ∀ fuel, fuelFor progress.cursor.rest.length ≤ fuel → ∃ after,
    run fuel .spaced Pattern.primary progress = some (.matched after) ∧
      after.cursor = ⟨(progress.spanOf body).stop, follow⟩ ∧
      after.nodes = .ofLiteral (progress.spanOf body) body :: progress.nodes
  expression : ∀ fuel, fuelFor progress.cursor.rest.length ≤ fuel →
    ∃ after whole operand suffixes links,
      run fuel .spaced (.rule .expression) progress = some (.matched after) ∧
        after.nodes = .branch .expression whole (.branch .suffixed operand
          (.ofLiteral (progress.spanOf body) body :: suffixes) :: links) :: progress.nodes
  meaning : ∀ problems, Assembly.build (.ofLiteral (progress.spanOf body) body) problems =
    some (.expression (.str value (progress.spanOf body)), problems)
  alone : ∀ whole operand problems, Assembly.build (.branch .expression whole
      [.branch .suffixed operand [.ofLiteral (progress.spanOf body) body]]) problems =
    some (.expression (.str value (progress.spanOf body)), problems)

namespace Assembly

/-! ## From a place to a value -/

/-- What the node of a string literal means, and the problems with it. -/
theorem build_ofString (span : Span) (body : List Char) (problems : List Problem) :
    build (.ofString span body) problems =
      let read := Literal.string (String.ofList body) ⟨span.start + 1, span.stop - 1⟩
      some (.expression (.str read.1 span), read.2.reverse ++ problems) :=
  rfl

variable {value : String} {body follow : List Char}

theorem build_ofLiteral (spelled : IsBodyOf value.toList body) (span : Span)
    (problems : List Problem) :
    build (.ofLiteral span body) problems = some (.expression (.str value span), problems) := by
  have inner := build_ofString span body problems
  rw [Literal.string_of_isBodyOf spelled] at inner
  rw [Node.ofLiteral, build]
  simp only [problemsOf, List.nil_append, buildAll, inner]
  rfl

theorem build_expression_ofLiteral (spelled : IsBodyOf value.toList body)
    (whole operand span : Span) (problems : List Problem) :
    build (.branch .expression whole [.branch .suffixed operand [.ofLiteral span body]]) problems =
      some (.expression (.str value span), problems) := by
  have inner := build_ofLiteral spelled span problems
  simp only [build, problemsOf, List.nil_append, buildAll, inner]
  rfl

end Assembly

open Assembly in
/-- Where a spelled text stands between quotes, its literal is read. -/
theorem readsLiteral_of_isBodyOf {value : String} {body follow : List Char} {progress : Progress}
    (spelled : IsBodyOf value.toList body) (next : progress.cursor.rest = quoted body ++ follow) :
    ReadsLiteral value body follow progress := by
  have ahead : IsAhead body follow progress := ⟨isStringBody_of_isBodyOf spelled, next⟩
  refine ⟨fun fuel enough ↦ ?_, fun fuel enough ↦ ?_, build_ofLiteral spelled _, ?_⟩
  · have answers : run fuel .spaced Pattern.primary progress ≠ none :=
      Grammar.run_ne_none _ _ _ _ rfl (Nat.le_trans (Nat.add_le_add_left (by decide) _) enough)
    obtain ⟨outcome, ran⟩ := Option.ne_none_iff_exists'.mp answers
    obtain ⟨after, rfl, passes⟩ := Grammar.run_primary_of_isAhead ran ahead
    exact ⟨after, ran, passes.cursor, passes.nodes⟩
  · have answers : run fuel .spaced (.rule .expression) progress ≠ none :=
      Grammar.run_ne_none _ _ _ _ rfl (Nat.le_trans (Nat.add_le_add_left (by decide) _) enough)
    obtain ⟨outcome, ran⟩ := Option.ne_none_iff_exists'.mp answers
    obtain ⟨after, whole, operand, suffixes, links, rfl, nodes⟩ :=
      Grammar.run_expression_of_isAhead ran ahead
    exact ⟨after, whole, operand, suffixes, links, ran, nodes⟩
  · exact fun whole operand problems ↦ build_expression_ofLiteral spelled whole operand _ problems

/-! ## From a tree to the text -/

/-- No backslash is in front of a character that it does not go with. -/
def AllKnown (problems : List Problem) : Prop :=
  ∀ character span, .unknownEscape character span ∉ problems

namespace Assembly

mutual

/-- Problems that were met before a node stay. -/
theorem subset_build : {node : Node} → {problems found : List Problem} → {piece : Piece} →
    build node problems = some (piece, found) → problems ⊆ found
  | .leaf rule span text, problems, found, piece, built => by
      rw [build, Option.bind_eq_bind, Option.bind_eq_some_iff] at built
      obtain ⟨⟨piece', problems'⟩, made, same⟩ := built
      obtain ⟨rfl, rfl⟩ := Prod.mk.inj (Option.some.inj same)
      exact List.subset_append_right _ _
  | .branch rule span children, problems, found, piece, built => by
      rw [build, Option.bind_eq_bind, Option.bind_eq_some_iff] at built
      obtain ⟨⟨pieces, problems'⟩, parts, built⟩ := built
      rw [Option.bind_eq_bind, Option.bind_eq_some_iff] at built
      obtain ⟨piece', made, same⟩ := built
      obtain ⟨rfl, rfl⟩ := Prod.mk.inj (Option.some.inj same)
      exact List.Subset.trans (List.subset_append_right _ _) (subset_buildAll parts)

/-- Problems that were met before nodes stay. -/
theorem subset_buildAll : {nodes : List Node} → {problems found : List Problem} →
    {before pieces : List Piece} → buildAll nodes problems before = some (pieces, found) →
    problems ⊆ found
  | [], problems, found, before, pieces, built => by
      rw [buildAll] at built
      obtain ⟨rfl, rfl⟩ := Prod.mk.inj (Option.some.inj built)
      exact List.Subset.refl _
  | node :: rest, problems, found, before, pieces, built => by
      rw [buildAll] at built
      split at built
      · exact subset_buildAll built
      · split at built
        · exact absurd built nofun
        · next piece problems' first =>
            exact List.Subset.trans (subset_build first) (subset_buildAll built)

end

variable {text : List Char}

/-- A string literal whose pairs are all known is spelled where it stands. -/
theorem isSpelledAt_ofString {span : Span} {body : List Char} {problems found : List Problem}
    {piece : Piece} (closed : IsStringBody body) (stands : StandsAt text (quoted body) span)
    (known : AllKnown found) (built : build (.ofString span body) problems = some (piece, found)) :
    ∀ literal ∈ piece.strings, IsSpelledAt text literal := by
  rw [build_ofString] at built
  obtain ⟨rfl, rfl⟩ := Prod.mk.inj (Option.some.inj built)
  refine List.forall_mem_singleton.mpr ⟨body, stands, ?_⟩
  exact Literal.isBodyOf_of_string closed fun character inside ↦
    known character _ (List.mem_append_left _ (List.mem_reverse.mpr inside))

mutual

/-- The string literals in the piece of a node are spelled where they stand. -/
theorem isSpelledAt_build : {node : Node} → {problems found : List Problem} → {piece : Piece} →
    node.IsWritten text → AllKnown found → build node problems = some (piece, found) →
    ∀ literal ∈ piece.strings, IsSpelledAt text literal
  | .leaf rule span token, problems, found, piece, _, _, built => by
      rw [build, Option.bind_eq_bind, Option.bind_eq_some_iff] at built
      obtain ⟨⟨piece', problems'⟩, made, same⟩ := built
      obtain ⟨rfl, rfl⟩ := Prod.mk.inj (Option.some.inj same)
      rw [strings_ofToken made]
      exact List.forall_mem_nil _
  | .branch rule span children, problems, found, piece, written, known, built => by
      cases written with
      | string closed stands => exact isSpelledAt_ofString closed stands known built
      | branch other parts =>
          rw [build, Option.bind_eq_bind, Option.bind_eq_some_iff] at built
          obtain ⟨⟨pieces, problems'⟩, inside, built⟩ := built
          rw [Option.bind_eq_bind, Option.bind_eq_some_iff] at built
          obtain ⟨piece', made, same⟩ := built
          obtain ⟨rfl, rfl⟩ := Prod.mk.inj (Option.some.inj same)
          intro literal member
          obtain ⟨part, present, member⟩ := List.mem_flatMap.mp (strings_assemble other made member)
          exact areSpelledAt_buildAll parts known (List.forall_mem_nil _) inside part present
            literal member

/-- The string literals in the pieces of nodes are spelled where they stand. -/
theorem areSpelledAt_buildAll : {nodes : List Node} → {problems found : List Problem} →
    {before pieces : List Piece} → (∀ node ∈ nodes, node.IsWritten text) → AllKnown found →
    (∀ piece ∈ before, ∀ literal ∈ piece.strings, IsSpelledAt text literal) →
    buildAll nodes problems before = some (pieces, found) →
    ∀ piece ∈ pieces, ∀ literal ∈ piece.strings, IsSpelledAt text literal
  | [], problems, found, before, pieces, _, _, spelled, built => by
      rw [buildAll] at built
      obtain ⟨rfl, rfl⟩ := Prod.mk.inj (Option.some.inj built)
      exact fun piece inside ↦ spelled piece (List.mem_reverse.mp inside)
  | node :: rest, problems, found, before, pieces, written, known, spelled, built => by
      obtain ⟨here, others⟩ := List.forall_mem_cons.mp written
      rw [buildAll] at built
      split at built
      · exact areSpelledAt_buildAll others known spelled built
      · split at built
        · exact absurd built nofun
        · next piece problems' first =>
            have known' : AllKnown problems' := fun character span inside ↦
              known character span (subset_buildAll built inside)
            exact areSpelledAt_buildAll others known
              (List.forall_mem_cons.mpr ⟨isSpelledAt_build here known' first, spelled⟩) built

end

end Assembly

/-- The string literals of a source text that can be parsed are spelled where they stand. -/
theorem isSpelledAt_of_parse {source : SourceUnit} {file : File} (parsed : parse source = .ok file) :
    ∀ literal ∈ file.strings, IsSpelledAt source.text.toList literal := by
  unfold parse at parsed
  split at parsed
  · next file' spans =>
      obtain rfl := Except.ok.inj parsed
      unfold parseSpans at spans
      split at spans
      · exact absurd spans nofun
      · next node read =>
          split at spans
          · exact absurd spans nofun
          · next file'' problems found =>
              unfold Assembly.fileOf at found
              split at found
              · next made built =>
                  obtain ⟨rfl, rfl⟩ := Prod.mk.inj (Option.some.inj found)
                  split at spans
                  · next none =>
                      obtain rfl := Except.ok.inj spans
                      have known : AllKnown made := fun character span inside ↦
                        List.filter_eq_nil_iff.mp none _ (List.mem_reverse.mpr inside) rfl
                      exact Assembly.isSpelledAt_build (Grammar.isWritten_readFile read) known built
                  · exact absurd spans nofun
              · exact absurd found nofun
  · exact absurd parsed nofun

/-! ## Both ways -/

/-- Every text can be written as a string literal, in every way to spell its characters: where it
stands between quotes, the literal is read up to its closing quote whatever follows, and means the
text. And every string literal of a source text that can be parsed is written like that. -/
theorem spelledLiterals_exact :
    (∀ (value : String) (body follow : List Char) (progress : Progress),
      IsBodyOf value.toList body → progress.cursor.rest = quoted body ++ follow →
      ReadsLiteral value body follow progress) ∧
    ∀ (source : SourceUnit) (file : File), parse source = .ok file →
      ∀ literal ∈ file.strings, IsSpelledAt source.text.toList literal :=
  ⟨fun _ _ _ _ spelled next ↦ readsLiteral_of_isBodyOf spelled next,
    fun _ _ parsed ↦ isSpelledAt_of_parse parsed⟩

/-- A field with a literal that could open a comment. -/
def quotingSource : SourceUnit :=
  ⟨"type T \x7b field f: str = \"//\"; \x7d", .v1⟩

/-- What opens a comment, a line feed by name and a quote are spelled, in front of what closes it. -/
theorem spelledLiterals_exact_comment :
    (IsBodyOf ['/', '*', '\n', '"'] ['/', '*', '\\', 'n', '\\', '"'] ∧
      ReadsLiteral (String.ofList ['/', '*', '\n', '"']) ['/', '*', '\\', 'n', '\\', '"']
        ['*', '/', ';'] ⟨⟨0, quoted ['/', '*', '\\', 'n', '\\', '"'] ++ ['*', '/', ';']⟩, [], .none⟩) ∧
    ∃ file, parse quotingSource = .ok file ∧ file.strings.length = 1 ∧
      ∀ literal ∈ file.strings, IsSpelledAt quotingSource.text.toList literal := by
  have slash : ['/'] ∈ spellings '/' := by decide
  have star : ['*'] ∈ spellings '*' := by decide
  have newline : ['\\', 'n'] ∈ spellings '\n' := by decide
  have quote : ['\\', '"'] ∈ spellings '"' := by decide
  have spelled := IsBodyOf.cons slash (.cons star (.cons newline (.cons quote .nil)))
  have parses : (parse quotingSource).toOption.any
      (fun file ↦ file.strings.length = 1) = true := by
    decide +kernel
  obtain ⟨file, here, literals⟩ := (Option.any_eq_true _ _).mp parses
  have parsed : parse quotingSource = .ok file := by
    generalize parse quotingSource = answer at here ⊢
    cases answer with
    | error => exact absurd here nofun
    | ok file' => exact congrArg Except.ok (Option.some.inj here)
  refine ⟨⟨spelled, spelledLiterals_exact.1 _ _ _ _ ?_ rfl⟩, file, parsed,
    of_decide_eq_true literals, spelledLiterals_exact.2 _ _ parsed⟩
  rw [String.toList_ofList]
  exact spelled

end GuestScript.Syntax
