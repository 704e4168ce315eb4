import GuestScript.Proofs.Grammar.LockStep
import GuestScript.Proofs.Syntax.BareAssembly
import GuestScript.Syntax.Parse

/-!
# Layout does not matter

What a source text means depends on its tokens and not on the blanks and comments between them: two
texts that write the same tokens have the same syntax tree up to positions, or are rejected with the
same diagnostic codes. The matcher reads the two texts in step, and the assembly does not look at
positions.
-/

namespace GuestScript.Syntax

open Grammar (Token Writes)

/-- The codes of diagnostics, in order. -/
abbrev codesOf {Position : Type} (diagnostics : List (Diagnostic Position)) : List Code :=
  diagnostics.map Diagnostic.code

/-- Two results of parsing that differ in positions only: trees that are the same up to them, or
diagnostics with the same codes. -/
inductive ParsedAlike {Position : Type} :
    Except (List (Diagnostic Position)) File → Except (List (Diagnostic Position)) File → Prop
  | ok {file file' : File} : file.bare = file'.bare → ParsedAlike (.ok file) (.ok file')
  | error {diagnostics diagnostics' : List (Diagnostic Position)} :
      codesOf diagnostics = codesOf diagnostics' →
      ParsedAlike (.error diagnostics) (.error diagnostics')

/-- Problems that are the same up to positions are diagnosed with the same codes. -/
theorem codesOf_problems (version : LanguageVersion) {problems problems' : List Problem}
    (same : bareProblems problems = bareProblems problems') :
    codesOf (problems.map (Problem.diagnostic version)) =
      codesOf (problems'.map (Problem.diagnostic version)) := by
  rw [codesOf, codesOf, List.map_map, List.map_map]
  exact code_diagnostic_bareProblems version same

theorem codesOf_relocate {First Second : Type} (locate : First → Second)
    (diagnostics : List (Diagnostic First)) :
    codesOf (diagnostics.map (Diagnostic.relocate locate)) = codesOf diagnostics := by
  rw [codesOf, List.map_map]
  rfl

/-- The result of parsing, from the problems of a file: the file itself if none of them applies. -/
theorem parsedAlike_of_problems (version : LanguageVersion) {file file' : File}
    {problems problems' : List Problem} (bare : file.bare = file'.bare)
    (same : bareProblems problems = bareProblems problems') :
    ParsedAlike
      (match problems.filter (Problem.appliesTo version) with
        | [] => .ok file
        | applicable => .error (applicable.map (Problem.diagnostic version)))
      (match problems'.filter (Problem.appliesTo version) with
        | [] => .ok file'
        | applicable => .error (applicable.map (Problem.diagnostic version))) := by
  have kept := bareProblems_filter version same
  generalize problems.filter (Problem.appliesTo version) = applicable at kept ⊢
  generalize problems'.filter (Problem.appliesTo version) = applicable' at kept ⊢
  cases applicable with
  | nil =>
      obtain rfl := List.map_eq_nil_iff.mp kept.symm
      exact .ok bare
  | cons first rest =>
      obtain ⟨first', rest', rfl, _, _⟩ := List.map_eq_cons_iff.mp kept.symm
      exact .error (codesOf_problems version kept)

theorem parseSpans_alike {tokens : List Token} (version : LanguageVersion) {first second : String}
    (left : Writes tokens first.toList) (right : Writes tokens second.toList) :
    ParsedAlike (parseSpans ⟨first, version⟩) (parseSpans ⟨second, version⟩) := by
  have trees := Grammar.bare_readFile left right
  -- The equation of the definition is no way in: checking it evaluates the matcher.
  delta parseSpans
  dsimp only
  generalize Grammar.readFile first = read, Grammar.readFile second = read' at trees ⊢
  cases read with
  | error farthest =>
      cases read' with
      | error farthest' => exact .error rfl
      | ok node' => exact absurd trees nofun
  | ok node =>
      cases read' with
      | error farthest' => exact absurd trees nofun
      | ok node' =>
          have files := Assembly.bare_fileOf (Option.some.inj trees)
          dsimp only
          generalize Assembly.fileOf node = found, Assembly.fileOf node' = found' at files ⊢
          cases files with
          | none => exact .error rfl
          | some both => exact parsedAlike_of_problems version both.1 both.2

/-- Two texts that write the same tokens, with any blanks and comments between them, are parsed alike
under every version of the language. -/
theorem parsedAlike_of_writes {tokens : List Token} {first second : String}
    (left : Writes tokens first.toList) (right : Writes tokens second.toList)
    (version : LanguageVersion) :
    ParsedAlike (parse ⟨first, version⟩) (parse ⟨second, version⟩) := by
  have alike := parseSpans_alike version left right
  delta parse
  generalize parseSpans ⟨first, version⟩ = result, parseSpans ⟨second, version⟩ = result' at alike ⊢
  cases alike with
  | ok bare => exact .ok bare
  | error codes => exact .error (by rw [codesOf_relocate, codesOf_relocate, codes])

/-- An identifier may start like a keyword, and a comment may stand next to the blank behind one. -/
theorem parsedAlike_of_writes_use :
    Writes [.keyword "use" (by decide), .identifier "user" (by decide), .symbol ";" (by decide)]
        "use user ;".toList ∧
      Writes [.keyword "use" (by decide), .identifier "user" (by decide), .symbol ";" (by decide)]
        "// one\nuse /* two */user\t; ".toList ∧
      ParsedAlike (parse ⟨"use user ;", .v1⟩)
        (parse ⟨"// one\nuse /* two */user\t; ", .v1⟩) := by
  have left : Writes [.keyword "use" (by decide), .identifier "user" (by decide),
      .symbol ";" (by decide)] ([] ++ ("use".toList ++ ' ' :: ([] ++ ("user".toList ++
        ' ' :: ([] ++ (";".toList ++ [])))))) :=
    .token .nil (.token rfl .nil (.token rfl .nil (.last rfl (.gap .nil))))
  have right : Writes [.keyword "use" (by decide), .identifier "user" (by decide),
      .symbol ";" (by decide)] ('/' :: '/' :: (" one".toList ++ ['\n']) ++ ("use".toList ++
        ' ' :: ('/' :: '*' :: (" two ".toList ++ ['*', '/']) ++ ("user".toList ++
          '\t' :: ([] ++ (";".toList ++ [' '])))))) :=
    .token (.lineComment (by decide) .nil) (.token rfl (.bracketComment (by decide) .nil)
      (.token rfl .nil (.last rfl (.gap (.blank rfl .nil)))))
  exact ⟨left, right, parsedAlike_of_writes left right .v1⟩

end GuestScript.Syntax
