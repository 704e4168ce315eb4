import GuestScript.Proofs.Syntax.PlacedTrees

/-!
# What an earlier version leaves out

The first version of the language has no lambda expressions and no `dyn` type, and differs from the
second in nothing else. Each use of one of them in a tree was noted as a problem where it was met, once,
and the version only decides whether such problems count. So the first version has exactly the trees of
the second that are free of uses, rejects any other tree with one diagnostic for each use in the order of
the text, and says of a text that the second rejects all that the second says, in the same order, with
nothing in between but such diagnostics: `versionGate_isExact`.
-/

namespace GuestScript.Syntax

/-! ## Problems under the two versions -/

namespace Problem

theorem appliesTo_v1 (problem : Problem) : problem.appliesTo .v1 = true := by
  cases problem with
  | usesFeature feature span => cases feature <;> rfl
  | _ => rfl

/-- Under the second version all problems count but uses. -/
theorem appliesTo_v2 (problem : Problem) : problem.appliesTo .v2 = problem.use?.isNone := by
  cases problem with
  | usesFeature feature span => cases feature <;> rfl
  | _ => rfl

/-- Under the first version the problems with this code are the uses. -/
theorem code_diagnostic_eq_iff (problem : Problem) (version : LanguageVersion) :
    (problem.diagnostic version).code = .featureUnavailable ↔ problem.use?.isNone = false := by
  cases problem with
  | usesFeature => exact iff_of_true rfl rfl
  | _ => exact iff_of_false nofun nofun

/-- What is said of any other problem does not depend on the version. -/
theorem diagnostic_eq_of_use? {problem : Problem} (other : problem.use?.isNone = true)
    (version version' : LanguageVersion) : problem.diagnostic version = problem.diagnostic version' := by
  cases problem with
  | usesFeature => exact absurd other nofun
  | _ => rfl

end Problem

section Problems

variable {problems : List Problem}

/-- Problems none of which counts under the second version are uses. -/
theorem eq_map_usesAmong (harmless : problems.filter (Problem.appliesTo .v2) = []) :
    problems = (usesAmong problems).map fun (feature, span) ↦ .usesFeature feature span := by
  induction problems with
  | nil => rfl
  | cons first rest ih =>
      obtain ⟨here, others⟩ := List.forall_mem_cons.mp (List.filter_eq_nil_iff.mp harmless)
      have behind := ih (List.filter_eq_nil_iff.mpr others)
      cases first with
      | usesFeature feature span => exact congrArg (.usesFeature feature span :: ·) behind
      | _ => exact absurd rfl here

theorem usesAmong_eq_nil_iff (harmless : problems.filter (Problem.appliesTo .v2) = []) :
    usesAmong problems = [] ↔ problems = [] := by
  refine ⟨fun none ↦ ?_, fun none ↦ none ▸ rfl⟩
  rw [eq_map_usesAmong harmless, none]
  rfl

end Problems

/-! ## Texts under the two versions -/

/-- The diagnostic for the use of a feature under the first version. -/
def unavailable (text : String) (use : Feature × Span) : Diagnostic Location :=
  .error .featureUnavailable
    (use.1.text ++ " need language version v2 or later; the source declares v1")
    (SourceUnit.locate ⟨text, .v1⟩ use.2)

theorem unavailable_eq (text : String) (use : Feature × Span) : unavailable text use =
    ((Problem.usesFeature use.1 use.2).diagnostic .v1).relocate (SourceUnit.locate ⟨text, .v1⟩) := by
  obtain ⟨feature, span⟩ := use
  have message : feature.text ++ " need language version v2 or later; the source declares v1" =
      feature.text ++ " need language version " ++ feature.since.text
        ++ " or later; the source declares " ++ LanguageVersion.v1.text := by
    cases feature <;> decide
  rw [unavailable, message]
  rfl

/-- The uses in a tree are the ones among its problems. -/
theorem uses_of_builds {text : List Char} {node : Grammar.Node} {file : File} {problems : List Problem}
    (builds : Assembly.Builds node (.file file) problems) (derived : node.IsDerived)
    (placed : node.IsPlaced text) : file.uses = usesAmong problems :=
  (Assembly.stands_of_builds builds derived placed).2

/-- The two versions of a text: neither follows the grammar, with the same diagnostic, which is not about
a feature; or both are judged by the same problems. -/
theorem parse_cases_of_text (text : String) :
    (∃ error, error.code ≠ .featureUnavailable ∧
      ∀ version, parse ⟨text, version⟩ = .error [error]) ∨
    ∃ file problems, file.uses = usesAmong problems ∧
      ∀ version, parseSpans ⟨text, version⟩ = judged version file problems := by
  obtain ⟨farthest, failed⟩ | ⟨node, file, problems, derived, placed, builds, each⟩ :=
    parseSpans_cases_of_text text
  · let error := (syntaxError ⟨text, .v1⟩ farthest).relocate (SourceUnit.locate ⟨text, .v1⟩)
    have other : error.code ≠ .featureUnavailable := show Code.syntaxError ≠ _ from nofun
    exact .inl ⟨error, other, fun version ↦ parse_of_error (failed version)⟩
  · exact .inr ⟨file, problems, uses_of_builds builds derived placed, each⟩

section Judged

variable {text : String} {file : File} {problems : List Problem}
  (each : ∀ version, parseSpans ⟨text, version⟩ = judged version file problems)

include each

theorem parse_eq_ok_iff_of_judged {version : LanguageVersion} {file' : File} :
    parse ⟨text, version⟩ = .ok file' ↔
      file' = file ∧ problems.filter (Problem.appliesTo version) = [] := by
  rw [parse_eq_ok_iff, each, judged_eq_ok_iff]

theorem parse_of_judged {version : LanguageVersion}
    (some : problems.filter (Problem.appliesTo version) ≠ []) :
    parse ⟨text, version⟩ = .error (((problems.filter (Problem.appliesTo version)).map
      (Problem.diagnostic version)).map (Diagnostic.relocate (SourceUnit.locate ⟨text, .v1⟩))) :=
  parse_of_error ((each version).trans (judged_eq_error_iff.mpr ⟨some, rfl⟩))

/-- Under the first version every problem counts. -/
theorem parse_v1_of_judged (some : problems ≠ []) :
    parse ⟨text, .v1⟩ = .error ((problems.map (Problem.diagnostic .v1)).map
      (Diagnostic.relocate (SourceUnit.locate ⟨text, .v1⟩))) := by
  have all : problems.filter (Problem.appliesTo .v1) = problems :=
    List.filter_eq_self.mpr fun problem _ ↦ problem.appliesTo_v1
  have rejected : parse ⟨text, .v1⟩ = _ := parse_of_judged each (by rwa [all])
  rwa [all] at rejected

/-- A tree without uses has no problem under the first version if it has none under the second. -/
theorem parse_v1_iff_of_judged (uses : file.uses = usesAmong problems) {file' : File} :
    parse ⟨text, .v1⟩ = .ok file' ↔ parse ⟨text, .v2⟩ = .ok file' ∧ file'.uses = [] := by
  have all : problems.filter (Problem.appliesTo .v1) = problems :=
    List.filter_eq_self.mpr fun problem _ ↦ problem.appliesTo_v1
  rw [parse_eq_ok_iff_of_judged each, parse_eq_ok_iff_of_judged each, all]
  constructor
  · rintro ⟨rfl, rfl⟩
    exact ⟨⟨rfl, rfl⟩, uses⟩
  · rintro ⟨⟨rfl, harmless⟩, free⟩
    exact ⟨rfl, (usesAmong_eq_nil_iff harmless).mp (uses.symm.trans free)⟩

/-- A tree of the second version is rejected by the first one for its uses. -/
theorem parse_v1_of_uses (uses : file.uses = usesAmong problems)
    (harmless : problems.filter (Problem.appliesTo .v2) = []) (some : file.uses ≠ []) :
    parse ⟨text, .v1⟩ = .error (file.uses.map (unavailable text)) := by
  rw [parse_v1_of_judged each fun none ↦ some (uses.trans ((usesAmong_eq_nil_iff harmless).mpr none)), uses]
  nth_rewrite 1 [eq_map_usesAmong harmless]
  rw [List.map_map, List.map_map]
  exact congrArg Except.error (List.map_congr_left fun use _ ↦ (unavailable_eq text use).symm)

/-- What the second version says of a text, the first one says too, among what it says of uses. -/
theorem exists_parse_v1_of_error {errors : List (Diagnostic Location)}
    (rejected : parse ⟨text, .v2⟩ = .error errors) : ∃ gated, parse ⟨text, .v1⟩ = .error gated ∧
      gated.filter (fun diagnostic ↦ diagnostic.code ≠ .featureUnavailable) = errors := by
  have harmful : problems.filter (Problem.appliesTo .v2) ≠ [] := fun harmless ↦
    absurd (((parse_eq_ok_iff_of_judged each).mpr ⟨rfl, harmless⟩).symm.trans rejected) nofun
  obtain rfl := Except.error.inj ((parse_of_judged each harmful).symm.trans rejected)
  refine ⟨_, parse_v1_of_judged each fun empty ↦ harmful (by rw [empty]; rfl), ?_⟩
  have counts (problem : Problem) :
      decide (((problem.diagnostic .v1).relocate (SourceUnit.locate ⟨text, .v1⟩)).code ≠
        .featureUnavailable) = problem.appliesTo .v2 := by
    have code := problem.code_diagnostic_eq_iff .v1
    rw [problem.appliesTo_v2]
    cases other : problem.use?.isNone with
    | true => exact decide_eq_true fun same ↦ absurd (other.symm.trans (code.mp same)) nofun
    | false => exact decide_eq_false fun differ ↦ differ (code.mpr other)
  rw [List.map_map, List.filter_map, List.map_map]
  refine (congrArg (List.map _) (List.filter_congr fun problem _ ↦ counts problem)).trans ?_
  refine List.map_congr_left fun problem inside ↦ ?_
  have other : problem.use?.isNone = true := problem.appliesTo_v2 ▸ (List.mem_filter.mp inside).2
  exact congrArg (Diagnostic.relocate _) (Problem.diagnostic_eq_of_use? other .v1 .v2)

end Judged

/-- The first version of the language is the second without its features: the same trees, but for those
that use one; a diagnostic for each use in such a tree, in order; and the diagnostics of the second version
among those of the first, with nothing between them but diagnostics for uses. -/
theorem versionGate_isExact (text : String) :
    (∀ file, parse ⟨text, .v1⟩ = .ok file ↔ parse ⟨text, .v2⟩ = .ok file ∧ file.uses = []) ∧
    (∀ file, parse ⟨text, .v2⟩ = .ok file → file.uses ≠ [] →
      parse ⟨text, .v1⟩ = .error (file.uses.map (unavailable text))) ∧
    ∀ errors, parse ⟨text, .v2⟩ = .error errors → ∃ gated, parse ⟨text, .v1⟩ = .error gated ∧
      gated.filter (fun diagnostic ↦ diagnostic.code ≠ .featureUnavailable) = errors := by
  obtain ⟨error, other, each⟩ | ⟨file, problems, uses, each⟩ := parse_cases_of_text text
  · refine ⟨fun file ↦ ?_, fun file parsed ↦ absurd ((each .v2).symm.trans parsed) nofun,
      fun errors rejected ↦ ?_⟩
    · rw [each, each]
      exact ⟨nofun, fun both ↦ absurd both.1 nofun⟩
    · obtain rfl := Except.error.inj ((each .v2).symm.trans rejected)
      exact ⟨[error], each .v1, List.filter_eq_self.mpr (by simpa using other)⟩
  · refine ⟨fun _ ↦ parse_v1_iff_of_judged each uses, fun file' parsed some ↦ ?_,
      fun _ rejected ↦ exists_parse_v1_of_error each rejected⟩
    obtain ⟨rfl, harmless⟩ := (parse_eq_ok_iff_of_judged each).mp parsed
    exact parse_v1_of_uses each uses harmless some

/-- Lambda expressions in each other in the first value of a field, whose type has a `dyn` type inside, in
front of a function that a `dyn` type is given to. -/
def gatedText : String :=
  "type T \x7b field f: fn([dyn]) -> int = |x| g(|y| y); fn g(a: dyn) \x7b \x7d \x7d"

/-- A lambda expression around a number that is too large. -/
def mixedText : String :=
  "type T \x7b fn f() \x7b g(|x| 9223372036854775808); \x7d \x7d"

/-- How many errors an outcome has. -/
def errorCount {Error Value : Type} : Except (List Error) Value → Nat
  | .ok _ => 0
  | .error errors => errors.length

theorem exists_of_errorCount {Error Value : Type} {outcome : Except (List Error) Value} {count : Nat}
    (counted : errorCount outcome = count) (some : count ≠ 0) :
    ∃ errors, outcome = .error errors ∧ errors.length = count := by
  cases outcome with
  | ok => exact absurd counted.symm some
  | error errors => exact ⟨errors, rfl, counted⟩

theorem versionGate_isExact_nested :
    (∃ file, parse ⟨gatedText, .v2⟩ = .ok file ∧ file.uses.length = 4 ∧
      parse ⟨gatedText, .v1⟩ = .error (file.uses.map (unavailable gatedText))) ∧
    ∃ error gated, parse ⟨mixedText, .v2⟩ = .error [error] ∧ parse ⟨mixedText, .v1⟩ = .error gated ∧
      gated.length = 2 ∧
      gated.filter (fun diagnostic ↦ diagnostic.code ≠ .featureUnavailable) = [error] := by
  constructor
  · obtain ⟨same, refused, _⟩ := versionGate_isExact gatedText
    have accepts : (parse ⟨gatedText, .v2⟩).toOption.any (fun _ ↦ true) = true := by decide +kernel
    have counted : errorCount (parse ⟨gatedText, .v1⟩) = 4 := by decide +kernel
    obtain ⟨file, parsed, _⟩ := exists_of_any accepts
    have gated := refused file parsed fun free ↦ by
      rw [(same file).mpr ⟨parsed, free⟩] at counted
      exact absurd counted nofun
    rw [gated] at counted
    exact ⟨file, parsed, List.length_map _ ▸ counted, gated⟩
  · obtain ⟨_, _, among⟩ := versionGate_isExact mixedText
    have counted : errorCount (parse ⟨mixedText, .v2⟩) = 1 := by decide +kernel
    have counted' : errorCount (parse ⟨mixedText, .v1⟩) = 2 := by decide +kernel
    obtain ⟨errors, rejected, single⟩ := exists_of_errorCount counted nofun
    obtain ⟨error, rfl⟩ := List.length_eq_one_iff.mp single
    obtain ⟨gated, refused, kept⟩ := among _ rejected
    rw [refused] at counted'
    exact ⟨error, gated, rejected, refused, counted', kept⟩

end GuestScript.Syntax
