import GuestScript.Proofs.Compile.Strictness
import GuestScript.Proofs.Session.PipelineRuns
import GuestScript.Proofs.Syntax.Building
import GuestScript.Proofs.Syntax.PlainAssembly

/-!
# The lines that a rejected source prints

Each diagnostic is written with a line feed behind it, so that readers take lines for diagnostics.
This is right unless a message has a line feed of its own, and all that a message takes from the source
are names, digits and the character of an unknown escape. `Host.printsItsDiagnostics` says that a
backslash in front of a line feed is the only way to such a message, and that without it the lines of a
rejected run are its diagnostics.
-/

namespace GuestScript

/-! ## Line feeds in diagnostics -/

theorem lineFree_append {first second : String} :
    '\n' ∉ first.toList → '\n' ∉ second.toList → '\n' ∉ (first ++ second).toList :=
  Vocabulary.lineFree.plain_append

theorem lineFree_text_severity (severity : Severity) : '\n' ∉ severity.text.toList := by
  cases severity <;> decide

theorem lineFree_text_code (code : Code) : '\n' ∉ code.text.toList := by
  cases code <;> decide

theorem lineFree_text_version (version : LanguageVersion) : '\n' ∉ version.text.toList := by
  cases version <;> decide

theorem lineFree_text_location (location : Location) : '\n' ∉ location.text.toList :=
  lineFree_append (lineFree_append (Vocabulary.lineFree.plain_toString location.line) (by decide))
    (Vocabulary.lineFree.plain_toString location.column)

/-- What a diagnostic is shown as is its message between texts on one line. -/
theorem Diagnostic.exists_text (diagnostic : Diagnostic Location) : ∃ front mark : String,
    diagnostic.text = front ++ diagnostic.message ++ mark ∧ '\n' ∉ front.toList ∧
      '\n' ∉ mark.toList := by
  refine ⟨_, _, rfl, ?_, by split <;> decide⟩
  refine lineFree_append (lineFree_append (lineFree_append (lineFree_append
    (lineFree_append (lineFree_text_severity _) (by decide)) (lineFree_text_code _)) (by decide))
    ?_) (by decide)
  split
  · exact lineFree_append (by decide) (lineFree_text_location _)
  · decide

/-- What a diagnostic is shown as has a line feed if its message has one. -/
theorem Diagnostic.mem_text_iff (diagnostic : Diagnostic Location) :
    '\n' ∈ diagnostic.text.toList ↔ '\n' ∈ diagnostic.message.toList := by
  obtain ⟨front, mark, same, before, behind⟩ := diagnostic.exists_text
  rw [same, String.toList_append, String.toList_append, List.mem_append, List.mem_append]
  exact ⟨fun inside ↦ (inside.resolve_right behind).resolve_left before, fun inside ↦
    .inl (.inr inside)⟩

/-! ## Messages of the parser -/

namespace Grammar

theorem lineFree_label (rule : Rule) : '\n' ∉ rule.label.toList := by
  cases rule <;> decide

variable {words : Vocabulary}

theorem plain_joinAlternatives {labels : List String} (each : ∀ label ∈ labels, words.plain label) :
    words.plain (Farthest.joinAlternatives labels) := by
  have reversed : ∀ label ∈ labels.reverse, words.plain label :=
    fun label inside ↦ each label (List.mem_reverse.mp inside)
  unfold Farthest.joinAlternatives
  split
  · exact words.plain_of_lineFree (by decide)
  · next only same => exact reversed only (same ▸ List.mem_cons_self)
  · next second first same =>
      rw [same] at reversed
      obtain ⟨here, others⟩ := List.forall_mem_cons.mp reversed
      exact words.plain_append (words.plain_append (others first List.mem_cons_self)
        (words.plain_of_lineFree (by decide))) here
  · next last others _ same =>
      rw [same] at reversed
      obtain ⟨here, others⟩ := List.forall_mem_cons.mp reversed
      refine words.plain_append (words.plain_append
        (words.plain_intercalate (words.plain_of_lineFree (by decide)) fun label inside ↦
          others label (List.mem_reverse.mp inside)) (words.plain_of_lineFree (by decide))) here

theorem Farthest.plain_message (farthest : Farthest) : words.plain farthest.message := by
  unfold message
  split
  · exact words.plain_of_lineFree (by decide)
  · refine words.plain_append (words.plain_of_lineFree (by decide)) (plain_joinAlternatives ?_)
    exact List.forall_mem_map.mpr fun rule _ ↦ words.plain_of_lineFree (lineFree_label rule)

end Grammar

namespace Syntax

/-- The message of a text that does not follow the grammar is on one line. -/
theorem lineFree_syntaxError (source : SourceUnit) (farthest : Grammar.Farthest) :
    '\n' ∉ (syntaxError source farthest).message.toList := by
  have message : Vocabulary.lineFree.plain farthest.message := farthest.plain_message
  refine lineFree_append (lineFree_append message (by decide)) ?_
  split <;> decide

/-- The message of a problem has a line feed only if this is the character behind a backslash. -/
theorem Problem.mem_message_iff (problem : Problem) (plain : problem.IsPlain .lineFree)
    (version : LanguageVersion) :
    '\n' ∈ (problem.diagnostic version).message.toList ↔
      ∃ span, problem = .unknownEscape '\n' span := by
  cases problem with
  | usesFeature feature span =>
      have named : '\n' ∉ feature.text.toList := by cases feature <;> decide
      exact iff_of_false (lineFree_append (lineFree_append (lineFree_append
        (lineFree_append named (by decide)) (lineFree_text_version _)) (by decide))
        (lineFree_text_version version)) nofun
  | integerOutOfRange digits span =>
      exact iff_of_false (Vocabulary.lineFree.plain_between (by decide) plain (by decide)) nofun
  | unknownEscape character span =>
      have message : (Problem.diagnostic version (.unknownEscape character span)).message
          = "unknown escape `\\" ++ character.toString ++ "`" := rfl
      rw [message, String.toList_append, String.toList_append, List.mem_append, List.mem_append]
      simp [eq_comm]

theorem Problem.severity_diagnostic (problem : Problem) (version : LanguageVersion) :
    (problem.diagnostic version).severity = .error := by
  cases problem <;> rfl

/-- What is wrong with a source without a tree are errors, and a message of one has a line feed only if
a backslash is in front of one. -/
theorem error_of_parseSpans {source : SourceUnit} {found : List (Diagnostic Span)}
    (rejected : parseSpans source = .error found) {finding : Diagnostic Span}
    (inside : finding ∈ found) : finding.severity = .error ∧
      ('\n' ∈ finding.message.toList →
        ∃ span, finding = (Problem.unknownEscape '\n' span).diagnostic source.version) := by
  obtain ⟨farthest, same⟩ | ⟨file, -, same⟩ | ⟨problems, -, plain, same⟩ :=
    parseSpans_cases .lineFree source
  · obtain rfl := Except.error.inj (same.symm.trans rejected)
    obtain rfl := List.mem_singleton.mp inside
    exact ⟨rfl, fun broken ↦ absurd broken (lineFree_syntaxError source farthest)⟩
  · exact absurd (same.symm.trans rejected) nofun
  · obtain rfl := Except.error.inj (same.symm.trans rejected)
    obtain ⟨problem, present, rfl⟩ := List.mem_map.mp inside
    refine ⟨problem.severity_diagnostic _, fun broken ↦ ?_⟩
    obtain ⟨span, rfl⟩ := (problem.mem_message_iff (plain problem present) _).mp broken
    exact ⟨span, rfl⟩

end Syntax

/-! ## Messages of a compilation -/

namespace Compilation

open Syntax (File Problem)

variable {options : CompileOptions} {unitName : String} {source : SourceUnit} {file : File}
  {references : ReferenceSet} {resolver : Resolver} {result : CompilationResult}

theorem message_of_reportable {Position : Type} {findings : List (Diagnostic Position)}
    {diagnostic : Diagnostic Position} (inside : diagnostic ∈ reportable options findings) :
    ∃ finding ∈ findings, diagnostic.message = finding.message := by
  obtain ⟨finding, present, rfl⟩ := List.mem_map.mp (List.mem_filter.mp inside).1
  refine ⟨finding, present, ?_⟩
  split
  · rw [Diagnostic.escalate]
    split <;> rfl
  · rfl

/-- Errors are reported as they are, whatever the options. -/
theorem reportable_of_errors {Position : Type} {errors : List (Diagnostic Position)}
    (each : ∀ error ∈ errors, error.severity = .error) : reportable options errors = errors := by
  have raised : errors.map (fun error ↦ if options.warningsAsErrors then error.escalate else error)
      = errors := by
    refine (List.map_congr_left fun error inside ↦ ?_).trans (List.map_id _)
    have kept : error.escalate = error := by
      rw [Diagnostic.escalate, each error inside]
      rfl
    rw [kept, ite_self, id]
  rw [reportable, raised]
  exact List.filter_eq_self.mpr fun error inside ↦ by
    rw [Diagnostic.isReportable, each error inside]
    rfl

/-- What is reported of a file whose names are on one line is on one line. -/
theorem lineFree_of_compile (signatures : references.IsPlain .lineFree)
    (plain : file.IsPlain .lineFree)
    (compiled : compile options unitName source file references = .ok result) :
    ∀ diagnostic ∈ result.diagnostics, '\n' ∉ diagnostic.message.toList := by
  intro diagnostic inside
  obtain ⟨-, rfl⟩ | ⟨-, -, rfl⟩ := cases_of_compile compiled
  · obtain ⟨reported, shown, rfl⟩ := List.mem_map.mp (Diagnostic.mem_inOrder.mp inside)
    obtain ⟨finding, found, same⟩ := message_of_reportable shown
    have here := (Compile.isFinding_compileUnit signatures options.kind unitName plain finding
      found).message
    rw [← same] at here
    exact here
  · exact absurd inside List.not_mem_nil

/-- The diagnostic of a backslash in front of a line feed. -/
def escapedLineFeed (source : SourceUnit) (span : Span) : Diagnostic Location :=
  ((Problem.unknownEscape '\n' span).diagnostic source.version).relocate source.locate

/-- A reported diagnostic has a line feed exactly if it is that of a backslash in front of one. -/
theorem lineFeed_mem_iff (signatures : ∀ imports, (resolver imports).IsPlain .lineFree)
    (compiled : compileSource options unitName source resolver = .ok result)
    {diagnostic : Diagnostic Location} (inside : diagnostic ∈ result.diagnostics) :
    '\n' ∈ diagnostic.text.toList ↔ ∃ span, diagnostic = escapedLineFeed source span := by
  rw [diagnostic.mem_text_iff]
  constructor
  · intro broken
    unfold compileSource at compiled
    split at compiled
    · next file parsed =>
        exact absurd broken (lineFree_of_compile (signatures _) (Syntax.isPlain_of_parse parsed)
          compiled diagnostic inside)
    · next errors rejected =>
        obtain rfl := Except.ok.inj compiled
        obtain ⟨found, spans, rfl⟩ := Syntax.exists_of_parse_error rejected
        have errors : ∀ error ∈ found.map (Diagnostic.relocate source.locate),
            error.severity = .error := List.forall_mem_map.mpr fun _ present ↦
          (Syntax.error_of_parseSpans spans present).1
        have reported : diagnostic ∈
            reportable options (found.map (Diagnostic.relocate source.locate)) := inside
        rw [reportable_of_errors errors] at reported
        obtain ⟨finding, present, rfl⟩ := List.mem_map.mp reported
        obtain ⟨span, rfl⟩ := (Syntax.error_of_parseSpans spans present).2 broken
        exact ⟨span, rfl⟩
  · rintro ⟨span, rfl⟩
    exact ((Problem.unknownEscape '\n' span).mem_message_iff trivial source.version).mpr
      ⟨span, rfl⟩

end Compilation

/-! ## Lines -/

/-- The lines of what is written with a line feed behind each text are those of the texts; nothing is
behind the last line feed. -/
theorem splitOn_lines (texts : List String) :
    (String.join (texts.map (· ++ "\n"))).toList.splitOn '\n'
      = texts.flatMap (fun text ↦ text.toList.splitOn '\n') ++ [[]] := by
  induction texts with
  | nil => rfl
  | cons first rest ih =>
      have written : (String.join ((first :: rest).map (· ++ "\n"))).toList
          = first.toList ++ '\n' :: (String.join (rest.map (· ++ "\n"))).toList := by
        simp [String.toList_append]
      rw [written, List.splitOn_append_cons_self, ih, List.flatMap_cons, List.append_assoc]

/-- A line has no line feed. -/
theorem lineFree_of_mem_splitOn : {text line : List Char} → line ∈ text.splitOn '\n' → '\n' ∉ line
  | [], line, inside => by
      rw [List.splitOn_nil, List.mem_singleton] at inside
      exact inside ▸ List.not_mem_nil
  | first :: rest, line, inside => by
      rw [List.splitOn_cons_eq_if_modifyHead] at inside
      have deeper : ∀ line ∈ rest.splitOn '\n', '\n' ∉ line :=
        fun _ ↦ lineFree_of_mem_splitOn
      split at inside
      · obtain rfl | inside := List.mem_cons.mp inside
        · exact List.not_mem_nil
        · exact deeper _ inside
      · next other =>
          -- the character in front becomes part of the first line
          cases lines : rest.splitOn '\n' with
          | nil => exact absurd lines (List.splitOn_ne_nil _ _)
          | cons head tail =>
              rw [lines] at inside deeper
              obtain rfl | inside := List.mem_cons.mp inside
              · intro inside
                obtain rfl | inside := List.mem_cons.mp inside
                · exact other (beq_self_eq_true _)
                · exact deeper _ List.mem_cons_self inside
              · exact deeper _ (List.mem_cons_of_mem _ inside)

/-- The lines of what is written with a line feed behind each text are the texts exactly if none of
them has a line feed. -/
theorem splitOn_lines_iff (texts : List String) :
    (String.join (texts.map (· ++ "\n"))).toList.splitOn '\n' = texts.map String.toList ++ [[]] ↔
      ∀ text ∈ texts, '\n' ∉ text.toList := by
  constructor
  · intro same text inside
    have line : text.toList ∈ (String.join (texts.map (· ++ "\n"))).toList.splitOn '\n' :=
      same ▸ List.mem_append_left _ (List.mem_map_of_mem inside)
    exact lineFree_of_mem_splitOn line
  · intro lineFree
    rw [splitOn_lines]
    refine congrArg (· ++ [[]]) ?_
    rw [← List.flatMap_singleton' (texts.map String.toList), List.flatMap_map]
    exact List.flatMap_congr fun text inside ↦ List.splitOn_eq_singleton (lineFree text inside)

/-! ## Runs -/

namespace Session

variable {host : Host} {fuel : Nat} {config : RunConfig} {resolver : Resolver}
  {source : SourceUnit} {result : CompilationResult}

open Compilation (escapedLineFeed)

/-- What a run prints whose source does not compile, for a console that accepts what is written. The
lines are the texts of the diagnostics exactly if the source has no backslash in front of a line feed
that is reported. -/
structure Host.PrintsItsDiagnostics (host : Host) (fuel : Nat) (config : RunConfig)
    (resolver : Resolver) (source : SourceUnit) (diagnostics : List (Diagnostic Location)) :
    Prop where
  broken : ∀ diagnostic ∈ diagnostics,
    ('\n' ∈ diagnostic.text.toList ↔ ∃ span, diagnostic = escapedLineFeed source span)
  prints : ∃ after printed, host.run fuel config resolver source
      = some (.ok ⟨rejectedStages, diagnostics, none, none⟩, after) ∧
    after.console.text = host.console.text ++ printed ∧
    printed.toList.splitOn '\n'
      = diagnostics.flatMap (fun diagnostic ↦ diagnostic.text.toList.splitOn '\n') ++ [[]] ∧
    (printed.toList.splitOn '\n'
        = diagnostics.map (fun diagnostic ↦ diagnostic.text.toList) ++ [[]] ↔
      ∀ span, escapedLineFeed source span ∉ diagnostics)

/-- A run whose source does not compile prints its diagnostics. -/
theorem Host.printsItsDiagnostics (fuel : Nat)
    (signatures : ∀ imports, (resolver imports).IsPlain .lineFree)
    (accepts : host.console.failure = none)
    (compiled : Compilation.compileSource config.compile (host.drawId .unit).1 source resolver
      = .ok result) (failed : result.success = false) :
    host.PrintsItsDiagnostics fuel config resolver source result.diagnostics := by
  have broken (diagnostic : Diagnostic Location) (inside : diagnostic ∈ result.diagnostics) :=
    Compilation.lineFeed_mem_iff signatures compiled inside
  let texts := result.diagnostics.map Diagnostic.text
  let after := { (host.drawId .unit).2 with
    console := printDiagnostics host.console result.diagnostics }
  have ran : host.run fuel config resolver source
      = some (.ok ⟨rejectedStages, result.diagnostics, none, none⟩, after) := by
    unfold run
    simp only [compiled, failed, Bool.false_eq_true, if_false]
    rfl
  have written : after.console = withLines host.console texts :=
    printDiagnostics_of_accepts accepts result.diagnostics
  have lines := splitOn_lines_iff texts
  have same : texts.map String.toList = result.diagnostics.map fun diagnostic ↦
      diagnostic.text.toList := List.map_map
  rw [same, List.forall_mem_map] at lines
  refine ⟨broken, after, String.join (texts.map (· ++ "\n")), ran, ?_, ?_, lines.trans ?_⟩
  · rw [written]
    rfl
  · rw [splitOn_lines, List.flatMap_map]
  · constructor
    · exact fun lineFree span inside ↦ lineFree _ inside ((broken _ inside).mpr ⟨span, rfl⟩)
    · intro absent diagnostic inside linefeed
      obtain ⟨span, rfl⟩ := (broken diagnostic inside).mp linefeed
      exact absent span inside

/-! ## The standard modules -/

theorem isPlain_function_iff {words : Vocabulary} {function : HostFunction} :
    function.IsPlain words ↔ (∀ type ∈ function.parameters, type.IsPlain words) ∧
      function.result.IsPlain words :=
  ⟨fun plain ↦ ⟨plain.parameters, plain.result⟩, fun plain ↦ ⟨plain.1, plain.2⟩⟩

/-- The signatures of the standard modules name no type of a source. -/
theorem isPlain_standard (words : Vocabulary) : ∀ binding ∈ ModuleTable.standard.bindings,
    ∀ function ∈ binding.host.functions, function.IsPlain words := by
  have bindings : ModuleTable.standard.bindings
      = HostModule.standard.map fun host ↦ ⟨host, ⟨1, 0⟩⟩ := by decide
  rw [bindings, List.forall_mem_map]
  simp [HostModule.standard, HostModule.core, HostModule.io, HostModule.text,
    HostModule.dynamic, HostModule.seq, isPlain_function_iff, Ty.IsPlain, Ty.ArePlain]

/-- The signatures of modules that are taken from a table are plain if those of the table are. -/
theorem isPlain_of_drawnFrom {words : Vocabulary} {references : ReferenceSet} {table : ModuleTable}
    (drawn : references.DrawnFrom table) (plain : ∀ binding ∈ table.bindings,
      ∀ function ∈ binding.host.functions, function.IsPlain words) : references.IsPlain words :=
  fun binding inside ↦ plain binding (List.mem_of_find?_eq_some (drawn binding inside))

theorem isPlain_resolved (words : Vocabulary) (imports : List String) :
    (Resolver.ofTable .standard imports).IsPlain words :=
  isPlain_of_drawnFrom (Resolver.drawnFrom_ofTable _ imports) (isPlain_standard words)

/-- A program that uses a name that means nothing. -/
def unknownSource : SourceUnit :=
  ⟨"type P{static fn main(p:[str]){x;}}", .v2⟩

theorem Host.printsItsDiagnostics_unknown : ∃ result,
    Compilation.compileSource {} ((fresh .standard (.fixed "c") .empty).drawId .unit).1
        unknownSource (Resolver.ofTable .standard) = .ok result ∧
      result.success = false ∧ result.diagnostics.length = 1 ∧
      (fresh .standard (.fixed "c") .empty).PrintsItsDiagnostics 100 {}
        (Resolver.ofTable .standard) unknownSource result.diagnostics := by
  let check (result : CompilationResult) : Bool :=
    result.success = false && result.diagnostics.length = 1
  have judged : (Compilation.compileSource {}
      ((fresh .standard (.fixed "c") .empty).drawId .unit).1 unknownSource
      (Resolver.ofTable .standard)).toOption.any check = true := by
    decide +kernel
  obtain ⟨result, compiled, judged⟩ := (Option.any_eq_true _ _).mp judged
  obtain ⟨failed, one⟩ := Bool.and_eq_true_iff.mp judged
  have compiled := Compile.eq_ok_of_toOption compiled
  have failed := of_decide_eq_true failed
  exact ⟨result, compiled, failed, of_decide_eq_true one,
    printsItsDiagnostics 100 (isPlain_resolved .lineFree) rfl compiled failed⟩

/-- A text with a backslash in front of a line feed. -/
def brokenSource : SourceUnit :=
  ⟨"type P\x7bstatic fn main(p:[str])\x7blet s=\"\\\n\";\x7d\x7d", .v2⟩

/-- Not every diagnostic is shown on one line. -/
theorem not_forall_lineFree_broken : ¬ ∀ (options : CompileOptions) (unitName : String)
    (source : SourceUnit) (resolver : Resolver) (result : CompilationResult),
    Compilation.compileSource options unitName source resolver = .ok result →
    result.success = false → ∀ diagnostic ∈ result.diagnostics, '\n' ∉ diagnostic.text.toList := by
  intro all
  let check (result : CompilationResult) : Bool :=
    result.success = false && result.diagnostics.any fun diagnostic ↦ '\n' ∈ diagnostic.text.toList
  have judged : (Compilation.compileSource {} "unit" brokenSource
      (Resolver.ofTable .standard)).toOption.any check = true := by
    decide +kernel
  obtain ⟨result, compiled, judged⟩ := (Option.any_eq_true _ _).mp judged
  obtain ⟨failed, some⟩ := Bool.and_eq_true_iff.mp judged
  obtain ⟨diagnostic, inside, broken⟩ := List.any_eq_true.mp some
  exact all {} "unit" brokenSource _ result (Compile.eq_ok_of_toOption compiled)
    (of_decide_eq_true failed) diagnostic inside (of_decide_eq_true broken)

end Session

end GuestScript
