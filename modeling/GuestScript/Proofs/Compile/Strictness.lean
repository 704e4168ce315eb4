import GuestScript.Proofs.Compile.Accepted
import GuestScript.Proofs.Compile.UnitFindings

/-!
# What the options of a compilation change

The options choose whether an entry is wanted and whether warnings count as errors. Neither of them
changes what is generated: `Compilation.optionsOnlyReport` says that strictness adds diagnostics to
those that are reported anyway, and that a library is the image of the program without its entry. As
diagnostics are sorted, this needs that a stable sort may be done before or after leaving some out.
-/

namespace GuestScript

/-! ## Sorted diagnostics -/

namespace Diagnostic

theorem precedes_trans (first second third : Diagnostic Location) :
    first.precedes second → second.precedes third → first.precedes third := by
  unfold precedes
  cases first.position <;> cases second.position <;> cases third.position <;> simp
  omega

theorem precedes_total (first second : Diagnostic Location) :
    first.precedes second || second.precedes first := by
  unfold precedes
  cases first.position <;> cases second.position <;> simp
  omega

/-- A sorted list is cut in one way only into what comes before a diagnostic and what does not. -/
theorem cut_eq {first : Diagnostic Location} {before after : List (Diagnostic Location)}
    (earlier : ∀ other ∈ before, !first.precedes other)
    (later : ∀ other ∈ after, first.precedes other) :
    (before ++ after).filter (fun other ↦ !first.precedes other) = before ∧
      (before ++ after).filter first.precedes = after := by
  rw [List.filter_append, List.filter_append, List.filter_eq_self.mpr earlier,
    List.filter_eq_self.mpr later, List.filter_eq_nil_iff.mpr, List.filter_eq_nil_iff.mpr]
  · exact ⟨List.append_nil _, rfl⟩
  · exact fun other inside ↦ by simpa using earlier other inside
  · exact fun other inside ↦ by simpa using later other inside

/-- Sorting puts a diagnostic behind those that come before it, and in front of the others. -/
theorem exists_inOrder_cons (first : Diagnostic Location) (rest : List (Diagnostic Location)) :
    ∃ before after, inOrder (first :: rest) = before ++ first :: after ∧
      inOrder rest = before ++ after ∧ (∀ other ∈ before, !first.precedes other) ∧
      ∀ other ∈ after, first.precedes other := by
  obtain ⟨before, after, whole, others, earlier⟩ :=
    List.mergeSort_cons precedes_trans precedes_total first rest
  have sorted := List.pairwise_mergeSort precedes_trans precedes_total (first :: rest)
  rw [whole] at sorted
  have later := (List.pairwise_cons.mp (List.pairwise_append.mp sorted).2.1).1
  exact ⟨before, after, whole, others, earlier, later⟩

/-- Diagnostics may be left out before or after sorting. -/
theorem filter_inOrder (keep : Diagnostic Location → Bool) :
    (diagnostics : List (Diagnostic Location)) →
    (inOrder diagnostics).filter keep = inOrder (diagnostics.filter keep)
  | [] => by rw [inOrder, List.mergeSort_nil, List.filter_nil, inOrder, List.mergeSort_nil]
  | first :: rest => by
      obtain ⟨before, after, whole, others, earlier, later⟩ := exists_inOrder_cons first rest
      have inner := filter_inOrder keep rest
      rw [others, List.filter_append] at inner
      rw [whole, List.filter_append, List.filter_cons, List.filter_cons]
      cases kept : keep first with
      | false => exact inner
      | true =>
          obtain ⟨before', after', whole', others', earlier', later'⟩ :=
            exists_inOrder_cons first (rest.filter keep)
          rw [others'] at inner
          obtain ⟨left, right⟩ := cut_eq
            (fun other inside ↦ earlier other (List.mem_of_mem_filter inside))
            (fun other inside ↦ later other (List.mem_of_mem_filter inside))
          obtain ⟨left', right'⟩ := cut_eq earlier' later'
          rw [inner] at left right
          rw [if_pos rfl, if_pos rfl, whole', ← left, ← right, left', right']

theorem inOrder_eq_nil_iff {diagnostics : List (Diagnostic Location)} :
    inOrder diagnostics = [] ↔ diagnostics = [] := by
  rw [← List.length_eq_zero_iff, ← List.length_eq_zero_iff, inOrder, List.length_mergeSort]

theorem mem_inOrder {diagnostic : Diagnostic Location}
    {diagnostics : List (Diagnostic Location)} :
    diagnostic ∈ inOrder diagnostics ↔ diagnostic ∈ diagnostics :=
  List.mem_mergeSort

end Diagnostic

/-! ## Reported diagnostics -/

namespace Compilation

open Compile (CompiledUnit IsFinding OutputKind)
open Syntax (File)

variable {words : Vocabulary} {kind : OutputKind} {options : CompileOptions} {unitName : String}
  {source : SourceUnit} {file : File} {references : ReferenceSet} {unit : CompiledUnit}
  {findings : List (Diagnostic Span)} {result : CompilationResult}

theorem reportable_append (first second : List (Diagnostic Span)) :
    reportable options (first ++ second)
      = reportable options first ++ reportable options second := by
  rw [reportable, List.map_append, List.filter_append, reportable, reportable]

/-- Without strictness, what is reported is what is reported with it and is no warning. -/
theorem reportable_eq_filter : {findings : List (Diagnostic Span)} →
    (∀ finding ∈ findings, IsFinding words finding) →
    reportable ⟨kind, false⟩ findings
      = (reportable ⟨kind, true⟩ findings).filter fun diagnostic ↦ !diagnostic.escalated
  | [], _ => rfl
  | first :: rest, each => by
      obtain ⟨here, others⟩ := List.forall_mem_cons.mp each
      have one : reportable ⟨kind, false⟩ [first]
          = (reportable ⟨kind, true⟩ [first]).filter fun diagnostic ↦ !diagnostic.escalated := by
        obtain error | ⟨warning, -⟩ := here.severity
        · simp [reportable, Diagnostic.escalate, Diagnostic.isReportable, error, here.escalated]
        · simp [reportable, Diagnostic.escalate, Diagnostic.isReportable, warning, here.escalated]
      rw [← List.singleton_append, reportable_append, reportable_append, List.filter_append, one,
        reportable_eq_filter others]

/-- What is reported is an error; if it was a warning, strictness made it one. -/
theorem severity_of_reportable (each : ∀ finding ∈ findings, IsFinding words finding) :
    ∀ diagnostic ∈ reportable options findings, diagnostic.severity = .error ∧
      (diagnostic.escalated = true →
        options.warningsAsErrors = true ∧ diagnostic.category = .lint) := by
  intro diagnostic inside
  obtain ⟨mapped, shown⟩ := List.mem_filter.mp inside
  obtain ⟨finding, present, rfl⟩ := List.mem_map.mp mapped
  have here := each finding present
  obtain error | ⟨warning, lint⟩ := here.severity
  · split <;> simp [Diagnostic.escalate, error, here.escalated]
  · cases strict : options.warningsAsErrors with
    | true =>
        simp only [if_true, Diagnostic.escalate, warning]
        exact ⟨trivial, fun _ ↦ ⟨trivial, lint⟩⟩
    | false =>
        simp [strict, Diagnostic.isReportable, warning, here.escalated] at shown

theorem unitDiagnostics_eq_nil_iff :
    unitDiagnostics options source unit = [] ↔ reportable options unit.findings = [] := by
  rw [unitDiagnostics, Diagnostic.inOrder_eq_nil_iff, List.map_eq_nil_iff]

/-- Without strictness, a unit has the diagnostics that it has with it and that are no warnings. -/
theorem unitDiagnostics_eq_filter (each : ∀ finding ∈ unit.findings, IsFinding words finding) :
    unitDiagnostics ⟨kind, false⟩ source unit
      = (unitDiagnostics ⟨kind, true⟩ source unit).filter
          fun diagnostic ↦ !diagnostic.escalated := by
  rw [unitDiagnostics, unitDiagnostics, Diagnostic.filter_inOrder, List.filter_map,
    reportable_eq_filter each]
  rfl

/-! ## Outcomes -/

section Outcomes

open Compile (compileUnit eq_ok_of_toOption)

/-- A compilation fails with what is reported, or nothing is reported and the image passes the
check. -/
theorem cases_of_compile
    (compiled : compile options unitName source file references = .ok result) :
    let unit := compileUnit references options.kind unitName file
    (unitDiagnostics options source unit ≠ [] ∧
        result = .failed unitName (unitDiagnostics options source unit)) ∨
      (unitDiagnostics options source unit = [] ∧ unit.image.verify = .ok () ∧
        result = .succeeded unitName unit.image unit.entry) := by
  simp only [compile] at compiled
  split at compiled
  · next none =>
      split at compiled
      · cases compiled
      · next passed => exact .inr ⟨none, passed, (Except.ok.inj compiled).symm⟩
  · next some => exact .inl ⟨some, (Except.ok.inj compiled).symm⟩

/-- If nothing is reported and the image passes the check, the compilation succeeds. -/
theorem compile_of_nil
    (none : unitDiagnostics options source
      (compileUnit references options.kind unitName file) = [])
    (passed : (compileUnit references options.kind unitName file).image.verify = .ok ()) :
    compile options unitName source file references
      = .ok (.succeeded unitName (compileUnit references options.kind unitName file).image
          (compileUnit references options.kind unitName file).entry) := by
  simp only [compile, none, passed]

/-- If something is reported, the compilation fails with it. -/
theorem compile_of_ne_nil
    (some : unitDiagnostics options source
      (compileUnit references options.kind unitName file) ≠ []) :
    compile options unitName source file references
      = .ok (.failed unitName (unitDiagnostics options source
          (compileUnit references options.kind unitName file))) := by
  simp only [compile]

theorem encode_ne_nil (image : Bytecode.Image) : image.encode ≠ [] := by
  rw [Bytecode.Image.encode, Bytecode.Image.magic, List.append_assoc]
  exact List.cons_ne_nil _ _

/-- An image that passes the check passes it without its entry. -/
theorem verify_without_entry {image : Bytecode.Image} (passed : image.verify = .ok ()) :
    Bytecode.Image.verify { image with entry := none } = .ok () := by
  have valid := Bytecode.Image.invalid_of_verify passed
  have rest : Bytecode.Image.invalid? { image with entry := none } = none := by
    simp only [Bytecode.Image.invalid?, Option.orElse_eq_orElse, Option.orElse_eq_or,
      Option.or_eq_none_iff] at valid ⊢
    exact ⟨rfl, valid.2⟩
  rw [Bytecode.Image.verify, rest]

/-- A library is the image of the program without its entry, and nothing more is found in it. -/
theorem compileUnit_library (references : ReferenceSet) (unitName : String) (file : File) :
    (compileUnit references .library unitName file).image
        = { (compileUnit references .executable unitName file).image with entry := none } ∧
      (compileUnit references .library unitName file).entry = none ∧
      ∃ added, (compileUnit references .executable unitName file).findings
        = (compileUnit references .library unitName file).findings ++ added := by
  let types := Meaning.typesOf references file
  let defined := Compile.defineTypes references types 0 types
    (Compile.declare references file .empty).2
  let compiled := Compile.compileFile references .executable file .empty
  obtain ⟨definitions, added, notes⟩ := Compile.notes_compileFile references .executable file
  refine ⟨?_, rfl, added.reverse, ?_⟩
  · change (⟨unitName, defined.2.imports, defined.1.toArray, defined.2.routines, none⟩ :
        Bytecode.Image)
      = ⟨unitName, compiled.2.imports, compiled.1.1.toArray, compiled.2.routines, none⟩
    rw [definitions, notes]
  · change compiled.2.findings.reverse = defined.2.findings.reverse ++ added.reverse
    rw [notes, List.reverse_append]

/-- What the options change of a compilation. Strictness adds diagnostics to those that are reported
anyway; a program that is strictly in order is the same one without strictness, and a library without
its entry. Whatever the options are, success means that nothing is reported and that there is an image,
and what is reported is an error, or a warning that strictness made one. -/
structure OptionsOnlyReport (references : ReferenceSet) (unitName : String) (source : SourceUnit)
    (file : File) : Prop where
  reports : ∀ kind lenient, compile ⟨kind, false⟩ unitName source file references = .ok lenient →
    ∃ strict, compile ⟨kind, true⟩ unitName source file references = .ok strict ∧
      lenient.diagnostics = strict.diagnostics.filter fun diagnostic ↦ !diagnostic.escalated
  relaxes : ∀ kind strict, compile ⟨kind, true⟩ unitName source file references = .ok strict →
    strict.success = true → compile ⟨kind, false⟩ unitName source file references = .ok strict
  shares : ∀ strictly program,
    compile ⟨.executable, strictly⟩ unitName source file references = .ok program →
    program.success = true →
      let image := (compileUnit references .executable unitName file).image
      program.image = image.encode ∧
        compile ⟨.library, strictly⟩ unitName source file references
          = .ok (.succeeded unitName { image with entry := none } none)
  succeeds : ∀ options result, compile options unitName source file references = .ok result →
    (result.success = true ↔ result.diagnostics = []) ∧
      (result.success = true ↔ result.image ≠ [])
  grave : ∀ options result, compile options unitName source file references = .ok result →
    ∀ diagnostic ∈ result.diagnostics, diagnostic.severity = .error ∧
      (diagnostic.escalated = true →
        options.warningsAsErrors = true ∧ diagnostic.category = .lint)

/-- What is found in a file is found to be grave or not, whatever it says. -/
theorem isFinding_everything (references : ReferenceSet) (kind : OutputKind) (unitName : String)
    (file : File) :
    ∀ finding ∈ (compileUnit references kind unitName file).findings,
      IsFinding .everything finding :=
  Compile.isFinding_compileUnit references.isPlain_everything kind unitName
    file.isPlain_everything

theorem exists_strict {lenient : CompilationResult}
    (compiled : compile ⟨kind, false⟩ unitName source file references = .ok lenient) :
    ∃ strict, compile ⟨kind, true⟩ unitName source file references = .ok strict ∧
      lenient.diagnostics = strict.diagnostics.filter fun diagnostic ↦ !diagnostic.escalated := by
  let unit := compileUnit references kind unitName file
  have diagnostics : unitDiagnostics ⟨kind, false⟩ source unit
      = (unitDiagnostics ⟨kind, true⟩ source unit).filter fun diagnostic ↦ !diagnostic.escalated :=
    unitDiagnostics_eq_filter (isFinding_everything references kind unitName file)
  obtain ⟨some, rfl⟩ | ⟨none, passed, rfl⟩ := cases_of_compile compiled
  · refine ⟨_, compile_of_ne_nil fun none ↦ some ?_, diagnostics⟩
    rw [diagnostics, none, List.filter_nil]
  · by_cases quiet : unitDiagnostics ⟨kind, true⟩ source unit = []
    · exact ⟨_, compile_of_nil quiet passed, rfl⟩
    · exact ⟨_, compile_of_ne_nil quiet, none.symm.trans diagnostics⟩

theorem compile_of_strict {strict : CompilationResult}
    (compiled : compile ⟨kind, true⟩ unitName source file references = .ok strict)
    (success : strict.success = true) :
    compile ⟨kind, false⟩ unitName source file references = .ok strict := by
  obtain ⟨-, rfl⟩ | ⟨none, passed, rfl⟩ := cases_of_compile compiled
  · exact absurd success nofun
  · refine compile_of_nil ?_ passed
    rw [unitDiagnostics_eq_filter (isFinding_everything references kind unitName file), none,
      List.filter_nil]

theorem compile_library {strictly : Bool} {program : CompilationResult}
    (compiled : compile ⟨.executable, strictly⟩ unitName source file references = .ok program)
    (success : program.success = true) :
    let image := (compileUnit references .executable unitName file).image
    program.image = image.encode ∧
      compile ⟨.library, strictly⟩ unitName source file references
        = .ok (.succeeded unitName { image with entry := none } none) := by
  obtain ⟨-, rfl⟩ | ⟨none, passed, rfl⟩ := cases_of_compile compiled
  · exact absurd success nofun
  · obtain ⟨image, entry, added, findings⟩ := compileUnit_library references unitName file
    have quiet : unitDiagnostics ⟨.library, strictly⟩ source
        (compileUnit references .library unitName file) = [] := by
      have silent := unitDiagnostics_eq_nil_iff.mp none
      rw [findings, reportable_append] at silent
      exact unitDiagnostics_eq_nil_iff.mpr (List.append_eq_nil_iff.mp silent).1
    have passed' := verify_without_entry passed
    rw [← image] at passed'
    have library := compile_of_nil quiet passed'
    rw [image, entry] at library
    exact ⟨rfl, library⟩

/-- The options of a compilation change what is reported, and never what is generated. -/
theorem optionsOnlyReport (references : ReferenceSet) (unitName : String) (source : SourceUnit)
    (file : File) : OptionsOnlyReport references unitName source file where
  reports _ _ compiled := exists_strict compiled
  relaxes _ _ compiled success := compile_of_strict compiled success
  shares _ _ compiled success := compile_library compiled success
  succeeds options result compiled := by
    obtain ⟨some, rfl⟩ | ⟨none, passed, rfl⟩ := cases_of_compile compiled
    · exact ⟨⟨nofun, fun none ↦ absurd none some⟩, ⟨nofun, fun image ↦ absurd rfl image⟩⟩
    · exact ⟨⟨fun _ ↦ rfl, fun _ ↦ rfl⟩, ⟨fun _ ↦ encode_ne_nil _, fun _ ↦ rfl⟩⟩
  grave options result compiled diagnostic inside := by
    obtain ⟨some, rfl⟩ | ⟨none, passed, rfl⟩ := cases_of_compile compiled
    · obtain ⟨found, reported, rfl⟩ := List.mem_map.mp (Diagnostic.mem_inOrder.mp inside)
      exact severity_of_reportable (isFinding_everything references options.kind unitName file)
        found reported
    · exact absurd inside List.not_mem_nil

/-- A program with a variable that is never read. -/
def unreadSource : SourceUnit :=
  ⟨"type P{static fn main(p:[str]){let x=1;}}", .v2⟩

theorem optionsOnlyReport_unread : ∃ file lenient strict library,
    Syntax.parse unreadSource = .ok file ∧
      compile ⟨.executable, false⟩ "unit" unreadSource file .empty = .ok lenient ∧
      compile ⟨.executable, true⟩ "unit" unreadSource file .empty = .ok strict ∧
      compile ⟨.library, false⟩ "unit" unreadSource file .empty = .ok library ∧
      lenient.success = true ∧ strict.success = false ∧ library.success = true ∧
      lenient.diagnostics
        = strict.diagnostics.filter fun diagnostic ↦ !diagnostic.escalated := by
  let outcome (strictly : Bool) (file : File) : Option Bool :=
    (compile ⟨.executable, strictly⟩ "unit" unreadSource file .empty).toOption.map
      CompilationResult.success
  have judged : (Syntax.parse unreadSource).toOption.any (fun file ↦
      outcome false file = some true && outcome true file = some false) = true := by
    decide +kernel
  obtain ⟨file, parsed, judged⟩ := (Option.any_eq_true _ _).mp judged
  obtain ⟨left, right⟩ := Bool.and_eq_true_iff.mp judged
  obtain ⟨lenient, compiled, success⟩ := Option.map_eq_some_iff.mp (of_decide_eq_true left)
  obtain ⟨strict, compiled', failure⟩ := Option.map_eq_some_iff.mp (of_decide_eq_true right)
  have options := optionsOnlyReport .empty "unit" unreadSource file
  obtain ⟨other, same, diagnostics⟩ := options.reports .executable lenient (eq_ok_of_toOption compiled)
  obtain rfl : strict = other := Except.ok.inj ((eq_ok_of_toOption compiled').symm.trans same)
  have library := (options.shares false lenient (eq_ok_of_toOption compiled) success).2
  exact ⟨file, lenient, strict, _, eq_ok_of_toOption parsed, eq_ok_of_toOption compiled, same,
    library, success, failure, rfl, diagnostics⟩

end Outcomes

end Compilation

end GuestScript
