import GuestScript.Proofs.Compile.Strictness
import GuestScript.Proofs.Syntax.ProblemOrder
import GuestScript.Proofs.Text.Locations

/-!
# Diagnostics come in the order of the source

The findings of a unit are sorted before they are reported; what is wrong with a text that has no tree is
not, and is in order because its problems are met in the order of the text, and places further on have
greater locations. Reporting only leaves out and escalates. So whatever the source, the version, the
references and the options are, the diagnostics of a compilation are ordered by line and column, with those
that have no location last: `diagnostics_inSourceOrder`.
-/

namespace GuestScript

open Grammar (IsBoundary)

/-- Diagnostics are shown in order: by line, then by column, and those without a location last. -/
def Diagnostic.AreShownInOrder (diagnostics : List (Diagnostic Location)) : Prop :=
  (diagnostics.map rank).Pairwise (· ≤ ·)

theorem Diagnostic.areShownInOrder_inOrder (diagnostics : List (Diagnostic Location)) :
    AreShownInOrder (inOrder diagnostics) :=
  List.pairwise_map.mpr
    ((List.pairwise_mergeSort precedes_trans precedes_total diagnostics).imp precedes_iff.mp)

theorem Diagnostic.rank_escalate (diagnostic : Diagnostic Location) :
    diagnostic.escalate.rank = diagnostic.rank := by
  unfold escalate
  split <;> rfl

namespace Syntax

theorem rank_diagnostic (source : SourceUnit) (problem : Problem) :
    ((problem.diagnostic source.version).relocate source.locate).rank =
      ↑(source.locate problem.span).key := by
  cases problem <;> rfl

/-- What is wrong with a text without a tree is in order. -/
theorem areShownInOrder_of_parse {source : SourceUnit} {errors : List (Diagnostic Location)}
    (rejected : parse source = .error errors) : Diagnostic.AreShownInOrder errors := by
  obtain ⟨found, spans, rfl⟩ := exists_of_parse_error rejected
  obtain ⟨farthest, failed⟩ | ⟨node, file, problems, derived, placed, builds, each⟩ :=
    parseSpans_cases_of_text source.text
  · obtain rfl := Except.error.inj ((failed source.version).symm.trans spans)
    exact List.pairwise_singleton _ _
  · have inOrder := Assembly.areInOrder_of_builds builds placed
    obtain ⟨-, rfl⟩ := judged_eq_error_iff.mp ((each source.version).symm.trans spans)
    refine List.pairwise_map.mpr (List.pairwise_map.mpr (List.pairwise_map.mpr ?_))
    refine List.Pairwise.sublist List.filter_sublist (inOrder.ordered.imp_of_mem ?_)
    intro first second inside inside' order
    rw [rank_diagnostic, rank_diagnostic]
    have here := (inOrder.each first inside).1
    have there := (inOrder.each second inside').1
    exact WithTop.coe_le_coe.mpr (locate_le here there order).1

end Syntax

namespace Compilation

variable {options : CompileOptions} {unitName : String} {source : SourceUnit} {resolver : Resolver}

/-- Reporting keeps the order. -/
theorem areShownInOrder_reportable {diagnostics : List (Diagnostic Location)}
    (ordered : Diagnostic.AreShownInOrder diagnostics) :
    Diagnostic.AreShownInOrder (reportable options diagnostics) := by
  have raised : diagnostics.map (Diagnostic.rank ∘ fun diagnostic ↦
      if options.warningsAsErrors then diagnostic.escalate else diagnostic) =
        diagnostics.map Diagnostic.rank := by
    refine List.map_congr_left fun diagnostic _ ↦ ?_
    rw [Function.comp_apply]
    split
    · exact diagnostic.rank_escalate
    · rfl
  refine List.Pairwise.sublist (List.filter_sublist.map Diagnostic.rank) ?_
  rw [List.map_map, raised]
  exact ordered

/-- The diagnostics of every compilation are in the order of the source; and a place that is further on in
the source has a greater location. -/
theorem diagnostics_inSourceOrder (options : CompileOptions) (unitName : String) (source : SourceUnit)
    (resolver : Resolver) :
    (∀ result, compileSource options unitName source resolver = .ok result →
      Diagnostic.AreShownInOrder result.diagnostics) ∧
    ∀ first second : Span, IsBoundary source.text.toList first.start →
      IsBoundary source.text.toList second.start → first.start ≤ second.start →
      (source.locate first).key ≤ (source.locate second).key ∧
        ((source.locate first).key = (source.locate second).key ↔ first.start = second.start) := by
  refine ⟨fun result compiled ↦ ?_, fun _ _ ↦ locate_le⟩
  unfold compileSource at compiled
  split at compiled
  · obtain ⟨-, rfl⟩ | ⟨-, -, rfl⟩ := cases_of_compile compiled
    · exact Diagnostic.areShownInOrder_inOrder _
    · exact .nil
  · next errors rejected =>
      obtain rfl := Except.ok.inj compiled
      exact areShownInOrder_reportable (Syntax.areShownInOrder_of_parse rejected)

/-- Uses of features and literals without a value among each other, behind a letter of two bytes and lines
that end with a carriage return. -/
def linedSource : SourceUnit :=
  ⟨"type T \x7b // é\r\n  field f: dyn = g(\"é\\q\\p\",\r\n  |x| 9223372036854775808); fn h() -> dyn \x7b \x7d \x7d",
    .v1⟩

/-- The two places around the first line feed of the text. -/
theorem isBoundary_linedSource :
    IsBoundary linedSource.text.toList 15 ∧ IsBoundary linedSource.text.toList 16 := by
  have bytes : 15 = Grammar.bytesOf (linedSource.text.toList.take 14) ∧
      16 = Grammar.bytesOf (linedSource.text.toList.take 15) := by
    rw [show linedSource.text.toList = _ from String.toList_ofList]
    decide +kernel
  exact ⟨⟨_, _, (List.take_append_drop 14 _).symm, bytes.1⟩, ⟨_, _, (List.take_append_drop 15 _).symm, bytes.2⟩⟩

theorem diagnostics_inSourceOrder_lines :
    (∃ result, compileSource {} "unit" linedSource (Resolver.ofTable .standard) = .ok result ∧
      result.diagnostics.length = 6 ∧ Diagnostic.AreShownInOrder result.diagnostics) ∧
    (linedSource.locate ⟨15, 15⟩).key ≤ (linedSource.locate ⟨16, 16⟩).key ∧
    (linedSource.locate ⟨15, 15⟩).key ≠ (linedSource.locate ⟨16, 16⟩).key := by
  obtain ⟨ordered, further⟩ :=
    diagnostics_inSourceOrder {} "unit" linedSource (Resolver.ofTable .standard)
  have checked : (compileSource {} "unit" linedSource (Resolver.ofTable .standard)).toOption.any
      (fun result ↦ result.diagnostics.length = 6) = true := by
    decide +kernel
  obtain ⟨result, compiled, counted⟩ := Syntax.exists_of_any checked
  obtain ⟨here, there⟩ := isBoundary_linedSource
  obtain ⟨below, apart⟩ := further ⟨15, 15⟩ ⟨16, 16⟩ here there (by decide)
  exact ⟨⟨result, compiled, of_decide_eq_true counted, ordered result compiled⟩, below,
    fun same ↦ absurd (apart.mp same) (by decide)⟩

end Compilation

end GuestScript
