import GuestScript.Compilation
import GuestScript.Proofs.Compile.Entries
import GuestScript.Proofs.Syntax.Parsed

/-!
# Accepted programs

A file that is compiled without a mistake, and whose image is linked against the host functions that
it was compiled against, is a program of which every routine has the code of its text. `Accepted`
says so, and that the entry of the compiled unit is the function that the file starts with.
-/

namespace GuestScript

/-- The signatures of host functions have no part that stands for a mistake. -/
def ReferenceSet.IsProper (references : ReferenceSet) : Prop :=
  ∀ {qualifier name : String} {binding : ModuleBinding} {function : HostFunction},
    references.lookup? qualifier = some binding → binding.host.function? name = some function →
    (∀ wanted ∈ function.parameters, wanted.isWhole true = true) ∧
      function.result.isWhole true = true

theorem ReferenceSet.isProper_of_forall {references : ReferenceSet}
    (each : ∀ binding ∈ references.entries, ∀ function ∈ binding.host.functions,
      (∀ wanted ∈ function.parameters, wanted.isWhole true = true) ∧
        function.result.isWhole true = true) : references.IsProper :=
  fun known found ↦ each _ (mem_of_lookup? known).1 _ (List.mem_of_find?_eq_some found)

namespace Compile

open Bytecode (Image RoutineIndex TypeIndex)
open Machine (Program)
open Meaning
open Syntax (File)

variable {references : ReferenceSet} {table : ModuleTable} {program : Program} {file : File}
  {types : List TypeInfo}

/-- An image has all that its draft has once it is linked. -/
theorem agrees_of_link {draft : Draft} {image : Image} (quiet : draft.Quiet)
    (routines : image.routines = draft.routines) (imports : image.imports = draft.imports)
    (offers : table.Offers references) (linked : Session.link table image = .ok program) :
    Draft.Agrees program references [] draft := by
  refine ⟨quiet, fun _ _ ↦ ?_, ?_⟩
  · rw [(Session.link_image linked).1, routines]
  · intro index imported binding function found known member
    obtain ⟨same, some⟩ := Session.hosts_of_link linked (imports ▸ found)
    obtain ⟨offered, other, held, member', action⟩ := offers known member
    rw [same]
    simp only [Session.hostFor?, held, member', Option.bind_eq_bind, Option.bind_some,
      Option.pure_def] at some ⊢
    split
    · rw [action]
    · next other =>
        rw [if_neg other] at some
        cases some

/-- What is declared in order is proper, whatever host functions there are. -/
theorem areProper_of_declared {draft : Draft} (proper : references.IsProper)
    (declared : Declared types draft) : AreProper references types := by
  have method {owner : TypeIndex} {name : String} {method : MethodInfo}
      (found : methodOf? types owner name = some method) : method.IsReserved draft owner := by
    rw [methodOf?, Option.bind_eq_bind, Option.bind_eq_some_iff] at found
    obtain ⟨info, here, found⟩ := found
    have reserved := (declared.reserved.each here).methods.each method
      (List.mem_of_find?_eq_some found)
    rwa [Nat.zero_add] at reserved
  intro owner info here
  refine ⟨(List.getElem?_eq_some_iff.mp here).1, ?_,
    fun found ↦ (method found).parameters, fun found ↦ (method found).result,
    fun known found ↦ (proper known found).1, fun known found ↦ (proper known found).2, rfl⟩
  intro fullName name position type found
  simp only [fieldOf?, Option.bind_eq_bind, Option.bind_eq_some_iff, Option.pure_def,
    Option.some.injEq, Prod.mk.injEq] at found
  obtain ⟨index, -, info, here, position', -, field, inside, -, rfl⟩ := found
  exact ((declared.reserved.each here).fields field (List.mem_of_getElem? inside)).closed

end Compile

namespace Meaning.TypesCode

open Bytecode (TypeIndex)
open Compile
open Machine (Program)

variable {program : Program} {references : ReferenceSet} {types : List TypeInfo}

/-- The image of a translation has the types of the file. -/
theorem declares (code : TypesCode program references types) : Declares program.image types where
  size := code.size
  type found := by
    obtain ⟨definition, same, type⟩ := code.type found
    exact ⟨definition, same, type.name, type.methods⟩
  method found inside := by
    obtain ⟨definition, -, type⟩ := code.type found
    cases type.method _ inside with
    | mk routine _ _ _ => exact ⟨_, _, routine⟩

end Meaning.TypesCode

namespace Compile

open Bytecode (TypeIndex)
open Machine (Program)
open Meaning
open Syntax (File)

/-- A program is what a file is compiled to: each type has its definition, and each routine is that
of something in the file. -/
structure CompiledFrom (program : Program) (references : ReferenceSet) (file : File) : Prop where
  code : TypesCode program references (typesOf references file)
  routines : ∀ index < program.image.routines.size,
    RoutineCode program references (typesOf references file) index
  proper : AreProper references (typesOf references file)
  declared : ∃ draft, Declared (typesOf references file) draft

/-- A linked program is what a file is compiled to, and starts with a function of the file. -/
structure Accepted (program : Program) (references : ReferenceSet) (file : File)
    (entry : EntryPoint) (owner : TypeIndex) (method : MethodInfo) : Prop
    extends CompiledFrom program references file where
  starts : entryMethod? (typesOf references file) = some (owner, method)
  member : ∃ info, (typesOf references file)[owner]? = some info ∧ method ∈ info.methods
  found : Session.findEntry program.image entry = .ok (owner, method.routine)
  binding : entry.binding = if method.isStatic then .static else .onInstance
  signature : hasEntrySignature method = true
  verified : program.image.Verified
  bound : program.hosts.size = program.image.imports.size

variable {references : ReferenceSet} {table : ModuleTable} {program : Program} {file : File}
  {options : CompileOptions} {unitName : String} {source : SourceUnit}
  {result : CompilationResult} {entry : EntryPoint}

/-- If no diagnostic is reported, no error has been found. -/
theorem quiet_of_reportable {draft : Draft}
    (none : Compilation.reportable options draft.findings.reverse = []) : draft.Quiet := by
  intro finding inside error
  -- an error is shown whether or not warnings are raised to errors
  have kept : (if options.warningsAsErrors then finding.escalate else finding).isReportable = true
      := by
    split
    · rw [Diagnostic.escalate, if_neg (by rw [error]; exact nofun), Diagnostic.isReportable, error]
      rfl
    · rw [Diagnostic.isReportable, error]
      rfl
  let raise (found : Diagnostic Span) : Diagnostic Span :=
    if options.warningsAsErrors then found.escalate else found
  have raised : raise finding ∈ draft.findings.reverse.map raise :=
    List.mem_map_of_mem (List.mem_reverse.mpr inside)
  have member : raise finding ∈ Compilation.reportable options draft.findings.reverse :=
    List.mem_filter.mpr ⟨raised, kept⟩
  rw [none] at member
  exact absurd member List.not_mem_nil

/-- If no diagnostic of a unit is reported, no error has been found in it. -/
theorem quiet_of_unitDiagnostics {kind : OutputKind}
    (none : Compilation.unitDiagnostics options source
      (compileUnit references kind unitName file) = []) :
    (compileFile references kind file .empty).2.Quiet := by
  have length := congrArg List.length none
  rw [Compilation.unitDiagnostics, Diagnostic.inOrder, List.length_mergeSort,
    List.length_map] at length
  exact quiet_of_reportable (List.eq_nil_of_length_eq_zero length)

/-- A compilation says what is wrong with a unit, or has found no error in it, and the image has
passed the check. -/
theorem outcome_of_compile
    (compiled : Compilation.compile options unitName source file references = .ok result) :
    let unit := compileUnit references options.kind unitName file
    result = .failed unitName (Compilation.unitDiagnostics options source unit) ∨
      ((compileFile references options.kind file .empty).2.Quiet ∧
        unit.image.verify = .ok () ∧ result = .succeeded unitName unit.image unit.entry) := by
  simp only [Compilation.compile] at compiled
  split at compiled
  · next none =>
      split at compiled
      · exact absurd compiled nofun
      · next passed =>
          exact .inr ⟨quiet_of_unitDiagnostics none, passed, (Except.ok.inj compiled).symm⟩
  · exact .inl (Except.ok.inj compiled).symm

/-- A compilation that gives an entry has found no error, and its image has passed the check. -/
theorem quiet_of_compile
    (compiled : Compilation.compile options unitName source file references = .ok result)
    (starts : result.entry = some entry) :
    (compileFile references options.kind file .empty).2.Quiet ∧
      (compileUnit references options.kind unitName file).image.verify = .ok () ∧
      (compileUnit references options.kind unitName file).entry = some entry := by
  obtain rfl | ⟨quiet, passed, rfl⟩ := outcome_of_compile compiled
  · exact absurd starts nofun
  · exact ⟨quiet, passed, starts⟩

/-- A program that has all of a draft without errors is what the file is compiled to. -/
theorem compiledFrom_of_agrees {kind : OutputKind} (proper : references.IsProper)
    (chained : file.isChained = true)
    (agrees : Draft.Agrees program references [] (compileFile references kind file .empty).2)
    (same : program.image.types = (compileFile references kind file .empty).1.1.toArray)
    (sameRoutines : program.image.routines = (compileFile references kind file .empty).2.routines) :
    CompiledFrom program references file := by
  let types := typesOf references file
  let drafted := (declare references file .empty).2
  obtain ⟨definitions, notes⟩ := notes_compileFile references kind file
  have agrees' := agrees.earlier notes.extends'.fills
  have quiet : drafted.Quiet := by
    have fills : drafted.Fills _ (defineTypes references types 0 types drafted).2 :=
      fills_defineTypes types 0 drafted
    obtain ⟨added, findings⟩ := fills.findings
    exact fun finding inside ↦ agrees'.quiet finding (findings ▸ List.mem_append_right added inside)
  have declared : Declared types drafted := declared_of_quiet chained quiet
  have proper' : AreProper references types := areProper_of_declared proper declared
  obtain ⟨length, added, each⟩ := typesCode_of_agrees proper' types 0 drafted rfl
    declared.reserved declared.lambdas agrees'
  have code : TypesCode program references types := by
    refine ⟨by rw [same, definitions, List.size_toArray, length], ?_⟩
    intro owner info found
    obtain ⟨definition, here, type⟩ := each found
    rw [Nat.zero_add] at type
    exact ⟨definition, by rw [same, definitions, List.getElem?_toArray]; exact here, type⟩
  refine ⟨code, fun index inside ↦ ?_, proper', ⟨_, declared⟩⟩
  -- a routine has been reserved for a function, or added for fields or a lambda
  by_cases reserved : index < drafted.routines.size
  · obtain ⟨info, listed, taken⟩ :=
      List.mem_flatMap.mp (declared.mem_routinesOf declared.reserved.older reserved)
    obtain ⟨method, member, rfl⟩ := List.mem_map.mp taken
    obtain ⟨owner, here⟩ := List.getElem?_of_mem listed
    obtain ⟨_, -, type⟩ := code.type here
    exact .method here member rfl (type.method method member)
  · rw [sameRoutines, notes.routines] at inside
    exact added index (Nat.le_of_not_lt reserved) inside

/-- A compilation that succeeds has found no error. -/
theorem quiet_of_success
    (compiled : Compilation.compile options unitName source file references = .ok result)
    (success : result.success = true) :
    (compileFile references options.kind file .empty).2.Quiet := by
  obtain rfl | ⟨quiet, -, -⟩ := outcome_of_compile compiled
  · exact absurd success nofun
  · exact quiet

/-- What a file without errors is compiled to is its program, once it is linked. -/
theorem compiledFrom_of_link {kind : OutputKind} (proper : references.IsProper)
    (offers : table.Offers references) (parsed : Syntax.parse source = .ok file)
    (quiet : (compileFile references kind file .empty).2.Quiet)
    (linked : Session.link table (compileUnit references kind unitName file).image = .ok program) :
    CompiledFrom program references file := by
  obtain ⟨same, -⟩ := Session.link_image linked
  exact compiledFrom_of_agrees proper (Syntax.isChained_of_parse parsed)
    (agrees_of_link quiet rfl rfl offers linked) (by rw [same]; rfl) (by rw [same]; rfl)

/-- What is compiled from a source text and linked against the host functions that it was compiled
against is the program of its file. -/
theorem accepted_of_compile (proper : references.IsProper) (offers : table.Offers references)
    (parsed : Syntax.parse source = .ok file)
    (compiled : Compilation.compile options unitName source file references = .ok result)
    (starts : result.entry = some entry)
    (linked : Session.link table (compileUnit references options.kind unitName file).image
      = .ok program) :
    ∃ owner method, Accepted program references file entry owner method := by
  obtain ⟨quiet, passed, chosen⟩ := quiet_of_compile compiled starts
  obtain ⟨same, bound⟩ := Session.link_image linked
  have unit := compiledFrom_of_link proper offers parsed quiet linked
  -- a library has no entry to start with
  cases kind : options.kind with
  | library =>
      rw [kind] at chosen
      exact absurd chosen nofun
  | executable =>
      rw [kind] at passed chosen same
      let types := typesOf references file
      let defined := defineTypes references types 0 types (declare references file .empty).2
      have selected : ((selectEntry types defined.2).1).map Prod.fst = some entry := chosen
      rw [Option.map_eq_some_iff] at selected
      obtain ⟨⟨_, routine⟩, selected, rfl⟩ := selected
      obtain ⟨info, method, only, signature, rfl, rfl⟩ := candidate_of_selectEntry selected
      obtain ⟨-, inside, -⟩ :=
        mem_entryCandidates.mp (only ▸ List.mem_singleton_self (info, method))
      obtain ⟨_, declared⟩ := unit.declared
      obtain ⟨owner, here, found⟩ := findEntry_of_candidate unit.code.declares declared only
      refine ⟨owner, method, unit, ?_, ⟨info, here, inside⟩, found, rfl, signature,
        Bytecode.Image.verified_of_verify (same ▸ passed), ?_⟩
      · rw [entryMethod?, only]
        simp only [typeNamed_of_distinct declared.names here, Option.map_some]
      · rw [bound, same, kind]

/-- A program is compiled from a source text with some options, starts with an entry, and is linked
against the host functions that it was compiled against. -/
structure Built (references : ReferenceSet) (table : ModuleTable) (source : SourceUnit) (file : File)
    (entry : EntryPoint) (program : Program) : Prop where
  proper : references.IsProper
  offers : table.Offers references
  parsed : Syntax.parse source = .ok file
  linked : ∃ options unitName result,
    Compilation.compile options unitName source file references = .ok result ∧
      result.entry = some entry ∧
      Session.link table (compileUnit references options.kind unitName file).image = .ok program

/-- A program is compiled from a source text with some options, as a library or with an entry, and
is linked against the host functions that it was compiled against. -/
structure LinkedFrom (references : ReferenceSet) (table : ModuleTable) (source : SourceUnit)
    (file : File) (program : Program) : Prop where
  proper : references.IsProper
  offers : table.Offers references
  parsed : Syntax.parse source = .ok file
  linked : ∃ options unitName result,
    Compilation.compile options unitName source file references = .ok result ∧
      result.success = true ∧
      Session.link table (compileUnit references options.kind unitName file).image = .ok program

/-- What a source text is compiled to without an error is the program of its file. -/
theorem LinkedFrom.compiledFrom (linked : LinkedFrom references table source file program) :
    CompiledFrom program references file := by
  obtain ⟨_, _, _, compiled, success, linked'⟩ := linked.linked
  exact compiledFrom_of_link linked.proper linked.offers linked.parsed
    (quiet_of_success compiled success) linked'

/-- A program that starts with an entry is compiled without an error. -/
theorem Built.linkedFrom (built : Built references table source file entry program) :
    LinkedFrom references table source file program := by
  obtain ⟨options, unitName, result, compiled, starts, linked⟩ := built.linked
  refine ⟨built.proper, built.offers, built.parsed, options, unitName, result, compiled, ?_, linked⟩
  obtain rfl | ⟨-, -, rfl⟩ := outcome_of_compile compiled
  · exact absurd starts nofun
  · rfl

/-- Compile a source text and link it against a table. -/
def build? (references : ReferenceSet) (table : ModuleTable) (source : SourceUnit) :
    Option (File × EntryPoint × Program) := do
  let file ← (Syntax.parse source).toOption
  let result ← (Compilation.compile {} "unit" source file references).toOption
  let entry ← result.entry
  let program ← (Session.link table (compileUnit references .executable "unit" file).image).toOption
  pure (file, entry, program)

theorem eq_ok_of_toOption {Error Value : Type} {outcome : Except Error Value} {value : Value}
    (same : outcome.toOption = some value) : outcome = .ok value := by
  cases outcome with
  | error => exact absurd same nofun
  | ok => exact congrArg Except.ok (Option.some.inj same)

theorem built_of_build? (proper : references.IsProper) (offers : table.Offers references)
    (built : build? references table source = some (file, entry, program)) :
    Built references table source file entry program := by
  simp only [build?, Option.bind_eq_bind, Option.bind_eq_some_iff, Option.pure_def,
    Option.some.injEq, Prod.mk.injEq] at built
  obtain ⟨_, parsed, result, compiled, _, starts, _, linked, rfl, rfl, rfl⟩ := built
  exact ⟨proper, offers, eq_ok_of_toOption parsed, {}, "unit", result, eq_ok_of_toOption compiled,
    starts, eq_ok_of_toOption linked⟩

/-- A program that writes each of its arguments on a line of its own. -/
def echoSource : SourceUnit :=
  ⟨"type P { static fn main(args: [str]) { for a in args { io::print_line(a); } } }", .v2⟩

theorem built_echo : ∃ file entry program,
    Built (Resolver.ofTable .standard []) .standard echoSource file entry program := by
  have compiles : (build? (Resolver.ofTable .standard []) .standard echoSource).isSome := by
    decide +kernel
  obtain ⟨⟨file, entry, program⟩, built⟩ := Option.isSome_iff_exists.mp compiles
  refine ⟨file, entry, program, built_of_build? ?_ ?_ built⟩
  · exact ReferenceSet.isProper_of_forall (by decide +kernel)
  · exact (Resolver.drawnFrom_ofTable .standard []).offers

/-- A source text that compiles to what passes a check is built with the standard modules. -/
theorem exists_built_of_any {source : SourceUnit} {check : File × EntryPoint × Program → Bool}
    (passes : (build? (Resolver.ofTable .standard []) .standard source).any check = true) :
    ∃ file entry program,
      Built (Resolver.ofTable .standard []) .standard source file entry program ∧
        check (file, entry, program) = true := by
  obtain ⟨⟨file, entry, program⟩, built, passes⟩ := (Option.any_eq_true _ _).mp passes
  have proper : (Resolver.ofTable .standard []).IsProper :=
    ReferenceSet.isProper_of_forall (by decide +kernel)
  exact ⟨file, entry, program,
    built_of_build? proper (Resolver.drawnFrom_ofTable .standard []).offers built, passes⟩

theorem Built.accepted (built : Built references table source file entry program) :
    ∃ owner method, Accepted program references file entry owner method := by
  obtain ⟨_, _, _, compiled, starts, linked⟩ := built.linked
  exact accepted_of_compile built.proper built.offers built.parsed compiled starts linked

end Compile

end GuestScript
