import GuestScript.Proofs.Bytecode.RoundTrip
import GuestScript.Proofs.Compile.UnitCalls
import GuestScript.Proofs.Session.PipelineRuns

/-!
# What compiles can be linked

A source is compiled against modules of a table, and its image is loaded over a table. Over the same
table it is always loaded, with each import bound to the function that its calls were checked against.
Over another one, the first import that the table lacks is reported. This is where the resolver, the
compiler, the wire form and the linker have to agree on names and versions.
-/

namespace GuestScript

open Bytecode (Bytes Fit Image Import Routine RoutineIndex)

variable {table : ModuleTable} {references : ReferenceSet}

namespace Session

open Compile (Makes hostOps)
open Meaning (RoutineCalls typesOf)
open Syntax (File)

variable {imported : Import} {image : Image} {host : Host}

/-! ## Loading -/

/-- A verified image comes back from its bytes, so all that is left is to bind its imports. -/
theorem prepare_encode (fits : Fit image.numbers) (passed : image.verify = .ok ()) :
    prepare table image.encode = link table image := by
  have some : image.encode.isEmpty = false := rfl
  rw [prepare, some, Bytecode.decode_encode fits passed]
  rfl

/-- Loading a verified image fails at the first import that the host lacks, if it lacks one. -/
theorem Host.load_encode_eq_unresolved_iff (fits : Fit image.numbers)
    (passed : image.verify = .ok ()) :
    (host.load image.encode).1 = .error (.unresolvedImport imported) ↔
      host.table.FirstLacks image.imports.toList imported := by
  have prepared : prepare host.table image.encode = link host.table image :=
    prepare_encode fits passed
  cases linked : link host.table image with
  | error fault =>
      rw [load_of_refused (prepared.trans linked)]
      obtain ⟨other, first, rfl⟩ := link_eq_error_iff.mp linked
      constructor
      · intro same
        obtain rfl := LoadFault.unresolvedImport.inj (Except.error.inj same)
        exact first
      · intro first
        have failed := link_eq_error_iff.mpr ⟨imported, first, rfl⟩
        rw [Except.error.inj (linked.symm.trans failed)]
  | ok program =>
      rw [load_of_prepared (prepared.trans linked)]
      -- a name that is taken is a fault too, but another one
      refine iff_of_false (fun failed ↦ ?_) fun first ↦ ?_
      · simp only at failed
        split at failed
        · exact absurd (Except.error.inj failed) nofun
        · exact absurd failed nofun
      · exact absurd (linked.symm.trans (link_eq_error_iff.mpr ⟨imported, first, rfl⟩)) nofun

/-- A host loads a verified image whose imports it offers, if the name it draws is not live. -/
theorem Host.load_encode_of_implements (fits : Fit image.numbers) (passed : image.verify = .ok ())
    (offers : ∀ imported ∈ image.imports, ∃ function, host.table.Implements imported function)
    (free : (host.drawId .context).1 ∉ host.live) :
    ∃ loaded context, host.load image.encode = (.ok host.contexts.length, loaded) ∧
      loaded.context? host.contexts.length = some context ∧
      LinkedOver host.table image context.program := by
  obtain ⟨program, linked, bound⟩ := link_of_implements offers
  let context : Context := ⟨(host.drawId .context).1, program, true, 1, 0⟩
  have accepted : host.load image.encode
      = (.ok host.contexts.length, (host.drawId .context).2.sweep.enroll context) := by
    rw [load_of_prepared ((prepare_encode fits passed).trans linked)]
    exact if_neg free
  exact ⟨_, context, accepted, context?_enroll _ _, bound⟩

/-! ## Compiled sources -/

/-- A function that may be used is offered by the table that it is drawn from. -/
theorem implements_of_exports (drawn : references.DrawnFrom table)
    (exported : references.Exports imported) : ∃ function, table.Implements imported function := by
  obtain ⟨binding, function, known, member, major, minor⟩ := exported
  refine ⟨function, binding, drawn.lookup? known, ?_, member⟩
  rw [major, minor, isServedBy_iff]
  exact ⟨rfl, UInt16.lt_irrefl _⟩

/-- The function that a call was checked against is the one that a table offers for its import. -/
theorem implements_of_suits (drawn : references.DrawnFrom table) {call : Meaning.HostCall}
    (suits : call.Suits references) : table.Implements call.imported call.function :=
  ⟨call.binding, drawn.lookup? suits.known, isServedBy_iff.mpr ⟨rfl, UInt16.lt_irrefl _⟩, suits.member⟩

/-- The image of a file imports each function once, and calls the functions of a table that its text
calls, with as many arguments as they have parameters. A host with this table loads the bytes, unless
the name it draws is live, and one with another table reports the first import that it lacks. -/
structure Links (table : ModuleTable) (references : ReferenceSet) (file : File) (image : Image)
    (bytes : Bytes) : Prop where
  once : (image.imports.toList.map Import.target).Nodup
  calls : ∀ {index : RoutineIndex} {routine : Routine}, image.routines[index]? = some routine →
    ∃ calls, RoutineCalls references (typesOf references file) index calls ∧
      Makes image.imports (hostOps routine.code.toList) calls ∧
      ∀ call ∈ calls, call.Suits references ∧ table.Implements call.imported call.function
  loads : ∀ host : Host, host.table = table → (host.drawId .context).1 ∉ host.live →
    ∃ loaded context, host.load bytes = (.ok host.contexts.length, loaded) ∧
      loaded.context? host.contexts.length = some context ∧
      LinkedOver table image context.program
  unresolved : ∀ host : Host,
    (∃ imported, (host.load bytes).1 = .error (.unresolvedImport imported)) ↔
      ∃ imported ∈ image.imports, host.table.Lacks imported
  first : ∀ {host : Host} {imported : Import},
    (host.load bytes).1 = .error (.unresolvedImport imported) →
    host.table.FirstLacks image.imports.toList imported

variable {options : CompileOptions} {unitName : String} {source : SourceUnit} {file : File}
  {result : CompilationResult}

/-- What compiles links. -/
theorem links_of_compile (drawn : references.DrawnFrom table) (parsed : Syntax.parse source = .ok file)
    (compiled : Compilation.compile options unitName source file references = .ok result)
    (success : result.success = true)
    (fits : Fit (Compile.compileUnit references options.kind unitName file).image.numbers) :
    Links table references file (Compile.compileUnit references options.kind unitName file).image
      result.image := by
  obtain rfl | ⟨quiet, passed, rfl⟩ := Compile.outcome_of_compile compiled
  · exact absurd success Bool.false_ne_true
  obtain ⟨imports, calls⟩ := Compile.routineCalls_of_quiet unitName
    (Syntax.isChained_of_parse parsed) quiet
  refine
    { once := imports.once
      calls := fun found ↦ ?_
      loads := fun host same free ↦ ?_
      unresolved := fun host ↦ ?_
      first := (Host.load_encode_eq_unresolved_iff fits passed).mp }
  · obtain ⟨listed, own, made, suited⟩ := calls found
    exact ⟨listed, own, made, fun call inside ↦
      ⟨suited call inside, implements_of_suits drawn (suited call inside)⟩⟩
  · subst same
    refine Host.load_encode_of_implements fits passed (fun imported inside ↦ ?_) free
    exact implements_of_exports drawn (imports.exported imported inside)
  · simp only [CompilationResult.succeeded, Host.load_encode_eq_unresolved_iff fits passed,
      ModuleTable.exists_firstLacks_iff, Array.mem_toList_iff]

/-! ## Runs -/

/-- A run of an image that can be loaded does not end with a fault of loading. -/
theorem Host.runImage_of_load {after loaded : Host} {key : ContextKey} {fuel : Nat}
    {config : RunConfig} {outcome : RunOutcome} {fault : LoadFault}
    (accepted : host.load result.image = (.ok key, loaded))
    (ran : host.runImage fuel config result = some (outcome, after)) :
    outcome ≠ .error (.load fault) := by
  rw [runImage, accepted] at ran
  simp only at ran
  split at ran
  · cases ran
  · next answer stages invoked answered =>
      cases answer with
      | ok returned =>
          obtain ⟨rfl, -⟩ := Prod.mk.inj (Option.some.inj ran)
          rintro ⟨⟩
      | error error =>
          obtain ⟨rfl, -⟩ := Prod.mk.inj (Option.some.inj ran)
          rintro ⟨⟩

/-- What is compiled against modules of a table, as the names in a source are resolved in a run, links.
Runs on a host with this table never end with a fault of loading, unless the name drawn for the
context is live. Positions and lengths are such as eight bytes hold. -/
structure LinksItsSources (table : ModuleTable) : Prop where
  drawn : ∀ imports, (Resolver.ofTable table imports).DrawnFrom table
  links : ∀ {references : ReferenceSet} {options : CompileOptions} {unitName : String}
    {source : SourceUnit} {file : File} {result : CompilationResult},
    references.DrawnFrom table → Syntax.parse source = .ok file →
    Compilation.compile options unitName source file references = .ok result →
    result.success = true →
    Fit (Compile.compileUnit references options.kind unitName file).image.numbers →
    Links table references file (Compile.compileUnit references options.kind unitName file).image
      result.image
  runs : ∀ {host after : Host} {fuel : Nat} {config : RunConfig} {source : SourceUnit}
    {outcome : RunOutcome} {fault : LoadFault}, host.table = table →
    (∀ file, Syntax.parse source = .ok file →
      Fit (Compile.compileUnit (Resolver.ofTable table file.importNames) config.compile.kind
        (host.drawId .unit).1 file).image.numbers) →
    ((host.drawId .unit).2.drawId .context).1 ∉ host.live →
    host.runWithTable fuel config source = some (outcome, after) → outcome ≠ .error (.load fault)

/-- Every table links what compiles against it. -/
theorem linksItsSources (table : ModuleTable) : LinksItsSources table := by
  refine ⟨Resolver.drawnFrom_ofTable table, links_of_compile, ?_⟩
  intro host after fuel config source outcome fault same fits free ran
  subst same
  unfold Host.runWithTable Host.run at ran
  simp only at ran
  cases compiled : Compilation.compileSource config.compile (host.drawId .unit).1 source
      (Resolver.ofTable host.table) with
  | error refusal =>
      rw [compiled] at ran
      obtain ⟨rfl, -⟩ := Prod.mk.inj (Option.some.inj ran)
      exact nofun
  | ok result =>
      rw [compiled] at ran
      simp only at ran
      split at ran
      · next success =>
          obtain ⟨file, parsed, compiled⟩ := parsed_of_success compiled success
          have links := links_of_compile (Resolver.drawnFrom_ofTable host.table file.importNames)
            parsed compiled success (fits file parsed)
          obtain ⟨_, _, accepted, -⟩ := links.loads (host.drawId .unit).2 rfl free
          exact Host.runImage_of_load accepted ran
      · -- what does not compile is not loaded
        obtain ⟨rfl, -⟩ := Prod.mk.inj (Option.some.inj ran)
        exact nofun

/-- Against the standard table a source compiles to an image that imports these functions, with sizes
that the wire form has room for. -/
def importsOnly (imports : Array Import) (unitName : String) (source : SourceUnit) (file : File) :
    Bool :=
  let references := Resolver.ofTable .standard file.importNames
  let image := (Compile.compileUnit references .executable unitName file).image
  match Compilation.compile {} unitName source file references with
  | .ok result => result.success && image.imports = imports && Fit image.numbers
  | .error _ => false

/-- The program that writes its arguments imports one function. The standard table links it, so a run
is not stopped by a fault of loading, and the empty table lacks this function. -/
theorem linksItsSources_echo : ∃ file result,
    Compilation.compile {} "c" Compile.echoSource file (Resolver.ofTable .standard file.importNames)
        = .ok result ∧
      (∃ loaded, (Host.fresh .standard (.fixed "c") .empty).load result.image = (.ok 0, loaded)) ∧
      ((Host.fresh .empty (.fixed "c") .empty).load result.image).1
        = .error (.unresolvedImport ⟨"io", 1, 0, "print_line"⟩) ∧
      ∀ {fuel : Nat} {outcome : RunOutcome} {after : Host} {fault : LoadFault},
        (Host.fresh .standard (.fixed "c") .empty).runWithTable fuel {} Compile.echoSource
          = some (outcome, after) → outcome ≠ .error (.load fault) := by
  have checked : (Syntax.parse Compile.echoSource).toOption.any
      (importsOnly #[⟨"io", 1, 0, "print_line"⟩] "c" Compile.echoSource) = true := by
    decide +kernel
  obtain ⟨file, here, only⟩ := (Option.any_eq_true _ _).mp checked
  have parsed := Compile.eq_ok_of_toOption here
  unfold importsOnly at only
  simp only at only
  split at only
  · next result compiled =>
      simp only [Bool.and_eq_true, decide_eq_true_eq] at only
      obtain ⟨⟨success, imports⟩, fits⟩ := only
      have free : "c" ∉ (Host.fresh .standard (.fixed "c") .empty).live := by
        rw [Host.live_fresh]
        exact List.not_mem_nil
      have linking := linksItsSources .standard
      have links := linking.links (linking.drawn _) parsed compiled success fits
      obtain ⟨loaded, _, accepted, -⟩ :=
        links.loads (.fresh .standard (.fixed "c") .empty) rfl free
      refine ⟨file, result, compiled, ⟨loaded, accepted⟩, ?_, ?_⟩
      · have lacks : ModuleTable.empty.Lacks ⟨"io", 1, 0, "print_line"⟩ := .module rfl
        obtain ⟨imported, refused⟩ := (links.unresolved (.fresh .empty (.fixed "c") .empty)).mpr
          ⟨_, imports ▸ Array.mem_singleton_self _, lacks⟩
        have first := links.first refused
        rw [imports] at first
        rw [refused, (ModuleTable.firstLacks_cons_of_lacks lacks).mp first]
      · intro fuel outcome after fault ran
        refine linking.runs rfl (fun other parsed' ↦ ?_) free ran
        obtain rfl := Except.ok.inj (parsed.symm.trans parsed')
        exact fits
  · exact absurd only Bool.false_ne_true

end Session

end GuestScript
