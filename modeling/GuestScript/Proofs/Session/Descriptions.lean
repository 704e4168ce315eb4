import GuestScript.Proofs.Session.Links

/-!
# Described entries

A compilation describes the entry of its image by names, and the image itself notes the position of
the routine to start with. `DescribesEntry` says that the two are the same: whoever looks for the
entry by its names finds the routine that the image starts with, and calls it with as many values as
it takes. A library has neither.
-/

namespace GuestScript

/-- The number of values that an entry is called with: the array of arguments, behind a new object if
the entry is called on one. -/
def Compile.EntryBinding.count : Compile.EntryBinding → Nat
  | .static => 1
  | .onInstance => 2

namespace Session

open Bytecode (Bytes Fit Image RoutineIndex TypeIndex)
open Compile
open Machine (Console Frame Program State Value step)

variable {image : Image} {program : Program} {entry : EntryPoint} {type : TypeIndex}
  {routine : RoutineIndex} {arguments : List String} {console : Console} {start : State}

/-- An image starts with the routine that is found by the names of an entry. It is declared by the
type of the entry, and takes what an entry of its binding is called with. -/
structure StartsWith (image : Image) (entry : EntryPoint) (type : TypeIndex)
    (routine : RoutineIndex) : Prop where
  noted : image.entry = some routine
  found : findEntry image entry = .ok (type, routine)
  declared : ∃ definition, image.types[type]? = some definition ∧
    definition.fullName = entry.fullTypeName ∧ routine ∈ definition.methods
  takes : ∃ compiled, image.routines[routine]? = some compiled ∧ compiled.owner = some type ∧
    compiled.arity = entry.binding.count

/-- A call with as many values as the routine takes enters the routine if no call is active. -/
theorem step_call_of_arity {compiled : Bytecode.Routine} {values : List Value}
    {world : Machine.World} (found : program.image.routines[routine]? = some compiled)
    (count : values.length = compiled.arity) :
    step program ⟨.call routine values, [], world⟩
      = .running ⟨.run (.enter compiled values), [], world⟩ := by
  have shallow : ¬ Machine.maxCallDepth ≤ Machine.callDepth [] := by decide
  simp only [step, Machine.startCall, found, ne_eq, count, not_true_eq_false, if_false,
    if_neg shallow]

/-- A construction of a type that exists starts. -/
theorem step_construct_of_type {definition : Bytecode.TypeDefinition} {world : Machine.World}
    (found : program.image.types[type]? = some definition) :
    ∃ next, step program ⟨.construct type, [], world⟩ = .running next := by
  simp only [step, Machine.startConstruction, found]
  cases definition.initializer <;> exact ⟨_, rfl⟩

/-- The machine takes a step from each state in which the entry of an image is started. -/
theorem StartsWith.step_start (starts : StartsWith program.image entry type routine)
    (run : EntryRun program type routine arguments console entry.binding start) :
    ∃ next, step program start = .running next := by
  obtain ⟨definition, here, -⟩ := starts.declared
  obtain ⟨compiled, found, -, arity⟩ := starts.takes
  generalize entry.binding = binding at run arity
  cases run with
  | static => exact ⟨_, step_call_of_arity found arity.symm⟩
  | construct => exact step_construct_of_type here
  | method _ => exact ⟨_, step_call_of_arity found arity.symm⟩

/-- A program that is made of bytes has the image that is decoded from them. -/
theorem image_of_prepare {table : ModuleTable} {bytes : Bytes}
    (decoded : Image.decode bytes = .ok image) (prepared : prepare table bytes = .ok program) :
    program.image = image := by
  rw [prepare] at prepared
  split at prepared
  · cases prepared
  · rw [decoded] at prepared
    exact (link_image prepared).1

/-- An invocation of an entry that is found does not end with an error of the entry. -/
theorem Host.invoke_ne_entry {host after : Host} {key : ContextKey} {context : Context} {fuel : Nat}
    {error : EntryError} (here : host.context? key = some context)
    (found : findEntry context.program.image entry = .ok (type, routine)) :
    host.invoke fuel key entry arguments ≠ some (.error (.entry error), after) := by
  intro failed
  simp only [invoke, here, found] at failed
  split at failed
  · split at failed
    · cases failed
    · split at failed <;> cases failed
  · cases failed

/-- What a compilation says about the entry of its image. For an executable the image starts with the
routine that is described. In every context that is made of the image, an invocation finds it, and
the machine does not fault where it starts to construct the object or to call the routine. -/
structure DescribesEntry (kind : OutputKind) (result : CompilationResult) : Prop where
  library : kind = .library →
    result.entry = none ∧ ∃ image, Image.decode result.image = .ok image ∧ image.entry = none
  executable : kind = .executable → ∃ entry image type routine,
    result.entry = some entry ∧ Image.decode result.image = .ok image ∧
      StartsWith image entry type routine
  resolves : ∀ {host after : Host} {key : ContextKey} {context : Context} {entry : EntryPoint}
    {fuel : Nat} {arguments : List String} {error : EntryError},
    result.entry = some entry → host.context? key = some context →
    prepare host.table result.image = .ok context.program →
    host.invoke fuel key entry arguments ≠ some (.error (.entry error), after)
  enters : ∀ {table : ModuleTable} {program : Program} {entry : EntryPoint} {type : TypeIndex}
    {routine : RoutineIndex} {arguments : List String} {console : Console} {start : State},
    result.entry = some entry → prepare table result.image = .ok program →
    findEntry program.image entry = .ok (type, routine) →
    EntryRun program type routine arguments console entry.binding start →
    ∃ next, step program start = .running next

variable {references : ReferenceSet} {file : Syntax.File} {kind : OutputKind} {unitName : String}

/-- An entry that is selected in a file without errors is the one that its image starts with. -/
theorem startsWith_of_quiet (chained : file.isChained = true)
    (quiet : (compileFile references kind file .empty).2.Quiet)
    (chosen : (compileFile references kind file .empty).1.2 = some (entry, routine)) :
    ∃ type, StartsWith (compileUnit references kind unitName file).image entry type routine := by
  cases kind with
  | library => exact absurd chosen nofun
  | executable =>
      obtain ⟨_, declared, declares⟩ := declares_of_quiet unitName chained quiet
      have noted : (compileUnit references .executable unitName file).image.entry = some routine :=
        congrArg (Option.map Prod.snd) chosen
      obtain ⟨info, method, only, signature, rfl, rfl⟩ := candidate_of_selectEntry chosen
      obtain ⟨owner, here, found⟩ := findEntry_of_candidate declares declared only
      obtain ⟨-, inside, -⟩ :=
        mem_entryCandidates.mp (only ▸ List.mem_singleton_self (info, method))
      obtain ⟨definition, listed, name, methods⟩ := declares.type here
      obtain ⟨_, _, compiled⟩ := declares.method here inside
      simp only [hasEntrySignature, Bool.and_eq_true, decide_eq_true_eq] at signature
      refine ⟨owner, noted, found, ⟨definition, listed, name, ?_⟩, _, compiled, rfl, ?_⟩
      · rw [methods]
        exact List.mem_map_of_mem inside
      · change method.parameters.length + (if method.declaration.isStatic then 0 else 1)
          = EntryBinding.count (if method.isStatic then .static else .onInstance)
        rw [signature.1, MethodInfo.isStatic]
        split <;> rfl

/-- A source that compiles has its entry described, and a library has none. Positions and lengths are
such as eight bytes hold. -/
theorem describesEntry_of_compileSource {options : CompileOptions} {unitName : String}
    {source : SourceUnit} {resolver : Resolver} {result : CompilationResult}
    (compiled : Compilation.compileSource options unitName source resolver = .ok result)
    (success : result.success = true)
    (fits : ∀ file, Syntax.parse source = .ok file →
      Fit (compileUnit (resolver file.importNames) options.kind unitName file).image.numbers) :
    DescribesEntry options.kind result := by
  have described := isSome_entry_of_success compiled success
  obtain ⟨file, parsed, compiled⟩ := parsed_of_success compiled success
  obtain rfl | ⟨quiet, passed, rfl⟩ := outcome_of_compile compiled
  · exact absurd success Bool.false_ne_true
  let unit := compileUnit (resolver file.importNames) options.kind unitName file
  have decoded : Image.decode unit.image.encode = .ok unit.image :=
    Bytecode.decode_encode (fits file parsed) passed
  have starts {entry : EntryPoint} (chosen : unit.entry = some entry) :
      ∃ type routine, StartsWith unit.image entry type routine := by
    obtain ⟨⟨_, routine⟩, selected, rfl⟩ := Option.map_eq_some_iff.mp chosen
    obtain ⟨type, starts⟩ := startsWith_of_quiet (Syntax.isChained_of_parse parsed) quiet selected
    exact ⟨type, routine, starts⟩
  refine
    { library := fun kind ↦ ?_
      executable := fun kind ↦ ?_
      resolves := fun chosen here prepared ↦ ?_
      enters := fun chosen prepared found run ↦ ?_ }
  · have none : (compileFile (resolver file.importNames) options.kind file .empty).1.2 = none := by
      rw [kind]
      rfl
    exact ⟨congrArg (Option.map Prod.fst) none, _, decoded, congrArg (Option.map Prod.snd) none⟩
  · obtain ⟨entry, chosen⟩ := Option.isSome_iff_exists.mp (described.mpr kind)
    obtain ⟨type, routine, starts⟩ := starts chosen
    exact ⟨entry, _, type, routine, chosen, decoded, starts⟩
  · obtain ⟨_, _, starts⟩ := starts chosen
    rw [← image_of_prepare decoded prepared] at starts
    exact Host.invoke_ne_entry here starts.found
  · obtain ⟨_, _, starts⟩ := starts chosen
    rw [← image_of_prepare decoded prepared] at starts
    obtain ⟨rfl, rfl⟩ := Prod.mk.inj (Except.ok.inj (found.symm.trans starts.found))
    exact starts.step_start run

/-- The program that writes its arguments has its entry described as an executable, and none as a
library. -/
theorem describesEntry_echo : ∃ executable library,
    Compilation.compileSource {} "c" echoSource (Resolver.ofTable .standard) = .ok executable ∧
      Compilation.compileSource { kind := .library } "c" echoSource (Resolver.ofTable .standard)
        = .ok library ∧
      DescribesEntry .executable executable ∧ DescribesEntry .library library := by
  have checked : (Syntax.parse echoSource).toOption.any (fun file ↦
      [OutputKind.executable, .library].all fun kind ↦
        let references := Resolver.ofTable .standard file.importNames
        Fit (compileUnit references kind "c" file).image.numbers &&
          (Compilation.compile { kind } "c" echoSource file references).toOption.any
            CompilationResult.success) = true := by
    decide +kernel
  obtain ⟨file, here, each⟩ := (Option.any_eq_true _ _).mp checked
  have parsed : Syntax.parse echoSource = .ok file := eq_ok_of_toOption here
  have describes (kind : OutputKind) : ∃ result, Compilation.compileSource { kind } "c" echoSource
      (Resolver.ofTable .standard) = .ok result ∧ DescribesEntry kind result := by
    have both := List.all_eq_true.mp each kind (by cases kind <;> simp)
    simp only [Bool.and_eq_true, decide_eq_true_eq] at both
    obtain ⟨result, compiled, success⟩ := (Option.any_eq_true _ _).mp both.2
    have compiled' : Compilation.compileSource { kind } "c" echoSource (Resolver.ofTable .standard)
        = .ok result := by
      unfold Compilation.compileSource
      rw [parsed]
      exact eq_ok_of_toOption compiled
    refine ⟨result, compiled', describesEntry_of_compileSource compiled' success ?_⟩
    intro other same
    obtain rfl := Except.ok.inj (parsed.symm.trans same)
    exact both.1
  obtain ⟨executable, compiled, described⟩ := describes .executable
  obtain ⟨library, compiled', described'⟩ := describes .library
  exact ⟨executable, library, compiled, compiled', described, described'⟩

end Session

end GuestScript
