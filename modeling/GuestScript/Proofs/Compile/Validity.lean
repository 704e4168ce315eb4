import GuestScript.Proofs.Compile.Accepted
import GuestScript.Proofs.Compile.Balance

/-!
# Compiled images and the check

In an image that is compiled without errors, everything that is mentioned exists, and no slot is
taken that is never used. So the check can refuse such an image for one reason only, the number of
slots of a routine, and `compileSource_eq_error_iff` says when a compilation is a fault of the host.
-/

namespace GuestScript

namespace Bytecode

/-! ## The check -/

/-- A routine is right in all that the check asks for, apart from the limit of slots. -/
structure Routine.IsSound (image : Image) (routine : Routine) : Prop where
  arity : routine.arity ≤ routine.locals
  captures : ∀ captures, routine.binding = .closure captures → captures ≤ routine.arity
  owner : ∀ owner ∈ routine.owner, owner < image.types.size
  addressed : routine.locals ≤ max routine.slotsAddressed routine.arity
  code : ∀ op ∈ routine.code, op.defect? image routine = none

/-- An image is right in all that the check asks for, apart from the limit of slots. -/
structure Image.IsSound (image : Image) : Prop where
  entry : ∀ entry ∈ image.entry, entry < image.routines.size
  members : ∀ type ∈ image.types, ∀ member ∈ type.initializer.toList ++ type.methods,
    member < image.routines.size
  routines : ∀ routine ∈ image.routines, routine.IsSound image

/-- A routine takes too many slots. -/
def Routine.isTooLarge (routine : Routine) : Bool :=
  maxLocals < routine.locals

/-- An instruction finds its slot among those that its routine addresses. -/
theorem le_slotsAddressed {routine : Routine} {op : Op} (inside : op ∈ routine.code) :
    op.slotsNeeded ≤ routine.slotsAddressed := by
  have grows : (ops : List Op) → (most : Nat) →
      let reached := ops.foldl (fun most op ↦ max most op.slotsNeeded) most
      most ≤ reached ∧ ∀ op ∈ ops, op.slotsNeeded ≤ reached := by
    intro ops
    induction ops with
    | nil => exact fun most ↦ ⟨Nat.le_refl most, nofun⟩
    | cons first rest ih =>
        intro most
        obtain ⟨above, each⟩ := ih (max most first.slotsNeeded)
        exact ⟨Nat.le_trans (Nat.le_max_left _ _) above,
          List.forall_mem_cons.mpr ⟨Nat.le_trans (Nat.le_max_right _ _) above, each⟩⟩
  rw [Routine.slotsAddressed, ← Array.foldl_toList]
  exact (grows routine.code.toList 0).2 op (Array.mem_toList_iff.mpr inside)

/-- The check can complain of a sound routine that it takes too many slots, and of nothing else. -/
theorem Routine.IsSound.defect? {image : Image} {routine : Routine}
    (sound : routine.IsSound image) : routine.defect? image
      = if routine.isTooLarge then some (.tooManyLocals routine.locals) else none := by
  have arguments : routine.argumentsDefect? = none := by
    rw [Routine.argumentsDefect?, if_neg (Nat.not_lt.mpr sound.arity)]
    split
    · next captures closure =>
        exact if_neg (Nat.not_lt.mpr (sound.captures captures closure))
    · rfl
  have owner : routine.ownerDefect? image = none := by
    rw [Routine.ownerDefect?]
    split
    · next owner known => exact if_neg (Nat.not_le.mpr (sound.owner owner known))
    · rfl
  have code : routine.code.toList.findSome? (Op.defect? image routine) = none :=
    List.findSome?_eq_none_iff.mpr fun op inside ↦ sound.code op (Array.mem_toList_iff.mp inside)
  simp only [Routine.defect?, arguments, owner, code, Routine.localsDefect?, Routine.isTooLarge,
    if_neg (Nat.not_lt.mpr sound.addressed), decide_eq_true_eq, Option.orElse_eq_orElse,
    Option.orElse_eq_or, Option.none_or, Option.or_none]

/-- The check can complain of a sound image that a routine takes too many slots, and of nothing
else. -/
theorem Image.IsSound.invalid? {image : Image} (sound : image.IsSound) :
    image.invalid? = (image.routines.toList.find? Routine.isTooLarge).map fun routine ↦
      .defect routine.name (.tooManyLocals routine.locals) := by
  have entry : (image.entry.bind fun entry ↦
      if image.routines.size ≤ entry then some (Invalid.badEntry entry) else none) = none := by
    cases known : image.entry with
    | none => rfl
    | some entry => exact if_neg (Nat.not_le.mpr (sound.entry entry known))
  have types : (image.types.toList.findSome? fun type ↦
      (image.memberDefect? type).map (Invalid.defect type.fullName)) = none := by
    refine List.findSome?_eq_none_iff.mpr fun type inside ↦ Option.map_eq_none_iff.mpr ?_
    refine List.findSome?_eq_none_iff.mpr fun member listed ↦ if_neg (Nat.not_le.mpr ?_)
    exact sound.members type (Array.mem_toList_iff.mp inside) member listed
  have routines : (routines : List Routine) → (∀ routine ∈ routines, routine.IsSound image) →
      (routines.findSome? fun routine ↦ (routine.defect? image).map (Invalid.defect routine.name))
        = (routines.find? Routine.isTooLarge).map fun routine ↦
            .defect routine.name (.tooManyLocals routine.locals) := by
    intro routines each
    induction routines with
    | nil => rfl
    | cons first rest ih =>
        obtain ⟨first', rest'⟩ := List.forall_mem_cons.mp each
        rw [List.findSome?_cons, first'.defect?, List.find?_cons]
        cases first.isTooLarge with
        | true => rfl
        | false => exact ih rest'
  -- entry and types have nothing to complain of, so the first routine decides
  simp only [Image.invalid?, entry, types, Option.orElse_eq_orElse, Option.orElse_eq_or,
    Option.none_or]
  exact routines _ fun routine inside ↦ sound.routines routine (Array.mem_toList_iff.mp inside)

/-- The check refuses a sound image exactly if a routine takes too many slots, and complains of the
first that does. -/
theorem Image.IsSound.verify_eq_error_iff {image : Image} (sound : image.IsSound)
    {invalid : Invalid} :
    image.verify = .error invalid ↔
      ∃ routine, image.routines.toList.find? Routine.isTooLarge = some routine ∧
        invalid = .defect routine.name (.tooManyLocals routine.locals) := by
  rw [Image.verify, sound.invalid?]
  cases image.routines.toList.find? Routine.isTooLarge with
  | none => simp only [Option.map_none, reduceCtorEq, false_and, exists_false]
  | some routine =>
      refine ⟨fun refused ↦ ⟨routine, rfl, (Except.error.inj refused).symm⟩, ?_⟩
      rintro ⟨_, same, rfl⟩
      obtain rfl := Option.some.inj same
      rfl

end Bytecode

namespace Meaning

open Bytecode (Image Op Routine RoutineIndex Shape)
open Compile
open Machine (Program)

variable {program : Program} {references : ReferenceSet} {types : List TypeInfo}

/-! ## Routines -/

/-- What a shaped routine names exists, and its jumps stay in its code. -/
theorem defect?_of_shaped {routine : Routine} {shapes : Nat → Shape}
    (bound : program.hosts.size = program.image.imports.size)
    (shaped : routine.Shaped (Op.Links program references routine.locals) shapes)
    {op : Op} (inside : op ∈ routine.code) : op.defect? program.image routine = none := by
  obtain ⟨position, here, found⟩ := Array.mem_iff_getElem.mp inside
  obtain ⟨links, -, leads⟩ := shaped.2 (Array.getElem?_eq_some_iff.mpr ⟨here, found⟩)
  cases op with
  | load slot | store slot => exact if_neg (Nat.not_le.mpr links)
  | iterNext slot exit =>
      have inside : exit ≤ routine.code.size :=
        (leads exit _ (List.mem_cons_of_mem _ List.mem_cons_self)).1
      exact (if_neg (Nat.not_le.mpr links)).trans (if_neg (Nat.not_lt.mpr inside))
  | jump target =>
      exact if_neg (Nat.not_lt.mpr (leads target _ List.mem_cons_self).1)
  | jumpUnless target =>
      exact if_neg (Nat.not_lt.mpr (leads target _ (List.mem_cons_of_mem _ List.mem_cons_self)).1)
  | call callee count =>
      obtain ⟨_, found, -⟩ := links
      exact if_neg (Nat.not_le.mpr (Array.getElem?_eq_some_iff.mp found).1)
  | makeClosure callee count => exact if_neg (Nat.not_le.mpr links)
  | construct type => exact if_neg (Nat.not_le.mpr links)
  | callHost imported count =>
      obtain ⟨_, _, -, found, -⟩ := links
      have inside := (Array.getElem?_eq_some_iff.mp found).1
      exact if_neg (Nat.not_le.mpr (bound ▸ inside))
  | _ => rfl

/-- The slots of a routine are used by its body, apart from those of its arguments. -/
theorem addressed_of_addresses {routine : Routine} {body : List Op}
    (same : routine.code = (body ++ epilogue).toArray)
    (addresses : Addresses body routine.arity routine.locals) :
    routine.locals ≤ max routine.slotsAddressed routine.arity := by
  obtain early | ⟨op, inside, needed⟩ := addresses
  · exact Nat.le_trans early (Nat.le_max_right _ _)
  · have used : op ∈ routine.code := by
      rw [same]
      exact List.mem_toArray.mpr (List.mem_append_left _ inside)
    exact Nat.le_trans needed (Nat.le_trans (Bytecode.le_slotsAddressed used) (Nat.le_max_left _ _))

/-- Every routine that is compiled from a file is sound. -/
theorem isSound_of_routineCode (code : TypesCode program references types)
    (bound : program.hosts.size = program.image.imports.size) {index : RoutineIndex}
    (translated : RoutineCode program references types index) :
    ∃ routine, program.image.routines[index]? = some routine ∧ routine.IsSound program.image := by
  obtain ⟨routine, found, shapes, shaped⟩ := shaped_of_routineCode code translated
  have listed {owner : Bytecode.TypeIndex} (inside : owner < types.length) :
      ∀ other ∈ some owner, other < program.image.types.size :=
    fun _ same ↦ Option.some.inj same ▸ code.size.symm ▸ inside
  -- each kind of routine has its own reason for not taking slots in vain
  refine ⟨routine, found, ?_⟩
  cases translated with
  | method here _ same translated =>
      obtain ⟨found', -, -, inside⟩ := translated
      obtain rfl := Option.some.inj (found.symm.trans (same ▸ found'))
      exact
        { arity := le_of_blockCode _ inside
          captures := fun _ closure ↦ absurd closure (by
            dsimp only [routineOf]
            split <;> exact nofun)
          owner := listed (List.getElem?_eq_some_iff.mp here).1
          addressed := addressed_of_addresses rfl (addresses_of_blockCode _ inside)
          code := fun _ ↦ defect?_of_shaped bound shaped }
  | initializer here translated =>
      obtain ⟨found', inside⟩ := translated
      obtain rfl := Option.some.inj (found.symm.trans found')
      exact
        { arity := Nat.le_refl 1
          captures := nofun
          owner := listed (List.getElem?_eq_some_iff.mp here).1
          addressed := Nat.le_max_right _ _
          code := fun _ ↦ defect?_of_shaped bound shaped }
  | lambda translated =>
      obtain ⟨text, ⟨found', inside⟩, -, -, owner⟩ := translated
      obtain rfl := Option.some.inj (found.symm.trans found')
      obtain ⟨arity, addresses⟩ := slots_of_bodyCode inside
      exact
        { arity
          captures := fun _ closure ↦ Bytecode.Binding.closure.inj closure ▸ Nat.le_add_right _ _
          owner := listed owner
          addressed := addressed_of_addresses rfl addresses
          code := fun _ ↦ defect?_of_shaped bound shaped }

end Meaning

namespace Compile

open Bytecode (Image RoutineIndex maxLocals)
open Compilation (compileSource unitDiagnostics)
open Machine (LinkedHost Program)
open Meaning
open Syntax (File)

variable {references : ReferenceSet} {file : File} {program : Program} {kind : OutputKind}
  {unitName : String}

/-! ## Images -/

/-- The host function that an import was compiled for. -/
def hostOf (references : ReferenceSet) (imported : Bytecode.Import) : LinkedHost :=
  let function := (references.lookup? imported.moduleName).bind fun binding ↦
    binding.host.function? imported.function
  ⟨imported.moduleName ++ "::" ++ imported.function, (function.map HostFunction.action).getD .panic⟩

/-- An image with the host functions that it was compiled for. -/
def withHosts (references : ReferenceSet) (image : Image) : Program :=
  ⟨image, image.imports.map (hostOf references)⟩

/-- A unit without errors is what its file is compiled to, before it is linked. -/
theorem compiledFrom_of_quiet (proper : references.IsProper) (chained : file.isChained = true)
    (quiet : (compileFile references kind file .empty).2.Quiet) :
    CompiledFrom (withHosts references (compileUnit references kind unitName file).image)
      references file := by
  let program := withHosts references (compileUnit references kind unitName file).image
  have agrees : Draft.Agrees program references [] (compileFile references kind file .empty).2 := by
    -- the image has the routines of the draft, so only the host functions are to be compared
    refine ⟨quiet, fun _ _ ↦ rfl, ?_⟩
    intro index imported binding function found known member
    have here : program.hosts[index]? = some (hostOf references imported) :=
      Array.getElem?_map.trans (congrArg (Option.map _) found)
    rw [here, hostOf, known]
    simp only [Option.bind_some, member, Option.map_some, Option.getD_some]
  exact compiledFrom_of_agrees proper chained agrees rfl rfl

/-- The entry of a unit is a function of one of its types. -/
theorem exists_entry {entry : EntryPoint} {routine : RoutineIndex}
    (chosen : (compileFile references kind file .empty).1.2 = some (entry, routine)) :
    ∃ info ∈ typesOf references file, ∃ method ∈ info.methods, method.routine = routine := by
  cases kind with
  | library => exact absurd chosen nofun
  | executable =>
      obtain ⟨info, method, only, -, -, rfl⟩ := candidate_of_selectEntry chosen
      obtain ⟨listed, inside, -⟩ :=
        mem_entryCandidates.mp (only ▸ List.mem_singleton_self (info, method))
      exact ⟨info, listed, method, inside, rfl⟩

/-- The image of a unit without errors is sound. -/
theorem isSound_of_quiet (proper : references.IsProper) (chained : file.isChained = true)
    (quiet : (compileFile references kind file .empty).2.Quiet) :
    (compileUnit references kind unitName file).image.IsSound := by
  have unit : CompiledFrom (withHosts references (compileUnit references kind unitName file).image)
      references file :=
    compiledFrom_of_quiet proper chained quiet
  have function {info : TypeInfo} {method : MethodInfo} (listed : info ∈ typesOf references file)
      (inside : method ∈ info.methods) :
      method.routine < (compileUnit references kind unitName file).image.routines.size := by
    obtain ⟨owner, here⟩ := List.getElem?_of_mem listed
    obtain ⟨_, _, found⟩ := unit.code.declares.method here inside
    exact (Array.getElem?_eq_some_iff.mp found).1
  refine ⟨fun entry chosen ↦ ?_, fun definition inside member listed ↦ ?_, fun routine inside ↦ ?_⟩
  · have chosen : (compileFile references kind file .empty).1.2.map Prod.snd = some entry := chosen
    obtain ⟨_, selected, rfl⟩ := Option.map_eq_some_iff.mp chosen
    obtain ⟨info, listed, method, inside, same⟩ := exists_entry selected
    exact same ▸ function listed inside
  · obtain ⟨type, bound, rfl⟩ := Array.mem_iff_getElem.mp inside
    have here : type < (typesOf references file).length := unit.code.size ▸ bound
    obtain ⟨_, found, code⟩ := unit.code.type (List.getElem?_eq_getElem here)
    obtain rfl := Option.some.inj ((Array.getElem?_eq_getElem bound).symm.trans found)
    obtain starts | listed := List.mem_append.mp listed
    · have initializer := code.initializer
      rw [Option.mem_toList.mp starts] at initializer
      obtain ⟨-, found, -⟩ := initializer
      exact (Array.getElem?_eq_some_iff.mp found).1
    · rw [code.methods] at listed
      obtain ⟨method, inside, rfl⟩ := List.mem_map.mp listed
      exact function (List.getElem_mem here) inside
  · obtain ⟨index, bound, rfl⟩ := Array.mem_iff_getElem.mp inside
    obtain ⟨_, found, sound⟩ := isSound_of_routineCode unit.code Array.size_map
      (unit.routines index bound)
    obtain rfl := Option.some.inj ((Array.getElem?_eq_getElem bound).symm.trans found)
    exact sound

/-- A unit is a fault of the host if it has nothing to report and its image does not pass the
check. -/
theorem compile_eq_error_iff {options : CompileOptions} {source : SourceUnit}
    {fault : CompilerFault} :
    Compilation.compile options unitName source file references = .error fault ↔
      unitDiagnostics options source (compileUnit references options.kind unitName file) = [] ∧
        ∃ invalid, (compileUnit references options.kind unitName file).image.verify
            = .error invalid ∧ fault = ⟨unitName, invalid⟩ := by
  rw [Compilation.compile]
  generalize compileUnit references options.kind unitName file = unit
  cases unitDiagnostics options source unit with
  | cons first rest => simp only [reduceCtorEq, false_and]
  | nil =>
      simp only [true_and]
      cases unit.image.verify with
      | ok passed => simp only [reduceCtorEq, false_and, exists_false]
      | error invalid =>
          refine ⟨fun failed ↦ ⟨invalid, rfl, (Except.error.inj failed).symm⟩, ?_⟩
          rintro ⟨_, same, rfl⟩
          rw [Except.error.inj same]

/-- A unit has nothing to report, and this routine is the first that takes more slots than a routine
may have. -/
def Oversized (options : CompileOptions) (source : SourceUnit) (unit : CompiledUnit)
    (routine : Bytecode.Routine) : Prop :=
  unitDiagnostics options source unit = [] ∧
    unit.image.routines.toList.find? Bytecode.Routine.isTooLarge = some routine

/-- A compilation is a fault of the host exactly if a unit that has nothing to report takes too many
slots in a routine. -/
theorem compileSource_eq_error_iff {options : CompileOptions} {source : SourceUnit}
    {resolver : Resolver} (proper : ∀ names, (resolver names).IsProper) {fault : CompilerFault} :
    compileSource options unitName source resolver = .error fault ↔
      ∃ file routine, Syntax.parse source = .ok file ∧
        Oversized options source
          (compileUnit (resolver file.importNames) options.kind unitName file) routine ∧
        fault = ⟨unitName, .defect routine.name (.tooManyLocals routine.locals)⟩ := by
  have sound {file : File} (parsed : Syntax.parse source = .ok file)
      (quiet : unitDiagnostics options source
        (compileUnit (resolver file.importNames) options.kind unitName file) = []) :
      (compileUnit (resolver file.importNames) options.kind unitName file).image.IsSound :=
    isSound_of_quiet (proper file.importNames) (Syntax.isChained_of_parse parsed)
      (quiet_of_unitDiagnostics quiet)
  have compiles {file : File} (parsed : Syntax.parse source = .ok file) :
      compileSource options unitName source resolver
        = Compilation.compile options unitName source file (resolver file.importNames) := by
    unfold compileSource
    simp only [parsed]
  refine ⟨fun failed ↦ ?_, ?_⟩
  · cases parsed : Syntax.parse source with
    | error diagnostics =>
        unfold compileSource at failed
        simp only [parsed] at failed
        exact absurd failed nofun
    | ok file =>
        rw [compiles parsed] at failed
        obtain ⟨quiet, invalid, refused, rfl⟩ := compile_eq_error_iff.mp failed
        obtain ⟨routine, first, rfl⟩ := (sound parsed quiet).verify_eq_error_iff.mp refused
        exact ⟨file, routine, rfl, ⟨quiet, first⟩, rfl⟩
  · rintro ⟨file, routine, parsed, ⟨quiet, first⟩, rfl⟩
    rw [compiles parsed]
    exact compile_eq_error_iff.mpr ⟨quiet, _,
      (sound parsed quiet).verify_eq_error_iff.mpr ⟨routine, first, rfl⟩, rfl⟩

/-- Whatever the program that writes its arguments may be compiled to, it is not refused for its
entry. -/
theorem compileSource_eq_error_iff_echo :
    (∀ names, (Resolver.fixed ["core", "io"] .standard names).IsProper) ∧
      compileSource {} "unit" echoSource (Resolver.fixed ["core", "io"] .standard)
        ≠ .error ⟨"unit", .badEntry 0⟩ := by
  have proper : (Resolver.fixed ["core", "io"] .standard []).IsProper :=
    ReferenceSet.isProper_of_forall (by decide +kernel)
  refine ⟨fun _ ↦ proper, fun failed ↦ ?_⟩
  obtain ⟨_, _, -, -, same⟩ := (compileSource_eq_error_iff fun _ ↦ proper).mp failed
  exact absurd (congrArg CompilerFault.invalid same) nofun

end Compile

end GuestScript
