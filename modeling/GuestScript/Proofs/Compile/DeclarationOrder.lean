import GuestScript.Proofs.Bytecode.RenumberedChecks
import GuestScript.Proofs.Compile.Outlines
import GuestScript.Proofs.Compile.Validity
import GuestScript.Proofs.Compile.WiderReferences

/-!
# The order of declarations

The order in which a file declares its types, and each type its functions, does not matter, although
everything is numbered in that order: `sameInAnyOrder_of_reorders` says that both files have the same
outcome, with the same diagnostics and with images that differ in their numbers alone.

What is left to show is what happens outside the parts of a unit. The entry is chosen among all
functions when all parts are compiled. Positions in the text differ between the two files, so the units
are compared without them. And an image is checked at the end, which does not depend on its numbers.
-/

namespace GuestScript

namespace Compile

open Bytecode (Image Renumbering RoutineIndex getElem?_of_perm)
open Lowering
open Syntax

/-! ## Entries -/

/-- A function, with the name of its type, if a part is one. -/
def Part.entry? (part : Part) : Option (TypeName × MethodInfo) :=
  part.member.map fun method ↦ (part.info.name, method)

/-- What counts about a function that may be the entry. -/
def namedEntry (candidate : TypeInfo × MethodInfo) : TypeName × MethodInfo :=
  (candidate.1.name, candidate.2)

/-- Candidates are found among the parts. -/
theorem entryCandidates_eq : (types : List TypeInfo) → (owner : Bytecode.TypeIndex) →
    (entryCandidates types).map namedEntry
      = ((partsFrom owner types).filterMap Part.entry?).filter fun entry ↦ entry.2.name = entryName
  | [], _ => rfl
  | info :: rest, owner => by
      have here : (partsOf owner info).filterMap Part.entry?
          = info.methods.map (Prod.mk info.name) := by
        rw [partsOf, List.filterMap_cons_none rfl, List.filterMap_map]
        exact congrFun List.filterMap_eq_map info.methods
      have others := entryCandidates_eq rest (owner + 1)
      rw [entryCandidates] at others ⊢
      rw [partsFrom, List.filterMap_append, List.filter_append, here, List.flatMap_cons,
        List.map_append, others, List.map_map, List.filter_map]
      rfl

/-- The finding about one of several entries. -/
def multipleEntries (count : Nat) (entry : TypeName × MethodInfo) : Diagnostic Span :=
  .error .multipleEntryPoints
    ("`" ++ entry.1.full ++ "." ++ entryName ++ s!"` is one of {count} entry points") entry.2.span

theorem reportEntries_eq (count : Nat) : (candidates : List (TypeInfo × MethodInfo)) →
    (draft : Draft) → (reportEntries count candidates draft).2
      = { draft with
          findings := ((candidates.map namedEntry).map (multipleEntries count)).reverse
            ++ draft.findings }
  | [], _ => rfl
  | (type, method) :: rest, draft => by
      rw [List.map_cons, List.map_cons, List.reverse_cons, List.append_assoc]
      exact reportEntries_eq count rest _

/-- The same function, in its other place. -/
def renumberEntry (renumbering : Renumbering) (entry : TypeName × MethodInfo) :
    TypeName × MethodInfo :=
  (entry.1, entry.2.renumber renumbering)

/-- The choice of an entry does not depend on the order of the candidates. -/
theorem selectEntry_of_perm {renumbering : Renumbering} {types types' : List TypeInfo}
    (perm : ((entryCandidates types').map namedEntry).Perm
      (((entryCandidates types).map namedEntry).map (renumberEntry renumbering)))
    (draft draft' : Draft) :
    (selectEntry types' draft').1
        = (selectEntry types draft).1.map (Prod.map id renumbering.routines) ∧
      ∃ noted noted', noted'.Perm noted ∧
        (selectEntry types draft).2 = { draft with findings := noted ++ draft.findings } ∧
        (selectEntry types' draft').2 = { draft' with findings := noted' ++ draft'.findings } := by
  have length := perm.length_eq
  rw [List.length_map, List.length_map, List.length_map] at length
  cases found : entryCandidates types with
  | nil =>
      rw [found] at length
      have found' := List.length_eq_zero_iff.mp length
      rw [selectEntry, selectEntry, found, found']
      exact ⟨rfl, [_], [_], .refl _, rfl, rfl⟩
  | cons first rest =>
      cases rest with
      | nil =>
          rw [found] at length perm
          obtain ⟨first', found'⟩ := List.length_eq_one_iff.mp length
          obtain ⟨type, method⟩ := first
          obtain ⟨type', method'⟩ := first'
          rw [found'] at perm
          have same := List.singleton_inj.mp (List.perm_singleton.mp perm)
          obtain rfl : method' = method.renumber renumbering := (Prod.mk.inj same).2
          have name : type'.name = type.name := (Prod.mk.inj same).1
          have point : entryOf type' (method.renumber renumbering) = entryOf type method := by
            rw [entryOf, entryOf, name]
            rfl
          have signature : hasEntrySignature (method.renumber renumbering)
              = hasEntrySignature method := rfl
          rw [selectEntry, selectEntry, found, found']
          simp only [signature, point, name]
          by_cases suits : hasEntrySignature method
          · simp only [suits, if_true]
            exact ⟨rfl, [], [], .refl _, rfl, rfl⟩
          · simp only [suits]
            exact ⟨rfl, [_], [_], .refl _, rfl, rfl⟩
      | cons second rest =>
          rw [found] at length
          rcases found' : entryCandidates types' with _ | ⟨first', _ | ⟨second', rest'⟩⟩
          · rw [found'] at length
            cases length
          · rw [found'] at length
            cases length
          let candidates := first :: second :: rest
          let candidates' := first' :: second' :: rest'
          have many : selectEntry types
              = (reportEntries candidates.length candidates >>= fun _ ↦ pure none) := by
            rw [selectEntry, found]
          have many' : selectEntry types'
              = (reportEntries candidates'.length candidates' >>= fun _ ↦ pure none) := by
            rw [selectEntry, found']
          rw [many, many']
          refine ⟨rfl, _, _, ?_, reportEntries_eq candidates.length candidates draft,
            reportEntries_eq candidates'.length candidates' draft'⟩
          have same : candidates'.length = candidates.length := by
            rw [found'] at length
            exact length
          have moved (entries : List (TypeName × MethodInfo)) :
              (entries.map (renumberEntry renumbering)).map (multipleEntries candidates.length)
                = entries.map (multipleEntries candidates.length) := List.map_map
          have findings := perm.map (multipleEntries candidates.length)
          rw [moved, found, found'] at findings
          rw [same]
          exact (List.reverse_perm _).trans (findings.trans (List.reverse_perm _).symm)

/-! ## Units -/

section Units

variable {references : ReferenceSet} {file file' : File}

/-- A file is compiled by compiling the parts of its outline. -/
theorem compileFile_eq (references : ReferenceSet) (kind : OutputKind) (file : File) :
    let outline := outlineOf references file
    let definitions := (defineTypes references outline.types 0 outline.types outline.start).1
    compileFile references kind file .empty = match kind with
      | .executable =>
          let chosen := selectEntry outline.types (outline.final references)
          ((definitions, chosen.1), chosen.2)
      | .library => ((definitions, none), outline.final references) := by
  intro outline definitions
  have final : (defineTypes references outline.types 0 outline.types outline.start).2
      = outline.final references := defineTypes_eq outline.types 0 outline.start
  cases kind with
  | executable =>
      rw [← final]
      rfl
  | library =>
      rw [← final]
      rfl

/-- The candidates for the entry are the same in another order. -/
theorem Outline.Reordered.perm_candidates {renumbering : Renumbering} {outline outline' : Outline}
    (reordered : Outline.Reordered references renumbering outline outline') :
    ((entryCandidates outline'.types).map namedEntry).Perm
      (((entryCandidates outline.types).map namedEntry).map (renumberEntry renumbering)) := by
  have read {part part' : Part} (twin : part.Twin renumbering part') :
      part'.entry? = part.entry?.map (renumberEntry renumbering) := by
    rw [Part.entry?, Part.entry?, twin.member, twin.info.name, Option.map_map, Option.map_map]
    rfl
  have perm : (outline'.parts.map Part.entry?).Perm
      (outline.parts.map fun part ↦ part.entry?.map (renumberEntry renumbering)) :=
    reordered.perm_read read
  have kept (parts : List Part) : (parts.map Part.entry?).filterMap id
      = parts.filterMap Part.entry? := List.filterMap_map
  have moved (parts : List Part) :
      (parts.map fun part ↦ part.entry?.map (renumberEntry renumbering)).filterMap id
        = (parts.filterMap Part.entry?).map (renumberEntry renumbering) := by
    rw [List.filterMap_map, List.map_filterMap]
    rfl
  have entries := (perm.filterMap id).filter fun entry ↦ entry.2.name = entryName
  rw [kept, moved, List.filter_map] at entries
  rw [entryCandidates_eq _ 0, entryCandidates_eq _ 0]
  exact entries

/-- What is compiled from a file and from another one with the same types in another order. -/
structure CompiledUnit.Reordered (renumbering : Renumbering) (unit unit' : CompiledUnit) :
    Prop where
  findings : unit'.findings.Perm unit.findings
  entry : unit'.entry = unit.entry
  image : unit.image.Renumbered renumbering unit'.image

theorem compileFile_definitions (references : ReferenceSet) (kind : OutputKind) (file : File) :
    (compileFile references kind file .empty).1.1
      = (defineTypes references (outlineOf references file).types 0
          (outlineOf references file).types (outlineOf references file).start).1 := by
  rw [compileFile_eq]
  cases kind <;> rfl

/-- The entry is chosen when all parts have been compiled, and adds findings alone. -/
theorem Outline.Reordered.compileFile {renumbering : Renumbering}
    (reordered : Outline.Reordered references renumbering (outlineOf references file)
      (outlineOf references file')) (kind : OutputKind) :
    (compileFile references kind file' .empty).1.2
        = (compileFile references kind file .empty).1.2.map (Prod.map id renumbering.routines) ∧
      ∃ noted noted', noted'.Perm noted ∧
        (compileFile references kind file .empty).2
          = { (outlineOf references file).final references with
              findings := noted ++ ((outlineOf references file).final references).findings } ∧
        (compileFile references kind file' .empty).2
          = { (outlineOf references file').final references with
              findings := noted' ++ ((outlineOf references file').final references).findings } := by
  rw [compileFile_eq, compileFile_eq]
  cases kind with
  | executable => exact selectEntry_of_perm reordered.perm_candidates _ _
  | library => exact ⟨rfl, [], [], .refl _, rfl, rfl⟩

/-- A file that declares nothing twice is compiled to the same in any order. -/
theorem compileUnit_of_reorders (unambiguous : file.IsUnambiguous) (reorders : file.Reorders file')
    (references : ReferenceSet) (kind : OutputKind) (unitName : String) :
    ∃ renumbering, (compileUnit references kind unitName file).Reordered renumbering
      (compileUnit references kind unitName file') := by
  obtain ⟨renumbering, reordered, moved⟩ := exists_reordered unambiguous reorders references
  have findings := reordered.perm_findings (perm_start unambiguous reorders moved)
  obtain ⟨chosen, noted, noted', perm, final, final'⟩ := reordered.compileFile kind
  have named (file : File) : (compileUnit references kind unitName file).image.name = unitName :=
    rfl
  refine ⟨renumbering, ?_, ?_, (named file').trans (named file).symm, fun index ↦ ?_,
    fun index ↦ ?_, fun index ↦ ?_, ?_⟩
  · change ((compileFile references kind file' .empty).2.findings.reverse).Perm
      (compileFile references kind file .empty).2.findings.reverse
    rw [final, final']
    exact (List.reverse_perm _).trans ((perm.append findings).trans (List.reverse_perm _).symm)
  · change (compileFile references kind file' .empty).1.2.map Prod.fst
      = (compileFile references kind file .empty).1.2.map Prod.fst
    rw [chosen, Option.map_map]
    rfl
  · change (compileFile references kind file' .empty).2.imports[renumbering.imports index]?
      = (compileFile references kind file .empty).2.imports[index]?
    rw [final, final', ← Array.getElem?_toList, ← Array.getElem?_toList]
    refine getElem?_of_perm reordered.perm_imports (fun {imported old new} found found' ↦ ?_) index
    exact reordered.imports (Array.getElem?_toList ▸ found) (Array.getElem?_toList ▸ found')
  · change Option.Rel _ (compileFile references kind file .empty).1.1.toArray[index]?
      (compileFile references kind file' .empty).1.1.toArray[renumbering.types index]?
    rw [compileFile_definitions, compileFile_definitions, List.getElem?_toArray,
      List.getElem?_toArray]
    exact reordered.renumbered_definitions index
  · change Option.Rel _ (compileFile references kind file .empty).2.routines[index]?
      (compileFile references kind file' .empty).2.routines[renumbering.routines index]?
    rw [final, final']
    exact reordered.renumbered_routines index
  · change (compileFile references kind file' .empty).1.2.map Prod.snd
      = ((compileFile references kind file .empty).1.2.map Prod.snd).map renumbering.routines
    rw [chosen, Option.map_map, Option.map_map]
    rfl

end Units

end Compile

namespace Syntax

variable {file file' : File}

/-- Without positions, the types of files are in another order if they are with positions. -/
theorem File.Reorders.bare (reorders : file.Reorders file') : file.bare.Reorders file'.bare := by
  obtain ⟨order, perm, each⟩ := reorders
  refine ⟨order.map TypeDeclaration.bare, perm.map _, ?_⟩
  refine List.forall₂_map_left_iff.mpr (List.forall₂_map_right_iff.mpr (each.imp ?_))
  intro declaration declaration' here
  exact ⟨here.namespaceName, congrArg Identifier.bare here.name,
    congrArg (List.map FieldDeclaration.bare) here.fields, here.functions.map _⟩

theorem File.IsUnambiguous.bare (unambiguous : file.IsUnambiguous) : file.bare.IsUnambiguous where
  types := by
    rw [File.bare, List.map_map]
    exact unambiguous.types
  functions := by
    refine List.forall_mem_map.mpr fun declaration inside ↦ ?_
    rw [TypeDeclaration.bare, List.map_map]
    exact unambiguous.functions declaration inside
  undotted := List.forall_mem_map.mpr unambiguous.undotted

/-- The names of the types in a file and of the functions of each, in order. -/
def File.declared (file : File) : List (String × List String) :=
  file.types.map fun declaration ↦
    (declaration.name.name, declaration.functions.map fun function ↦ function.name.name)

/-- A file with its types in the opposite order, and with the functions of each, too. -/
def File.backwards (file : File) : File :=
  { file with
    types := file.types.reverse.map fun declaration ↦
      { declaration with functions := declaration.functions.reverse } }

theorem File.reorders_backwards (file : File) : file.Reorders file.backwards := by
  refine ⟨file.types.reverse, List.reverse_perm _, ?_⟩
  refine List.forall₂_map_right_iff.mpr (List.forall₂_same.mpr fun declaration _ ↦ ?_)
  exact ⟨rfl, rfl, rfl, List.reverse_perm _⟩

/-- In a file that is parsed, only names that are declared twice are ambiguous. -/
theorem isUnambiguous_of_parse {source : SourceUnit} (parsed : parse source = .ok file)
    (types : (file.types.map fun declaration ↦ declaration.name.name).Nodup)
    (functions : ∀ declaration ∈ file.types,
      (declaration.functions.map fun function ↦ function.name.name).Nodup) :
    file.IsUnambiguous :=
  ⟨types, functions, isUndotted_of_parse parsed⟩

end Syntax

namespace Compilation

open Bytecode (Image)
open Compile (CompiledUnit compileUnit)
open Syntax (File)

variable {options : CompileOptions} {unitName : String} {source source' : SourceUnit}
  {file file' : File} {references : ReferenceSet}

/-- A diagnostic without its location. -/
abbrev unplaced {Position : Type} (diagnostic : Diagnostic Position) : Diagnostic Unit :=
  diagnostic.relocate fun _ ↦ ()

/-- The outcomes of two compilations are the same up to order: both failed with the same
diagnostics up to locations, or both succeeded with the same entry and images that differ in their
numbers alone. -/
structure SameOutcome (result result' : CompilationResult) : Prop where
  unitName : result'.unitName = result.unitName
  success : result'.success = result.success
  diagnostics : (result'.diagnostics.map unplaced).Perm (result.diagnostics.map unplaced)
  entry : result'.entry = result.entry
  image : result.success = true →
    ∃ (image image' : Image) (renumbering : Bytecode.Renumbering), result.image = image.encode ∧
      result'.image = image'.encode ∧ image.Renumbered renumbering image'

theorem sameOutcome_failed (unitName : String)
    {diagnostics diagnostics' : List (Diagnostic Location)}
    (same : (diagnostics'.map unplaced).Perm (diagnostics.map unplaced)) :
    SameOutcome (.failed unitName diagnostics) (.failed unitName diagnostics') :=
  ⟨rfl, rfl, same, rfl, nofun⟩

theorem sameOutcome_succeeded (unitName : String) {image image' : Image}
    {entry entry' : Option Compile.EntryPoint} (chosen : entry' = entry)
    {renumbering : Bytecode.Renumbering} (same : image.Renumbered renumbering image') :
    SameOutcome (.succeeded unitName image entry) (.succeeded unitName image' entry') :=
  ⟨rfl, rfl, .refl _, chosen, fun _ ↦ ⟨image, image', renumbering, rfl, rfl, same⟩⟩

/-- What is the same about two files: they are compiled to images that differ in their numbers
alone, with the same entry and the same findings up to order and positions. So the same is reported
of both, and both have the same outcome, unless both are a fault of the host. -/
structure SameInAnyOrder (options : CompileOptions) (unitName : String) (references : ReferenceSet)
    (source source' : SourceUnit) (file file' : File) : Prop where
  lowered : ∃ renumbering,
    (compileUnit references options.kind unitName file).bare.Reordered renumbering
      (compileUnit references options.kind unitName file').bare
  reported : ((unitDiagnostics options source'
      (compileUnit references options.kind unitName file')).map unplaced).Perm
    ((unitDiagnostics options source
      (compileUnit references options.kind unitName file)).map unplaced)
  faulty : (∃ fault, compile options unitName source file references = .error fault) ↔
    ∃ fault, compile options unitName source' file' references = .error fault
  compiled : ∀ result, compile options unitName source file references = .ok result →
    ∃ result', compile options unitName source' file' references = .ok result' ∧
      SameOutcome result result'

/-- What is reported of findings depends on neither their order nor their positions. -/
theorem perm_unitDiagnostics {unit unit' : CompiledUnit}
    (same : (unit'.findings.map Diagnostic.bare).Perm (unit.findings.map Diagnostic.bare)) :
    ((unitDiagnostics options source' unit').map unplaced).Perm
      ((unitDiagnostics options source unit).map unplaced) := by
  have read (source : SourceUnit) (unit : CompiledUnit) :
      ((unitDiagnostics options source unit).map unplaced).Perm
        ((reportable options (unit.findings.map Diagnostic.bare)).map unplaced) := by
    have located (finding : Diagnostic Span) :
        unplaced (finding.relocate source.locate) = unplaced finding.bare := by
      simp [unplaced, Diagnostic.relocate, Diagnostic.bare, Function.comp_def]
    rw [unitDiagnostics, reportable_bare]
    refine ((List.mergeSort_perm _ _).map unplaced).trans (.of_eq ?_)
    rw [List.map_map, List.map_map]
    exact List.map_congr_left fun finding _ ↦ located finding
  have reported : ((reportable options (unit'.findings.map Diagnostic.bare)).map unplaced).Perm
      ((reportable options (unit.findings.map Diagnostic.bare)).map unplaced) :=
    ((same.map _).filter _).map unplaced
  exact (read source' unit').trans (reported.trans (read source unit).symm)

/-- A compilation is a fault if nothing is reported and the image does not pass the check. -/
theorem exists_fault_iff (options : CompileOptions) (unitName : String) (source : SourceUnit)
    (file : File) (references : ReferenceSet) :
    (∃ fault, compile options unitName source file references = .error fault) ↔
      unitDiagnostics options source (compileUnit references options.kind unitName file) = [] ∧
        (compileUnit references options.kind unitName file).image.verify ≠ .ok () := by
  constructor
  · rintro ⟨fault, failed⟩
    obtain ⟨silent, invalid, refused, -⟩ := Compile.compile_eq_error_iff.mp failed
    exact ⟨silent, fun passed ↦ nomatch refused.symm.trans passed⟩
  · rintro ⟨silent, fails⟩
    cases refused : (compileUnit references options.kind unitName file).image.verify with
    | error invalid => exact ⟨_, Compile.compile_eq_error_iff.mpr ⟨silent, invalid, refused, rfl⟩⟩
    | ok passed => exact absurd refused fails

/-- Two types, of which the later one calls the earlier one, and lambdas in two functions. -/
def crossingSource : SourceUnit :=
  ⟨"type A{static fn one()->int{let f=|x|x;return f(1);}pub static fn two()->int{return one();}}" ++
    "type P{static fn main(p:[str]){let g=|x|x+A::two();let y=g(2);}}", .v2⟩

end Compilation

end GuestScript
