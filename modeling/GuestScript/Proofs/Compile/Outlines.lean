import Mathlib.Data.List.TakeWhile
import GuestScript.Proofs.Compile.DistinctDeclarations
import GuestScript.Proofs.Syntax.Undotted

/-!
# Files in another order

A file may declare its types in any order, and each type its functions, if no two types have the
same name and no type has two functions of the same name. `File.Reorders` says that one file is
another one in another order. Their outlines are then reordered, too: `exists_reordered` puts the
renumbering together from the labels that the outlines of both files have in common.
-/

namespace GuestScript

namespace Syntax

/-- One type is another one with its functions in any order. -/
structure TypeDeclaration.Reorders (declaration declaration' : TypeDeclaration) : Prop where
  namespaceName : declaration'.namespaceName = declaration.namespaceName
  name : declaration'.name = declaration.name
  fields : declaration'.fields = declaration.fields
  functions : declaration'.functions.Perm declaration.functions

/-- The types of one file are those of another one in any order, and so are the functions of each.
-/
def File.Reorders (file file' : File) : Prop :=
  ∃ order, order.Perm file.types ∧ List.Forall₂ TypeDeclaration.Reorders order file'.types

/-- Nothing in a file is declared twice: all types have different simple names, without the dot that
parts the name of a type from its namespace, and so have the functions of each type. -/
structure File.IsUnambiguous (file : File) : Prop where
  types : (file.types.map fun declaration ↦ declaration.name.name).Nodup
  functions : ∀ declaration ∈ file.types,
    (declaration.functions.map fun function ↦ function.name.name).Nodup
  undotted : ∀ declaration ∈ file.types, declaration.IsUndotted

namespace File.Reorders

variable {file file' : File} (reorders : file.Reorders file')

include reorders

/-- Every type comes from one of the other file. -/
theorem exists_source {declaration' : TypeDeclaration} (inside : declaration' ∈ file'.types) :
    ∃ declaration ∈ file.types, declaration.Reorders declaration' := by
  obtain ⟨order, perm, each⟩ := reorders
  obtain ⟨index, found⟩ := List.mem_iff_getElem?.mp inside
  obtain ⟨within, rfl⟩ := List.getElem?_eq_some_iff.mp found
  have within' : index < order.length := each.length_eq ▸ within
  exact ⟨order[index], perm.mem_iff.mp (List.getElem_mem within'), each.get within' within⟩

/-- Every type has one in the other file. -/
theorem exists_target {declaration : TypeDeclaration} (inside : declaration ∈ file.types) :
    ∃ declaration' ∈ file'.types, declaration.Reorders declaration' := by
  obtain ⟨order, perm, each⟩ := reorders
  obtain ⟨index, found⟩ := List.mem_iff_getElem?.mp (perm.mem_iff.mpr inside)
  obtain ⟨within, rfl⟩ := List.getElem?_eq_some_iff.mp found
  have within' : index < file'.types.length := each.length_eq ▸ within
  exact ⟨file'.types[index], List.getElem_mem within', each.get within within'⟩

/-- What reordering a type does not change is the same for both files, up to the order. -/
theorem perm_map {Value : Type} {read : TypeDeclaration → Value}
    (same : ∀ {declaration declaration' : TypeDeclaration},
      declaration.Reorders declaration' → read declaration' = read declaration) :
    (file'.types.map read).Perm (file.types.map read) := by
  obtain ⟨order, perm, each⟩ := reorders
  have related : List.Forall₂ (· = ·) (order.map read) (file'.types.map read) :=
    List.forall₂_map_left_iff.mpr (List.forall₂_map_right_iff.mpr
      (each.imp fun _ _ here ↦ (same here).symm))
  rw [List.forall₂_eq_eq_eq] at related
  exact related ▸ perm.map read

/-- What reordering a type only reorders is reordered as a whole. -/
theorem perm_flatten {Value : Type} {read : TypeDeclaration → List Value}
    (same : ∀ {declaration declaration' : TypeDeclaration},
      declaration.Reorders declaration' → (read declaration).Perm (read declaration')) :
    (file'.types.map read).flatten.Perm (file.types.map read).flatten := by
  obtain ⟨order, perm, each⟩ := reorders
  have related : List.Forall₂ List.Perm (order.map read) (file'.types.map read) :=
    List.forall₂_map_left_iff.mpr (List.forall₂_map_right_iff.mpr
      (each.imp fun _ _ here ↦ same here))
  exact (List.Perm.flatten_congr related).symm.trans (perm.map read).flatten

/-- In another order, there is nothing that is declared twice, either. -/
theorem isUnambiguous (unambiguous : file.IsUnambiguous) : file'.IsUnambiguous where
  types := (reorders.perm_map fun here ↦ congrArg Identifier.name here.name).nodup_iff.mpr
    unambiguous.types
  functions declaration' inside := by
    obtain ⟨declaration, listed, here⟩ := reorders.exists_source inside
    exact (here.functions.map _).nodup_iff.mpr (unambiguous.functions declaration listed)
  undotted declaration' inside := by
    obtain ⟨declaration, listed, here⟩ := reorders.exists_source inside
    have undotted := unambiguous.undotted declaration listed
    rwa [TypeDeclaration.IsUndotted, ← here.name] at undotted

end File.Reorders

end Syntax

namespace Compile

open Bytecode (Renumbering RoutineIndex TypeIndex exists_renumbering getElem?_of_perm
  position_unique)
open Syntax

/-! ## Names -/

/-- The simple name at the end of a full name. -/
def simpleName (fullName : String) : List Char :=
  (fullName.toList.reverse.takeWhile (· ≠ '.')).reverse

/-- The simple name can be read off the full name, because there is no dot in it. -/
theorem simpleName_full {name : TypeName} (undotted : '.' ∉ name.name.toList) :
    simpleName name.full = name.name.toList := by
  have plain : ∀ character ∈ name.name.toList.reverse, decide (character ≠ '.') = true :=
    fun character inside ↦ decide_eq_true fun same ↦
      undotted (List.mem_reverse.mp (same ▸ inside))
  rw [TypeName.full, Bytecode.qualifiedName, simpleName]
  split
  · rw [List.takeWhile_eq_self_iff.mpr plain, List.reverse_reverse]
  · rw [String.toList_append, String.toList_append, List.reverse_append, List.reverse_append,
      List.takeWhile_append_of_pos plain]
    simp

variable {file file' : File}

/-- No two types have the same full name, either. -/
theorem distinctNames_of_isUnambiguous (unambiguous : file.IsUnambiguous) :
    DistinctNames (file.types.map nameOf) where
  simple := by
    rw [List.map_map]
    exact unambiguous.types
  full := by
    refine List.Nodup.of_map simpleName ?_
    have same : ((file.types.map nameOf).map TypeName.full).map simpleName
        = (file.types.map fun declaration ↦ declaration.name.name).map String.toList := by
      rw [List.map_map, List.map_map, List.map_map]
      exact List.map_congr_left fun declaration inside ↦
        simpleName_full (unambiguous.undotted declaration inside)
    rw [same]
    exact unambiguous.types.map fun _ _ ↦ String.toList_inj.mp

/-! ## Outlines of files -/

/-- The types of a file, and the draft in which they are declared. -/
def outlineOf (references : ReferenceSet) (file : File) : Outline :=
  ⟨(declare references file .empty).1, (declare references file .empty).2⟩

section Outlines

variable {references : ReferenceSet} (unambiguous : file.IsUnambiguous)

include unambiguous

/-- All that is declared in a file is in its outline. -/
theorem outlineOf_eq (references : ReferenceSet) :
    let resolve := resolveType references (file.types.map nameOf)
    (outlineOf references file).types = infosFrom resolve file.types 0 ∧
      Draft.empty.Takes ((functionsOf (outlineOf references file).parts).map reservedFor)
        (file.types.map (declarationNotes resolve)).reverse.flatten
        (outlineOf references file).start := by
  have accepted : acceptTypes [] file.types .empty = (file.types.reverse ++ [], .empty) := by
    refine acceptTypes_eq file.types [] .empty ?_
    have full := (distinctNames_of_isUnambiguous unambiguous).full
    rw [List.map_map] at full
    exact full
  have declared : declare references file .empty
      = acceptMembers references (file.types.map nameOf) 0 file.types .empty := by
    change acceptMembers references ((acceptTypes [] file.types .empty).1.reverse.map nameOf) 0
      (acceptTypes [] file.types .empty).1.reverse (acceptTypes [] file.types .empty).2 = _
    rw [accepted, List.append_nil, List.reverse_reverse]
  obtain ⟨types, takes⟩ := acceptMembers_eq references (file.types.map nameOf) file.types 0 .empty
    unambiguous.functions
  rw [← declared] at types takes
  refine ⟨types, ?_⟩
  rw [Outline.parts, outlineOf, types]
  exact takes

theorem isDeclared_outlineOf (references : ReferenceSet) :
    (outlineOf references file).IsDeclared := by
  obtain ⟨types, takes⟩ := outlineOf_eq unambiguous references
  let outline := outlineOf references file
  have numbers : (functionsOf outline.parts).map (fun function ↦ function.2.routine)
      = List.range outline.start.routines.size := by
    have size : outline.start.routines.size = (functionsOf outline.parts).length := by
      rw [takes.size, List.length_map]
      exact Nat.zero_add _
    have routines : (functionsOf outline.parts).map (fun function ↦ function.2.routine)
        = routinesOf outline.types := functionsOf_routines outline.types 0
    have ordered := types ▸ infosFrom_routines file.types 0
    rw [List.range_eq_range', size, ← List.length_map (fun function ↦ function.2.routine), routines]
    exact ordered
  refine
    { keys := nodup_keys outline.types 0 ?_ fun info inside ↦ ?_
      numbers := (functionsOf_filled outline.parts).trans numbers
      routines := fun part member method own ↦ ?_
      imports := takes.imports
      lambdas := takes.lambdas }
  · have names : outline.types.map TypeInfo.name = file.types.map nameOf :=
      types ▸ infosFrom_names file.types 0
    rw [names]
    exact (distinctNames_of_isUnambiguous unambiguous).simple.of_map
  · obtain ⟨declaration, listed, same⟩ := infosFrom_methods file.types 0 (types ▸ inside)
    rw [same]
    exact unambiguous.functions declaration listed
  · have listed : (part.owner, method) ∈ functionsOf outline.parts := by
      refine List.mem_flatMap.mpr ⟨part, member, ?_⟩
      rw [Option.mem_def.mp own]
      exact List.mem_singleton_self _
    obtain ⟨place, found⟩ := List.mem_iff_getElem?.mp listed
    -- Routines are reserved in order, so the function has the routine of this place.
    have number : (List.range outline.start.routines.size)[place]? = some method.routine := by
      rw [← numbers, List.getElem?_map, found]
      rfl
    have within := (List.getElem?_eq_some_iff.mp number).1
    rw [List.length_range] at within
    rw [List.getElem?_range within] at number
    rw [← Option.some.inj number, ← Array.getElem?_toList, takes.routines]
    change ((functionsOf outline.parts).map reservedFor)[place]? = _
    rw [List.getElem?_map, found]
    rfl

end Outlines

/-! ## Places by names -/

/-- The routine of a function, by the names of its type and the function. -/
def Outline.place (outline : Outline) (type : TypeName) (function : String) : RoutineIndex :=
  outline.routineLabels.idxOf ((type, some function), none)

/-- The routine of a function has the label of the function. -/
theorem Outline.IsDeclared.label_function {outline : Outline} (declared : outline.IsDeclared)
    {info : TypeInfo} (inside : info ∈ outline.types) {method : MethodInfo}
    (own : method ∈ info.methods) :
    outline.routineLabels[method.routine]? = some ((info.name, some method.name), none) := by
  obtain ⟨position, found⟩ := List.mem_iff_getElem?.mp inside
  let part : Part := ⟨position, info, some method⟩
  have member : part ∈ outline.parts :=
    (mem_partsFrom outline.types 0).mpr
      ⟨position, (Nat.zero_add _).symm, found, fun _ same ↦ Option.some.inj same ▸ own⟩
  exact declared.label_reserved member rfl

/-- The routine of a function can be found by names. -/
theorem Outline.IsDeclared.placed {outline : Outline} (declared : outline.IsDeclared)
    {info : TypeInfo} (inside : info ∈ outline.types) {method : MethodInfo}
    (own : method ∈ info.methods) : method.routine = outline.place info.name method.name := by
  have label := declared.label_function inside own
  exact position_unique declared.nodup_routineLabels label
    (List.getElem?_idxOf (List.mem_of_getElem? label))

/-- The types of a file in its outline: each by itself, as routines can be found by names. -/
theorem outlineOf_types (unambiguous : file.IsUnambiguous) (references : ReferenceSet) :
    (outlineOf references file).types = file.types.map
      (infoAt (resolveType references (file.types.map nameOf))
        (outlineOf references file).place) := by
  have declared := isDeclared_outlineOf unambiguous references
  obtain ⟨types, -⟩ := outlineOf_eq unambiguous references
  rw [types]
  exact infosFrom_eq file.types 0 fun info inside method own ↦
    declared.placed (types ▸ inside) own

/-- A function of a file has its label at its place. -/
theorem label_place (unambiguous : file.IsUnambiguous) (references : ReferenceSet)
    {declaration : TypeDeclaration} (inside : declaration ∈ file.types)
    {function : FunctionDeclaration} (own : function ∈ declaration.functions) :
    (outlineOf references file).routineLabels[
        (outlineOf references file).place (nameOf declaration) function.name.name]?
      = some ((nameOf declaration, some function.name.name), none) := by
  let info := infoAt (resolveType references (file.types.map nameOf))
    (outlineOf references file).place declaration
  have listed : info ∈ (outlineOf references file).types := by
    rw [outlineOf_types unambiguous references]
    exact List.mem_map_of_mem inside
  let method := signed (resolveType references (file.types.map nameOf) declaration.namespaceName)
    function ((outlineOf references file).place (nameOf declaration) function.name.name)
  have own' : method ∈ info.methods := List.mem_map_of_mem own
  exact (isDeclared_outlineOf unambiguous references).label_function listed own'

/-- Where a renumbering leads from one place by names to the other, the members of a type are
reordered with it. -/
theorem infoAt_reordered {resolve : String → TypeExpression → Drafting Ty}
    {renumbering : Renumbering} {place place' : TypeName → String → RoutineIndex}
    {declaration declaration' : TypeDeclaration} (reorders : declaration.Reorders declaration')
    (distinct : (declaration.functions.map fun function ↦ function.name.name).Nodup)
    (moves : ∀ function ∈ declaration.functions,
      renumbering.routines (place (nameOf declaration) function.name.name)
        = place' (nameOf declaration) function.name.name) :
    (infoAt resolve place declaration).Reordered renumbering
      (infoAt resolve place' declaration') := by
  have named : nameOf declaration' = nameOf declaration := by
    rw [nameOf, nameOf, reorders.namespaceName, reorders.name]
  refine ⟨named, ?_, ?_, ?_⟩
  · rw [infoAt, infoAt, reorders.namespaceName, reorders.fields]
  · have moved : (infoAt resolve place declaration).methods.map (MethodInfo.renumber renumbering)
        = declaration.functions.map fun function ↦
          signed (resolve declaration.namespaceName) function
            (place' (nameOf declaration) function.name.name) := by
      rw [infoAt, List.map_map]
      exact List.map_congr_left fun function inside ↦
        congrArg (signed (resolve declaration.namespaceName) function) (moves function inside)
    rw [moved, infoAt, named, reorders.namespaceName]
    exact reorders.functions.map _
  · rw [infoAt, List.map_map]
    exact distinct

/-! ## Reordered files -/

section Reordered

variable {references : ReferenceSet} (unambiguous : file.IsUnambiguous)
  (reorders : file.Reorders file')

theorem nameOf_of_reorders {declaration declaration' : TypeDeclaration}
    (here : declaration.Reorders declaration') : nameOf declaration' = nameOf declaration := by
  rw [nameOf, nameOf, here.namespaceName, here.name]

include unambiguous reorders

/-- Where a renumbering leads from each name to the same name, it leads from each type to what has
become of it. -/
theorem declarations_of_move {move : Equiv.Perm TypeIndex}
    (moved : NamesMoved move (file.types.map nameOf) (file'.types.map nameOf)) (index : TypeIndex) :
    Option.Rel TypeDeclaration.Reorders file.types[index]? file'.types[move index]? := by
  have names := moved index
  rw [List.getElem?_map, List.getElem?_map] at names
  cases found : file.types[index]? with
  | none =>
      rw [found, Option.map_none, Option.map_eq_none_iff] at names
      rw [names]
      exact .none
  | some declaration =>
      rw [found, Option.map_some] at names
      obtain ⟨declaration', found', named⟩ := Option.map_eq_some_iff.mp names
      obtain ⟨other, inside, here⟩ := reorders.exists_target (List.mem_of_getElem? found)
      -- Both are called like the declaration, and only one is.
      have distinct := (distinctNames_of_isUnambiguous
        (reorders.isUnambiguous unambiguous)).simple.of_map
      obtain rfl := List.inj_on_of_nodup_map distinct (List.mem_of_getElem? found') inside
        (named.trans (nameOf_of_reorders here).symm)
      rw [found']
      exact .some here

omit reorders in
/-- A written type means the same in both files. -/
theorem resolveType_of_reorders {move : Equiv.Perm TypeIndex}
    (moved : NamesMoved move (file.types.map nameOf) (file'.types.map nameOf)) :
    resolveType references (file'.types.map nameOf)
      = resolveType references (file.types.map nameOf) := by
  funext namespaceName written
  exact resolveType_of_move moved (distinctNames_of_isUnambiguous unambiguous) references
    namespaceName written

/-- The declarations of both files have the same findings, up to the order. -/
theorem perm_start {move : Equiv.Perm TypeIndex}
    (moved : NamesMoved move (file.types.map nameOf) (file'.types.map nameOf)) :
    (outlineOf references file').start.findings.Perm
      (outlineOf references file).start.findings := by
  obtain ⟨-, takes⟩ := outlineOf_eq unambiguous references
  obtain ⟨-, takes'⟩ := outlineOf_eq (reorders.isUnambiguous unambiguous) references
  have resolve : resolveType references (file'.types.map nameOf) = _ :=
    resolveType_of_reorders unambiguous moved
  rw [takes.findings, takes'.findings, resolve]
  refine List.Perm.append (List.Perm.trans (List.reverse_perm _).flatten ?_) (.refl _)
  refine List.Perm.trans (reorders.perm_flatten fun here ↦ ?_) (List.reverse_perm _).flatten.symm
  rw [declarationNotes, declarationNotes, here.namespaceName, here.fields]
  refine List.Perm.append (List.Perm.flatten ?_) (.refl _)
  exact (List.reverse_perm _).trans
    ((here.functions.symm.map _).trans (List.reverse_perm _).symm)

/-- There is a renumbering that leads from every place in the one file to the place in the other. -/
theorem exists_reordered (references : ReferenceSet) : ∃ renumbering,
    Outline.Reordered references renumbering (outlineOf references file)
        (outlineOf references file') ∧
      NamesMoved renumbering.types (file.types.map nameOf) (file'.types.map nameOf) := by
  let outline := outlineOf references file
  let outline' := outlineOf references file'
  have unambiguous' := reorders.isUnambiguous unambiguous
  have declared : outline.IsDeclared := isDeclared_outlineOf unambiguous references
  have declared' : outline'.IsDeclared := isDeclared_outlineOf unambiguous' references
  have distinct := distinctNames_of_isUnambiguous unambiguous
  have distinct' := distinctNames_of_isUnambiguous unambiguous'
  obtain ⟨types, typesMove⟩ := exists_renumbering distinct.simple.of_map distinct'.simple.of_map
  obtain ⟨routines, routinesMove⟩ :=
    exists_renumbering declared.nodup_routineLabels declared'.nodup_routineLabels
  obtain ⟨lambdas, lambdasMove⟩ :=
    exists_renumbering declared.nodup_lambdaLabels declared'.nodup_lambdaLabels
  obtain ⟨imports, importsMove⟩ := exists_renumbering
    (declared.nodup_imports references) (declared'.nodup_imports references)
  let renumbering : Renumbering := ⟨types, routines, imports, lambdas⟩
  have moved : NamesMoved types (file.types.map nameOf) (file'.types.map nameOf) :=
    getElem?_of_perm (reorders.perm_map nameOf_of_reorders) typesMove
  refine ⟨renumbering, ⟨declared, declared', ⟨fun index ↦ ?_, ?_⟩, routinesMove, lambdasMove, ?_⟩,
    moved⟩
  · have here := declarations_of_move unambiguous reorders moved index
    rw [outlineOf_types unambiguous, outlineOf_types unambiguous', List.getElem?_map,
      List.getElem?_map, resolveType_of_reorders unambiguous moved]
    obtain ⟨none, none'⟩ | ⟨declaration, declaration', found, found', same⟩ := rel_cases here
    · rw [none, none']
      exact .none
    · rw [found, found']
      have inside := List.mem_of_getElem? found
      refine .some (infoAt_reordered same (unambiguous.functions declaration inside) ?_)
      intro function own
      have label' := label_place unambiguous' references (List.mem_of_getElem? found')
        (same.functions.mem_iff.mpr own)
      rw [nameOf_of_reorders same] at label'
      exact routinesMove (label_place unambiguous references inside own) label'
  · rw [outlineOf_types unambiguous, List.map_map]
    exact distinct
  · intro imported old new found found'
    rw [← Array.getElem?_toList] at found found'
    exact importsMove found found'

end Reordered

end Compile

end GuestScript
