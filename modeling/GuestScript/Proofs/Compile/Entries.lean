import Mathlib.Data.List.Find
import GuestScript.Proofs.Compile.Units
import GuestScript.Proofs.Session.EntryRuns

/-!
# What an image declares, and its entry

The compiler speaks of types and functions by their positions, and who runs an image looks for them
by their names. `Declares image types` says that an image has the types of a file under their names,
with the functions that they list, and so both mean the same. While bodies are compiled, the routines
that are reserved keep all but their code, which is `Draft.Keeps`. The entry is the only function of
its name, so whoever looks for it by its names finds it.
-/

namespace GuestScript

namespace Compile

open Bytecode (Image Routine RoutineIndex TypeDefinition TypeIndex)
open Lowering (alone)
open Meaning (typesOf)
open Syntax (File)

variable {references : ReferenceSet} {file : File} {types : List TypeInfo} {setting : Setting}

/-! ## Reserved routines -/

namespace Draft

/-- Every routine of one draft is in another one, perhaps with code of its own by then. -/
def Keeps (before after : Draft) : Prop :=
  ∀ (index : RoutineIndex) (routine : Routine), before.routines[index]? = some routine →
    ∃ code locals, after.routines[index]? = some { routine with code, locals }

variable {before middle after : Draft}

theorem Keeps.trans (first : before.Keeps middle) (second : middle.Keeps after) :
    before.Keeps after := by
  intro index routine found
  obtain ⟨code, locals, found⟩ := first index routine found
  exact second index { routine with code, locals } found

theorem Extends.keeps (grown : before.Extends after) : before.Keeps after :=
  fun _ routine found ↦ ⟨routine.code, routine.locals,
    (grown.routines (Array.getElem?_eq_some_iff.mp found).1).trans found⟩

theorem keeps_complete (index : RoutineIndex) (code : List Bytecode.Op) (locals : Nat)
    (draft : Draft) : draft.Keeps (complete index code locals draft).2 := by
  intro other routine found
  by_cases same : index = other
  · subst same
    exact ⟨_, _, complete_routine found⟩
  · exact ⟨routine.code, routine.locals,
      (Array.getElem?_modify.trans (if_neg same)).trans found⟩

end Draft

theorem keeps_defineMethods : (methods : List MethodInfo) → (draft : Draft) →
    draft.Keeps (defineMethods setting methods draft).2
  | [], draft => (Draft.Extends.refl draft).keeps
  | method :: rest, draft => by
      let setting' := setting.ofMethod method
      let compiled := (alone (methodInside setting' method) draft).2
      have grown : draft.Extends compiled := (grows_methodInside method ⟨draft, [[]], 0⟩).1
      have checked : compiled.Extends (checkReturns method compiled).2 :=
        (leaves_checkReturns method compiled).extends'
      have completed : (checkReturns method compiled).2.Keeps (defineMethod setting' method draft).2 :=
        Draft.keeps_complete method.routine _ _ _
      exact ((grown.trans checked).keeps.trans completed).trans (keeps_defineMethods rest _)

theorem keeps_defineTypes : (rest : List TypeInfo) → (owner : TypeIndex) → (draft : Draft) →
    draft.Keeps (defineTypes references types owner rest draft).2
  | [], _, draft => (Draft.Extends.refl draft).keeps
  | info :: rest, owner, draft => by
      let setting := Meaning.settingOf references types owner info
      have fields : draft.Extends (defineInitializer setting info.fields draft).2 :=
        (extends_defineInitializer info.fields draft).1
      have functions : Draft.Keeps (defineInitializer setting info.fields draft).2
          (defineType references types owner info draft).2 := keeps_defineMethods info.methods _
      exact (fields.keeps.trans functions).trans (keeps_defineTypes rest (owner + 1) _)

/-- The definitions of types have the names of the types and list their functions. -/
theorem defineTypes_definitions : (rest : List TypeInfo) → (owner : TypeIndex) → (draft : Draft) →
    List.Forall₂ (fun info definition ↦ definition.fullName = info.name.full ∧
        definition.methods = info.methods.map MethodInfo.routine)
      rest (defineTypes references types owner rest draft).1
  | [], _, _ => .nil
  | _ :: rest, owner, _ => .cons ⟨rfl, rfl⟩ (defineTypes_definitions rest (owner + 1) _)

/-! ## Declared types -/

/-- An image has types under their names, with the functions that they list. -/
structure Declares (image : Image) (types : List TypeInfo) : Prop where
  size : image.types.size = types.length
  type : ∀ {owner : TypeIndex} {info : TypeInfo}, types[owner]? = some info →
    ∃ definition, image.types[owner]? = some definition ∧
      definition.fullName = info.name.full ∧
      definition.methods = info.methods.map MethodInfo.routine
  method : ∀ {owner : TypeIndex} {info : TypeInfo} {method : MethodInfo},
    types[owner]? = some info → method ∈ info.methods →
    ∃ code locals, image.routines[method.routine]?
      = some { routineOf owner method.declaration method.parameters with code, locals }

namespace Declares

variable {image : Image}

/-- The types of an image are those of the file, under the same names. -/
theorem names (declares : Declares image types) :
    image.types.toList.map TypeDefinition.fullName = types.map fun info ↦ info.name.full := by
  refine List.ext_getElem? fun position ↦ ?_
  rw [List.getElem?_map, List.getElem?_map, Array.getElem?_toList]
  cases found : types[position]? with
  | some info =>
      obtain ⟨definition, same, name, -⟩ := declares.type found
      rw [same]
      exact congrArg some name
  | none =>
      have outside : image.types.size ≤ position := by
        rw [declares.size]
        exact List.getElem?_eq_none_iff.mp found
      rw [Array.getElem?_eq_none_iff.mpr outside]
      rfl

/-- A type is found at the same position in the image as in the file. -/
theorem findType (declares : Declares image types) (fullName : String) :
    image.findType? fullName = typeNamed? types fullName := by
  have same := congrArg (List.findIdx? fun name ↦ name = fullName) declares.names
  rw [List.findIdx?_map, List.findIdx?_map] at same
  exact (List.findIdx?_toArray _ image.types.toList).trans same

/-- A function is found under its name in the image as it is in the file. -/
theorem findMethod (declares : Declares image types) {owner : TypeIndex} {info : TypeInfo}
    (found : types[owner]? = some info)
    (named : ∀ method ∈ info.methods, method.name = method.declaration.name.name)
    (name : String) :
    image.findMethod? owner name = (methodOf? types owner name).map MethodInfo.routine := by
  obtain ⟨definition, same, -, methods⟩ := declares.type found
  rw [Image.findMethod?, same, methodOf?, found]
  simp only [Option.bind_eq_bind, Option.bind_some, methods, List.find?_map]
  refine congrArg (Option.map MethodInfo.routine) (List.find?_congr fun method inside ↦ ?_)
  obtain ⟨_, _, compiled⟩ := declares.method found inside
  simp only [Function.comp_apply, compiled, named method inside]
  rfl

end Declares

/-! ## The entry -/

theorem leaves_reportEntries (count : Nat) : (candidates : List (TypeInfo × MethodInfo)) →
    Draft.Leaves (reportEntries count candidates)
  | [] => .pure ()
  | _ :: rest => .bind (.note _) fun _ ↦ leaves_reportEntries count rest

theorem leaves_selectEntry (types : List TypeInfo) : Draft.Leaves (selectEntry types) := by
  unfold selectEntry
  split
  · exact .bind (.note _) fun _ ↦ .pure _
  · split
    · exact .pure _
    · exact .bind (.note _) fun _ ↦ .pure _
  · exact .bind (leaves_reportEntries _ _) fun _ ↦ .pure _

/-- What is selected is the only function of its name, and has the signature of an entry. -/
theorem candidate_of_selectEntry {draft : Draft} {entry : EntryPoint} {routine : RoutineIndex}
    (selected : (selectEntry types draft).1 = some (entry, routine)) :
    ∃ info method, entryCandidates types = [(info, method)] ∧ hasEntrySignature method = true ∧
      entry = entryOf info method ∧ routine = method.routine := by
  cases candidates : entryCandidates types with
  | nil =>
      rw [selectEntry, candidates] at selected
      exact absurd selected nofun
  | cons first rest =>
      obtain ⟨info, method⟩ := first
      cases rest with
      | nil =>
          rw [selectEntry, candidates] at selected
          cases signature : hasEntrySignature method with
          | true =>
              simp only [signature, if_pos] at selected
              obtain ⟨rfl, rfl⟩ := Prod.mk.inj (Option.some.inj selected)
              exact ⟨info, method, rfl, signature, rfl, rfl⟩
          | false =>
              simp only [signature, Bool.false_eq_true, if_neg, not_false_iff] at selected
              exact absurd selected nofun
      | cons second rest =>
          rw [selectEntry, candidates] at selected
          exact absurd selected nofun

/-- If there is nothing to select, an error is reported. -/
theorem isSome_selectEntry {draft : Draft} (quiet : (selectEntry types draft).2.Quiet) :
    (selectEntry types draft).1.isSome = true := by
  rw [selectEntry] at quiet ⊢
  cases candidates : entryCandidates types with
  | nil =>
      rw [candidates] at quiet
      exact absurd rfl (quiet _ List.mem_cons_self)
  | cons first rest =>
      obtain ⟨info, method⟩ := first
      rw [candidates] at quiet
      cases rest with
      | nil =>
          cases signature : hasEntrySignature method with
          | true => simp only [signature, if_true]; rfl
          | false =>
              simp only [signature, Bool.false_eq_true, if_false] at quiet
              exact absurd quiet (Draft.Adds.not_quiet_report fun _ ↦ .pure _)
      | cons second rest =>
          have reported : ((reportEntries _ (_ :: second :: rest)) draft).2.Quiet :=
            Draft.Adds.quiet_of_bind (fun _ ↦ .pure _) quiet
          exact absurd reported (Draft.Adds.not_quiet_report fun _ ↦
            (leaves_reportEntries _ _).adds)

theorem mem_entryCandidates {info : TypeInfo} {method : MethodInfo} :
    (info, method) ∈ entryCandidates types ↔
      info ∈ types ∧ method ∈ info.methods ∧ method.name = entryName := by
  simp [entryCandidates, and_assoc]

/-- The only function of the name of the entry is found under it. -/
theorem methodOf_of_candidate {info : TypeInfo} {method : MethodInfo} {owner : TypeIndex}
    (only : entryCandidates types = [(info, method)]) (found : types[owner]? = some info) :
    methodOf? types owner entryName = some method := by
  obtain ⟨-, member, named⟩ := mem_entryCandidates.mp (only ▸ List.mem_singleton_self _)
  have some : (info.methods.find? fun method ↦ method.name = entryName).isSome := by
    rw [List.find?_isSome]
    exact ⟨method, member, decide_eq_true named⟩
  obtain ⟨first, known⟩ := Option.isSome_iff_exists.mp some
  have candidate : (info, first) ∈ entryCandidates types := by
    have named' : first.name = entryName := by simpa using List.find?_some known
    exact mem_entryCandidates.mpr
      ⟨List.mem_of_getElem? found, List.mem_of_find?_eq_some known, named'⟩
  rw [only, List.mem_singleton] at candidate
  obtain rfl := (Prod.mk.inj candidate).2
  rw [methodOf?, found]
  exact known

/-- A type is found under its full name, since there is no other type of that name. -/
theorem typeNamed_of_distinct {info : TypeInfo} {owner : TypeIndex}
    (distinct : (types.map fun info ↦ info.name.full).Nodup) (found : types[owner]? = some info) :
    typeNamed? types info.name.full = some owner := by
  obtain ⟨inside, same⟩ := List.getElem?_eq_some_iff.mp found
  refine List.findIdx?_eq_some_iff_getElem.mpr ⟨inside, by simp [same], fun earlier before ↦ ?_⟩
  intro named
  have positions := (List.nodup_iff_getElem?_ne_getElem?.mp distinct) earlier owner before
    (by rwa [List.length_map])
  refine positions ?_
  rw [List.getElem?_map, List.getElem?_map, found,
    List.getElem?_eq_getElem (Nat.lt_trans before inside)]
  exact congrArg some (of_decide_eq_true named)

/-- The only function of the name of the entry is found by its names. -/
theorem findEntry_of_candidate {image : Image} {draft : Draft} {info : TypeInfo}
    {method : MethodInfo} (declares : Declares image types) (declared : Declared types draft)
    (only : entryCandidates types = [(info, method)]) :
    ∃ owner, types[owner]? = some info ∧
      Session.findEntry image (entryOf info method) = .ok (owner, method.routine) := by
  obtain ⟨listed, inside, named⟩ :=
    mem_entryCandidates.mp (only ▸ List.mem_singleton_self (info, method))
  obtain ⟨owner, here⟩ := List.getElem?_of_mem listed
  have called : ∀ method ∈ info.methods, method.name = method.declaration.name.name :=
    fun method inside ↦ ((declared.reserved.each here).methods.each method inside).name
  obtain ⟨_, _, compiled⟩ := declares.method here inside
  refine ⟨owner, here, Session.findEntry_eq_ok_iff.mpr ⟨?_, ?_, _, compiled, ?_⟩⟩
  · exact (declares.findType _).trans (typeNamed_of_distinct declared.names here)
  · rw [declares.findMethod here called]
    change (methodOf? types owner method.name).map _ = _
    rw [named, methodOf_of_candidate only here]
    rfl
  · change Session.bindingAgrees (if method.isStatic then _ else _)
      (if method.declaration.isStatic then _ else _) = true
    rw [MethodInfo.isStatic]
    split <;> rfl

/-- Choosing an entry adds findings at most. -/
theorem notes_compileFile (references : ReferenceSet) (kind : OutputKind) (file : File) :
    let types := typesOf references file
    let defined := defineTypes references types 0 types (declare references file .empty).2
    (compileFile references kind file .empty).1.1 = defined.1 ∧
      defined.2.Notes (compileFile references kind file .empty).2 := by
  intro types defined
  cases kind with
  | library => exact ⟨rfl, .refl _⟩
  | executable => exact ⟨rfl, leaves_selectEntry types defined.2⟩

/-- What a file without errors declares is in order, and its image declares it. -/
theorem declares_of_quiet {kind : OutputKind} (unitName : String) (chained : file.isChained = true)
    (quiet : (compileFile references kind file .empty).2.Quiet) :
    ∃ draft, Declared (typesOf references file) draft ∧
      Declares (compileUnit references kind unitName file).image
        (typesOf references file) := by
  let types := typesOf references file
  let drafted := (declare references file .empty).2
  obtain ⟨definitions, notes⟩ := notes_compileFile references kind file
  have keeps : drafted.Keeps (compileFile references kind file .empty).2 :=
    (keeps_defineTypes types 0 drafted).trans notes.extends'.keeps
  have quiet' : drafted.Quiet := by
    have fills : drafted.Fills _ (defineTypes references types 0 types drafted).2 :=
      fills_defineTypes types 0 drafted
    obtain ⟨added, findings⟩ := fills.findings
    intro finding inside
    exact quiet.of_extends notes.extends' finding (findings ▸ List.mem_append_right added inside)
  have declared : Declared types drafted := declared_of_quiet chained quiet'
  have listed : List.Forall₂ _ types (defineTypes references types 0 types drafted).1 :=
    defineTypes_definitions types 0 drafted
  have same : (compileUnit references kind unitName file).image.types
      = (defineTypes references types 0 types drafted).1.toArray := congrArg _ definitions
  refine ⟨drafted, declared, ?_, fun {owner info} here ↦ ?_, fun {owner info method} here inside ↦ ?_⟩
  · rw [same, List.size_toArray, listed.length_eq]
  · have inside : owner < (defineTypes references types 0 types drafted).1.length :=
      listed.length_eq ▸ (List.getElem?_eq_some_iff.mp here).1
    have pair := listed.get (List.getElem?_eq_some_iff.mp here).1 inside
    rw [List.get_eq_getElem, List.get_eq_getElem, (List.getElem?_eq_some_iff.mp here).2] at pair
    exact ⟨_, by rw [same, List.getElem?_toArray, List.getElem?_eq_getElem inside], pair⟩
  · have reserved := (declared.reserved.each here).methods.each method inside
    rw [Nat.zero_add] at reserved
    exact keeps _ _ reserved.routine

end Compile

end GuestScript
