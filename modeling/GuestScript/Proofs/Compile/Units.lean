import GuestScript.Proofs.Compile.Declared
import GuestScript.Proofs.Compile.Lowering

/-!
# The code of units

The routines of functions are reserved before any body is compiled, and given their code one after
the other. `Draft.Fills` says which routines this changes, and `Draft.Agrees pending draft` that a
program has all that a draft has, but for the routines whose code is still to come. Followed from
the last function back to the first one, this makes every routine of the program that of its
function.
-/

namespace GuestScript.Compile

open Bytecode (Op Routine RoutineIndex TypeDefinition TypeIndex)
open Lowering
open Machine (Program)
open Meaning
open Syntax

/-! ## Giving routines their code -/

namespace Draft

/-- One draft has all that another one has, but for the code of these routines. -/
structure Fills (filled : List RoutineIndex) (before after : Draft) : Prop where
  findings : ∃ added, after.findings = added ++ before.findings
  imports : ∀ {index : Nat} {imported : Bytecode.Import}, before.imports[index]? = some imported →
    after.imports[index]? = some imported
  size : before.routines.size ≤ after.routines.size
  routines : ∀ {index : Nat}, index < before.routines.size → index ∉ filled →
    after.routines[index]? = before.routines[index]?

variable {before middle after : Draft} {filled others pending : List RoutineIndex}

theorem Extends.fills (grown : before.Extends after) : before.Fills [] after :=
  ⟨grown.findings, grown.imports, grown.size, fun inside _ ↦ grown.routines inside⟩

theorem Fills.trans (first : Fills filled before middle) (second : Fills others middle after) :
    Fills (filled ++ others) before after := by
  obtain ⟨added, same⟩ := first.findings
  obtain ⟨more, same'⟩ := second.findings
  refine ⟨⟨more ++ added, by rw [same', same, List.append_assoc]⟩,
    fun known ↦ second.imports (first.imports known), Nat.le_trans first.size second.size, ?_⟩
  intro index inside apart
  rw [List.mem_append, not_or] at apart
  rw [second.routines (Nat.lt_of_lt_of_le inside first.size) apart.2,
    first.routines inside apart.1]

theorem fills_complete (index : RoutineIndex) (code : List Op) (locals : Nat) (draft : Draft) :
    Fills [index] draft (complete index code locals draft).2 := by
  refine ⟨⟨[], rfl⟩, id, Nat.le_of_eq Array.size_modify.symm, ?_⟩
  intro other _ apart
  have different : index ≠ other := fun same ↦ apart (List.mem_singleton.mpr same.symm)
  exact Array.getElem?_modify.trans (if_neg different)

/-- A reserved routine that is completed has its code. -/
theorem complete_routine {index : RoutineIndex} {routine : Routine} {code : List Op} {locals : Nat}
    (reserved : before.routines[index]? = some routine) :
    (complete index code locals before).2.routines[index]?
      = some { routine with code := code.toArray, locals } := by
  refine Array.getElem?_modify.trans ?_
  rw [if_pos rfl, reserved]
  rfl

/-- A program has all that a draft has, but for routines whose code is still to come. -/
structure Agrees (program : Program) (references : ReferenceSet) (pending : List RoutineIndex)
    (draft : Draft) : Prop where
  quiet : draft.Quiet
  routines : ∀ {index : Nat}, index < draft.routines.size → index ∉ pending →
    program.image.routines[index]? = draft.routines[index]?
  hosts : ∀ {index : Nat} {imported : Bytecode.Import} {binding : ModuleBinding}
    {function : HostFunction}, draft.imports[index]? = some imported →
    references.lookup? imported.moduleName = some binding →
    binding.host.function? imported.function = some function →
    program.hosts[index]?
      = some ⟨imported.moduleName ++ "::" ++ imported.function, function.action⟩

variable {program : Program} {references : ReferenceSet}

/-- A routine that is given its code is in the program, if its code is not still to come. -/
theorem Agrees.complete {index : RoutineIndex} {routine : Routine} {code : List Op} {locals : Nat}
    (reserved : before.routines[index]? = some routine) (apart : index ∉ pending)
    (agrees : Agrees program references pending (Draft.complete index code locals before).2) :
    program.image.routines[index]? = some { routine with code := code.toArray, locals } := by
  have final : (Draft.complete index code locals before).2.routines[index]?
      = some { routine with code := code.toArray, locals } := complete_routine reserved
  rw [agrees.routines (Array.getElem?_eq_some_iff.mp final).1 apart, final]

/-- Before some routines are given their code, a program agrees but for these. -/
theorem Agrees.earlier (agrees : Agrees program references pending after)
    (fills : Fills filled before after) : Agrees program references (filled ++ pending) before := by
  refine ⟨?_, ?_, fun known ↦ agrees.hosts (fills.imports known)⟩
  · obtain ⟨added, same⟩ := fills.findings
    exact fun finding inside ↦ agrees.quiet finding (same ▸ List.mem_append_right added inside)
  · intro index inside apart
    rw [List.mem_append, not_or] at apart
    rw [agrees.routines (Nat.lt_of_lt_of_le inside fills.size) apart.2,
      fills.routines inside apart.1]

/-- What is added while older routines are still to come is installed. -/
theorem Agrees.installed (agrees : Agrees program references pending after)
    (older : ∀ index ∈ pending, index < before.routines.size) :
    Installed program references before after :=
  ⟨agrees.quiet, fun later inside ↦ agrees.routines inside fun waiting ↦
    Nat.not_lt.mpr later (older _ waiting), agrees.hosts⟩

end Draft

variable {program : Program} {references : ReferenceSet} {setting : Setting} {number : Nat}

/-! ## Fields -/

theorem steady_firstValueCode (field : FieldInfo) (start : Nat) :
    Steady ((field.value.map lambdasIn).getD 0) (firstValueCode setting field start) := by
  rw [firstValueCode]
  cases field.value with
  | some value => exact (steady_expression setting value _ _).before fun _ ↦ (steady_check _ _ _).map
  | none => exact .pure _

theorem steady_initializeFields (receiver : Nat) : (fields : List FieldInfo) → (position : Nat) →
    (before : List Op) → (start : Nat) →
    Steady (lambdasInFields fields) (initializeFields setting receiver fields position before start)
  | [], _, _, _ => .pure _
  | field :: rest, _, _, _ =>
      (steady_firstValueCode field _).bind
        (fun _ ↦ steady_initializeFields receiver rest _ _ _) rfl

theorem gives_firstValueCode (proper : setting.IsProper) {field : FieldInfo}
    (fieldProper : field.IsProper) (start : Nat) :
    Gives program setting.home [] number (firstValueCode setting field start) fun code ↦
      (field.value = none ∧ code = [defaultValue field.type]) ∨
        ∃ value, field.value = some value ∧
          ExpressionCode program setting [] number value (some field.type) start code ∧
          field.type.admits (typeOf setting.site [] value (some field.type)) = true := by
  rw [firstValueCode]
  cases same : field.value with
  | none => exact .pure (.inl ⟨rfl, rfl⟩)
  | some value =>
      have given : Translates program setting value (expression setting value) :=
        translates_expression proper value (fieldProper.chained value same)
      have empty : Scope.IsClosed ([] : Scope Nat) := nofun
      have closed : ∀ wanted ∈ some field.type, wanted.IsClosed := fun _ same ↦
        Option.some.inj same ▸ fieldProper.closed
      refine .bind (given.gives empty closed start) (given.steady _ _)
        (fun _ ↦ (steady_check _ _ _).map.1) fun typed translated ↦ .map (.mono .check ?_)
      intro _ admitted
      exact .inr ⟨value, rfl, translated.code, translated.type ▸ admitted⟩

/-- What the fields of a type are given their first values by is the code for it. -/
theorem gives_initializeFields (proper : setting.IsProper) :
    (fields : List FieldInfo) → (∀ field ∈ fields, field.IsProper) → (number position : Nat) →
    (before : List Op) → (start : Nat) →
    Gives program setting.home [] number
      (initializeFields setting 0 fields position before start) fun code ↦
        ∃ rest, code = before.reverse ++ rest ∧
          FieldsCode program setting number fields position start rest
  | [], _, _, _, _, _ => .pure ⟨[], (List.append_nil _).symm, .nil⟩
  | field :: rest, fields, number, position, before, start => by
      have here := fields field List.mem_cons_self
      have others : ∀ field ∈ rest, field.IsProper := fun other inside ↦
        fields other (List.mem_cons_of_mem _ inside)
      rw [initializeFields]
      refine .bind (gives_firstValueCode proper here (start + 1)) (steady_firstValueCode field _)
        (fun _ ↦ (steady_initializeFields 0 rest _ _ _).1) fun value given ↦ ?_
      refine (gives_initializeFields proper rest others _ _ _ _).mono ?_
      rintro _ ⟨code, rfl, translated⟩
      refine ⟨[.load 0] ++ value ++ [.storeField position] ++ code, ?_, ?_⟩
      · rw [List.reverse_append, List.reverse_reverse, List.append_assoc]
      · have length : start + ([Op.load 0] ++ value ++ [Op.storeField position]).length
            = start + value.length + 2 := by
          simp only [List.length_append, List.length_singleton]
          omega
        rw [length] at translated
        obtain ⟨none, rfl⟩ | ⟨given, some, expressed, admitted⟩ := given
        · rw [none] at translated
          exact .default none translated
        · rw [some] at translated
          exact .given some expressed admitted translated

theorem grows_initializerInside (fields : List FieldInfo) :
    Grows (lambdasInFields fields) (initializerInside setting fields) :=
  grows_allocate.after fun _ ↦ (steady_initializeFields _ fields _ _ _).1

theorem leads_initializerInside (proper : setting.IsProper) {fields : List FieldInfo}
    (fieldsProper : ∀ field ∈ fields, field.IsProper) :
    Leads program setting.home [[]] 0 number (initializerInside setting fields)
      fun code _ after ↦ after = 1 ∧
        FieldsCode program { setting with receiver := some 0 } number fields 0 0 code := by
  have proper' : Setting.IsProper { setting with receiver := some 0 } := { proper with }
  refine .allocate_bind ((Leads.of_gives
    (gives_initializeFields proper' fields fieldsProper number 0 [] 0)
    (steady_initializeFields 0 fields 0 [] 0)).mono ?_)
  rintro _ _ _ ⟨⟨code, rfl, translated⟩, -, rfl⟩
  exact ⟨rfl, translated⟩

/-! ## Functions -/

/-- The setting of the routine of a function, given that of its type. -/
def Setting.ofMethod (setting : Setting) (method : MethodInfo) : Setting :=
  { setting with routineName := method.name, result := method.result }

theorem grows_methodInside (method : MethodInfo) :
    Grows (lambdasInBlock method.declaration.body) (methodInside setting method) := by
  have rest (receiver : Option Nat) : Grows (lambdasInBlock method.declaration.body) (do
      declareParameters
        ((method.declaration.parameters.map Syntax.Parameter.name).zip method.parameters)
      block { setting with receiver } method.declaration.body 0) :=
    (grows_declareParameters _).after fun _ ↦ grows_block _ _ _
  unfold methodInside
  split
  · exact Grows.after (.pure _) rest
  · exact grows_allocate.after fun _ ↦ Grows.after (.pure _) rest

theorem leads_methodInside (proper : setting.IsProper) {method : MethodInfo}
    (closed : ∀ wanted ∈ method.parameters, wanted.IsClosed)
    (count : method.declaration.parameters.length = method.parameters.length)
    (chained : method.declaration.isChained = true) :
    Leads program setting.home [[]] 0 number (methodInside setting method)
      fun code _ after ↦ BlockCode program
        { setting with receiver := if method.isStatic then none else some 0 }
        (inSlots (parametersOf method) (if method.isStatic then 0 else 1))
        (method.parameters.length + if method.isStatic then 0 else 1) number
        method.declaration.body 0 code after := by
  let names := method.declaration.parameters.map Syntax.Parameter.name
  have length : (names.zip method.parameters).length = method.parameters.length := by
    rw [List.length_zip, List.length_map, count, Nat.min_self]
  have rest (receiver : Option Nat) (first : Nat) :
      Leads program setting.home [[]] first number (do
        declareParameters (names.zip method.parameters)
        block { setting with receiver } method.declaration.body 0) fun code _ after ↦
          BlockCode program { setting with receiver } (inSlots (parametersOf method) first)
            (method.parameters.length + first) number method.declaration.body 0 code after := by
    have proper' : Setting.IsProper { setting with receiver } := { proper with }
    have given : TranslatesBlock program { setting with receiver } method.declaration.body
        (block { setting with receiver } method.declaration.body) :=
      translatesBlock_block proper' method.declaration.body chained
    have view : ((inSlots (declaredPairs (names.zip method.parameters)) first ++ []) :: []).flatten
        = inSlots (parametersOf method) first := by
      rw [List.flatten_cons, List.flatten_nil, List.append_nil, List.append_nil]
      rfl
    have closed' : (inSlots (parametersOf method) first).IsClosed :=
      isClosed_inSlots first (isClosed_declared closed)
    refine leads_declareParameters (grows_block _ _ _)
      ((given.leads (view.symm ▸ closed') 0).mono ?_)
    rintro code _ after ⟨-, translated⟩
    rw [view, length, Nat.add_comm] at translated
    exact translated
  unfold methodInside
  split
  · exact .pure_bind (rest none 0)
  · exact .allocate_bind (.pure_bind (rest (some 0) 1))

variable {owner : TypeIndex} {draft : Draft} {pending : List RoutineIndex}

theorem MethodInfo.IsReserved.fills {after : Draft} {filled : List RoutineIndex}
    {method : MethodInfo} (reserved : method.IsReserved draft owner)
    (fills : draft.Fills filled after) (apart : method.routine ∉ filled) :
    method.IsReserved after owner :=
  { reserved with routine := (fills.routines reserved.inside apart).trans reserved.routine }

theorem leaves_checkReturns (method : MethodInfo) : Draft.Leaves (checkReturns method) := by
  unfold checkReturns
  split
  · exact .note _
  · exact .pure ()

theorem returns_of_quiet {method : MethodInfo} (quiet : (checkReturns method draft).2.Quiet) :
    (returnsNothing method.result || blockReturns method.declaration.body) = true := by
  unfold checkReturns at quiet
  split at quiet
  · exact absurd quiet (Draft.not_quiet_report _ _ _ draft)
  · next allowed =>
      rwa [← Bool.not_or, Bool.not_eq_true', Bool.not_eq_false] at allowed

/-- Compiling a function gives its routine its code. -/
theorem fills_defineMethod (method : MethodInfo) (draft : Draft) :
    Draft.Fills [method.routine] draft (defineMethod setting method draft).2 ∧
      (defineMethod setting method draft).2.lambdas
        = draft.lambdas + lambdasInBlock method.declaration.body := by
  obtain ⟨grown, numbered⟩ :
      draft.Extends (alone (methodInside setting method) draft).2 ∧ _ = draft.lambdas + _ :=
    grows_methodInside method ⟨draft, [[]], 0⟩
  obtain ⟨grown', numbered'⟩ :=
    (leaves_checkReturns method).adds (alone (methodInside setting method) draft).2
  exact ⟨(grown.trans grown').fills.trans (Draft.fills_complete _ _ _ _), numbered'.trans numbered⟩

/-- The routine of a function has the code of the function, and what is added with it are
lambdas. -/
theorem methodCode_of_agrees {types : List TypeInfo} {info : TypeInfo} {method : MethodInfo}
    (proper : ((settingOf references types owner info).ofMethod method).IsProper)
    (reserved : method.IsReserved draft owner) (apart : method.routine ∉ pending)
    (older : ∀ index ∈ pending, index < draft.routines.size)
    (agrees : Draft.Agrees program references pending
      (defineMethod ((settingOf references types owner info).ofMethod method) method draft).2) :
    MethodCode program references types owner info draft.lambdas method ∧
      draft.AddsLambdas program ⟨references, types⟩
        (defineMethod ((settingOf references types owner info).ofMethod method) method draft).2 := by
  let setting := (settingOf references types owner info).ofMethod method
  let compiled := alone (methodInside setting method) draft
  let checked := (checkReturns method compiled.2).2
  have grown : draft.Extends compiled.2 := (grows_methodInside method ⟨draft, [[]], 0⟩).1
  have grown' : compiled.2.Extends checked := (leaves_checkReturns method compiled.2).extends'
  have before : Draft.Agrees program references ([method.routine] ++ pending) checked :=
    agrees.earlier (Draft.fills_complete _ _ _ checked)
  have installed : Installed program references draft compiled.2 :=
    (before.installed (List.forall_mem_cons.mpr ⟨reserved.inside, older⟩)).first grown'
  have added := agrees.complete (reserved.extends (grown.trans grown')).routine apart
  obtain ⟨code, lambdas⟩ := leads_methodInside proper reserved.parameters reserved.count
    reserved.chained ⟨draft, [[]], 0⟩ rfl rfl rfl installed
  refine ⟨.mk added reserved.count (returns_of_quiet before.quiet) code, lambdas.trans (.none ?_)⟩
  exact Nat.le_of_eq (Array.size_modify.trans
    (congrArg Array.size (leaves_checkReturns method compiled.2).routines))

/-- Compiling functions gives their routines their code. -/
theorem fills_defineMethods : (methods : List MethodInfo) → (draft : Draft) →
    Draft.Fills (methods.map MethodInfo.routine) draft (defineMethods setting methods draft).2 ∧
      (defineMethods setting methods draft).2.lambdas = draft.lambdas + lambdasInMethods methods
  | [], draft => ⟨(Draft.Extends.refl draft).fills, rfl⟩
  | method :: rest, draft => by
      let middle := (defineMethod (setting.ofMethod method) method draft).2
      obtain ⟨first, numbered⟩ : Draft.Fills [method.routine] draft middle ∧
        middle.lambdas = _ := fills_defineMethod method draft
      obtain ⟨others, numbered'⟩ := fills_defineMethods rest middle
      refine ⟨first.trans others, numbered'.trans ?_⟩
      rw [numbered, Nat.add_assoc]
      rfl

/-- The signatures that a type may refer to make every setting in it a proper one. -/
def AreProper (references : ReferenceSet) (types : List TypeInfo) : Prop :=
  ∀ {owner : TypeIndex} {info : TypeInfo}, types[owner]? = some info →
    (settingOf references types owner info).IsProper

theorem methodsCode_of_agrees {types : List TypeInfo} {info : TypeInfo}
    (proper : AreProper references types) (found : types[owner]? = some info) :
    (methods : List MethodInfo) → (draft : Draft) →
    (∀ method ∈ methods, method.IsReserved draft owner) →
    (methods.map MethodInfo.routine ++ pending).Nodup →
    (∀ index ∈ pending, index < draft.routines.size) →
    Draft.Agrees program references pending
      (defineMethods (settingOf references types owner info) methods draft).2 →
    draft.AddsLambdas program ⟨references, types⟩
        (defineMethods (settingOf references types owner info) methods draft).2 ∧
      ∀ {earlier : List MethodInfo} {method : MethodInfo} {later : List MethodInfo},
        methods = earlier ++ method :: later →
        MethodCode program references types owner info (draft.lambdas + lambdasInMethods earlier)
          method
  | [], _, _, _, _, _ =>
      ⟨.none (Nat.le_refl _), fun {earlier _ _} split ↦
        absurd split (by cases earlier <;> exact nofun)⟩
  | first :: rest, draft, reserved, distinct, older, agrees => by
      let setting := settingOf references types owner info
      let middle := (defineMethod (setting.ofMethod first) first draft).2
      obtain ⟨fills, numbered⟩ : Draft.Fills [first.routine] draft middle ∧
        middle.lambdas = _ := fills_defineMethod first draft
      have others : middle.Fills (rest.map MethodInfo.routine)
        (defineMethods setting rest middle).2 := (fills_defineMethods rest middle).1
      obtain ⟨apart, distinct'⟩ := List.nodup_cons.mp distinct
      have reserved' : ∀ method ∈ rest, method.IsReserved draft owner := fun method inside ↦
        reserved method (List.mem_cons_of_mem _ inside)
      have older' : ∀ index ∈ rest.map MethodInfo.routine ++ pending,
          index < draft.routines.size := by
        refine List.forall_mem_append.mpr ⟨?_, older⟩
        exact List.forall_mem_map.mpr fun method inside ↦ (reserved' method inside).inside
      have here := reserved first List.mem_cons_self
      -- the rest leaves the routine of the first function as it is, so the program has it as it is
      -- now
      obtain ⟨code, lambdas⟩ := methodCode_of_agrees
        { proper found with result := here.result } here apart older' (agrees.earlier others)
      have apart' : ∀ other ∈ rest, other.routine ∉ [first.routine] := by
        intro other inside same
        rw [List.mem_singleton] at same
        exact apart (List.mem_append_left _ (List.mem_map.mpr ⟨other, inside, same⟩))
      obtain ⟨lambdas', codes⟩ := methodsCode_of_agrees proper found rest middle
        (fun other inside ↦ (reserved' other inside).fills fills (apart' other inside))
        distinct' (fun index inside ↦ Nat.lt_of_lt_of_le (older index inside) fills.size) agrees
      refine ⟨lambdas.trans lambdas', ?_⟩
      intro earlier method later split
      -- the lambdas of the functions before are counted in the order in which they are compiled
      cases earlier with
      | nil =>
          obtain ⟨rfl, rfl⟩ := List.cons.inj split
          exact code
      | cons _ earlier =>
          obtain ⟨rfl, same⟩ := List.cons.inj split
          have code := codes same
          rw [numbered, Nat.add_assoc] at code
          exact code

/-! ## Types -/

/-- The routine that gives fields their first values is added, if there are fields. -/
theorem extends_defineInitializer (fields : List FieldInfo) (draft : Draft) :
    draft.Extends (defineInitializer setting fields draft).2 ∧
      (defineInitializer setting fields draft).2.lambdas
        = draft.lambdas + lambdasInFields fields := by
  cases fields with
  | nil => exact ⟨.refl draft, rfl⟩
  | cons first rest =>
      exact extends_addRoutine (initializerRoutine setting.owner) (fun code ↦ code ++ epilogue)
        (grows_initializerInside (first :: rest)) draft

/-- Every routine that was added between two drafts is one of the routines of these types. -/
def Draft.AddsRoutines (program : Program) (references : ReferenceSet) (types : List TypeInfo)
    (before after : Draft) : Prop :=
  ∀ index, before.routines.size ≤ index → index < after.routines.size →
    RoutineCode program references types index

theorem Draft.AddsLambdas.routines {types : List TypeInfo} {before after : Draft}
    (lambdas : before.AddsLambdas program ⟨references, types⟩ after) :
    before.AddsRoutines program references types after :=
  fun index later inside ↦ .lambda (lambdas index later inside)

theorem Draft.AddsRoutines.trans {types : List TypeInfo} {before middle after : Draft}
    (first : before.AddsRoutines program references types middle)
    (second : middle.AddsRoutines program references types after) :
    before.AddsRoutines program references types after := by
  intro index later inside
  by_cases early : index < middle.routines.size
  · exact first index later early
  · exact second index (Nat.le_of_not_lt early) inside

/-- The routine that gives fields their first values has the code for it. -/
theorem initializerCode_of_installed {types : List TypeInfo} {info : TypeInfo}
    (proper : AreProper references types) (found : types[owner]? = some info)
    (fields : ∀ field ∈ info.fields, field.IsProper)
    (installed : Installed program references draft
      (defineInitializer (settingOf references types owner info) info.fields draft).2) :
    (match (defineInitializer (settingOf references types owner info) info.fields draft).1 with
    | none => info.fields = []
    | some index => info.fields ≠ [] ∧
        InitializerCode program references types owner info draft.lambdas index) ∧
    draft.AddsRoutines program references types
      (defineInitializer (settingOf references types owner info) info.fields draft).2 := by
  rw [defineInitializer] at installed ⊢
  cases empty : info.fields.isEmpty with
  | true =>
      refine ⟨List.isEmpty_iff.mp empty, Draft.AddsLambdas.routines (.none ?_)⟩
      exact Nat.le_refl _
  | false =>
      rw [empty, if_neg Bool.false_ne_true] at installed
      change Installed program references draft (addRoutine (initializerRoutine owner)
        (fun code ↦ code ++ epilogue)
        (initializerInside (settingOf references types owner info) info.fields) draft).2 at installed
      rw [if_neg Bool.false_ne_true]
      obtain ⟨⟨locals, added, rfl, code⟩, lambdas⟩ := addRoutine_installed
        (leads_initializerInside (proper found) fields) (grows_initializerInside _) rfl installed
      have translated : InitializerCode program references types owner info draft.lambdas
          draft.routines.size := .mk added code
      refine ⟨⟨fun none ↦ absurd (none ▸ empty) nofun, translated⟩, fun index later inside ↦ ?_⟩
      obtain rfl | later := Nat.eq_or_lt_of_le later
      · exact .initializer found translated
      · exact .lambda (lambdas index (Array.size_push _ ▸ later) inside)

/-- Compiling a type gives the routines of its functions their code. -/
theorem fills_defineType {types : List TypeInfo} (info : TypeInfo) (draft : Draft) :
    draft.Fills (info.methods.map MethodInfo.routine)
        (defineType references types owner info draft).2 ∧
      (defineType references types owner info draft).2.lambdas
        = draft.lambdas + (lambdasInFields info.fields + lambdasInMethods info.methods) := by
  let setting := settingOf references types owner info
  have first : draft.Extends (defineInitializer setting info.fields draft).2 ∧ _ :=
    extends_defineInitializer info.fields draft
  have rest : Draft.Fills _ _ (defineMethods setting info.methods
      (defineInitializer setting info.fields draft).2).2 ∧ _ := fills_defineMethods info.methods _
  obtain ⟨grown, numbered⟩ := first
  obtain ⟨fills, numbered'⟩ := rest
  exact ⟨grown.fills.trans fills, numbered'.trans (by rw [numbered, Nat.add_assoc])⟩

/-- The functions before the one of a name are those before it in the list. -/
theorem takeWhile_name {earlier later : List MethodInfo} {method : MethodInfo}
    (distinct : ((earlier ++ method :: later).map MethodInfo.name).Nodup) :
    (earlier ++ method :: later).takeWhile (fun other ↦ other.name ≠ method.name) = earlier := by
  induction earlier with
  | nil => simp
  | cons first rest ih =>
      rw [List.cons_append, List.map_cons, List.nodup_cons] at distinct
      have different : first.name ≠ method.name := by
        intro same
        refine distinct.1 (same ▸ List.mem_map_of_mem (f := MethodInfo.name) ?_)
        exact List.mem_append_right rest List.mem_cons_self
      rw [List.cons_append, List.takeWhile_cons, if_pos (decide_eq_true different), ih distinct.2]

/-- What a type is compiled to is its definition, with the code of its routines. Only lambdas and the
routine for its fields are added. -/
theorem typeCode_of_agrees {types : List TypeInfo} {info : TypeInfo}
    (proper : AreProper references types) (found : types[owner]? = some info)
    (reserved : info.IsReserved draft owner)
    (distinct : (info.methods.map MethodInfo.routine ++ pending).Nodup)
    (older : ∀ index ∈ pending, index < draft.routines.size)
    (numbered : draft.lambdas = lambdasBeforeFields types owner)
    (agrees : Draft.Agrees program references pending
      (defineType references types owner info draft).2) :
    TypeCode program references types owner info
        (defineType references types owner info draft).1 ∧
      draft.AddsRoutines program references types
        (defineType references types owner info draft).2 := by
  let setting := settingOf references types owner info
  let middle := (defineInitializer setting info.fields draft).2
  have grown : draft.Extends middle ∧ middle.lambdas = _ :=
    extends_defineInitializer info.fields draft
  have fills : Draft.Fills _ middle (defineMethods setting info.methods middle).2 :=
    (fills_defineMethods info.methods middle).1
  -- while the fields are compiled, the routines of the functions are still to be filled
  have agrees' : Draft.Agrees program references (info.methods.map MethodInfo.routine ++ pending)
      middle := agrees.earlier fills
  have older' : ∀ index ∈ info.methods.map MethodInfo.routine ++ pending,
      index < draft.routines.size := by
    refine List.forall_mem_append.mpr ⟨?_, older⟩
    exact List.forall_mem_map.mpr fun method inside ↦ (reserved.methods.each method inside).inside
  obtain ⟨lambdas, methods⟩ := methodsCode_of_agrees proper found info.methods middle
    (fun method inside ↦ (reserved.methods.each method inside).extends grown.1) distinct
    (fun index inside ↦ Nat.lt_of_lt_of_le (older index inside) grown.1.size) agrees
  obtain ⟨initializer, routines⟩ := initializerCode_of_installed proper found reserved.fields
    (agrees'.installed older')
  refine ⟨⟨rfl, rfl, rfl, ?_, ?_⟩, routines.trans lambdas.routines⟩
  · intro method inside
    obtain ⟨earlier, later, split⟩ := List.append_of_mem inside
    -- the evaluator numbers the lambdas of a function by its name, the compiler by its place
    have number : lambdasBeforeMethod types owner method.name
        = middle.lambdas + lambdasInMethods earlier := by
      have names := reserved.methods.names
      rw [split] at names
      rw [lambdasBeforeMethod, found]
      simp only [split, takeWhile_name names]
      rw [grown.2, numbered]
    rw [number]
    exact methods split
  · rw [← numbered]
    exact initializer

/-- Compiling types gives the routines of their functions their code. -/
theorem fills_defineTypes {types : List TypeInfo} : (rest : List TypeInfo) → (owner : TypeIndex) →
    (draft : Draft) →
    draft.Fills (routinesOf rest) (defineTypes references types owner rest draft).2
  | [], _, draft => (Draft.Extends.refl draft).fills
  | info :: rest, owner, draft =>
      (fills_defineType info draft).1.trans (fills_defineTypes rest (owner + 1) _)

theorem TypesReserved.older {types : List TypeInfo} {first : RoutineIndex}
    (reserved : TypesReserved draft owner first types) :
    ∀ index ∈ routinesOf types, index < draft.routines.size := by
  intro index taken
  obtain ⟨info, inside, taken⟩ := List.mem_flatMap.mp taken
  obtain ⟨method, inside', rfl⟩ := List.mem_map.mp taken
  obtain ⟨position, found⟩ := List.getElem?_of_mem inside
  exact ((reserved.each found).methods.each method inside').inside

/-- The routines of later types stay reserved while a type is compiled. -/
theorem TypesReserved.rest {after : Draft} {info : TypeInfo} {types : List TypeInfo}
    {first : RoutineIndex} (reserved : TypesReserved draft owner first (info :: types))
    (fills : draft.Fills (info.methods.map MethodInfo.routine) after) :
    TypesReserved after (owner + 1) first types := by
  obtain ⟨-, distinct, apart⟩ := List.nodup_append.mp reserved.routines
  refine ⟨?_, distinct, fun routine taken ↦
    reserved.later routine (List.mem_append_right _ taken)⟩
  intro position other found
  have found' : (info :: types)[position + 1]? = some other := found
  have here := reserved.each found'
  rw [← Nat.add_assoc, Nat.add_right_comm] at here
  refine ⟨here.fields, { here.methods with each := fun method inside ↦ ?_ }⟩
  refine (here.methods.each method inside).fills fills fun same ↦ ?_
  have taken : method.routine ∈ routinesOf types :=
    List.mem_flatMap.mpr ⟨other, List.mem_of_getElem? found, List.mem_map_of_mem inside⟩
  exact apart _ same _ taken rfl

/-- What types are compiled to are their definitions, with the code of their routines. Only lambdas
and the routines for their fields are added. -/
theorem typesCode_of_agrees {types : List TypeInfo} (proper : AreProper references types) :
    (rest : List TypeInfo) → (owner : TypeIndex) → (draft : Draft) → types.drop owner = rest →
    TypesReserved draft owner 0 rest → draft.lambdas = lambdasBeforeFields types owner →
    Draft.Agrees program references [] (defineTypes references types owner rest draft).2 →
    (defineTypes references types owner rest draft).1.length = rest.length ∧
      draft.AddsRoutines program references types
        (defineTypes references types owner rest draft).2 ∧
      ∀ {position : Nat} {info : TypeInfo}, rest[position]? = some info →
        ∃ definition,
          (defineTypes references types owner rest draft).1[position]? = some definition ∧
            TypeCode program references types (owner + position) info definition
  | [], _, _, _, _, _, _ => ⟨rfl, Draft.AddsLambdas.routines (.none (Nat.le_refl _)), nofun⟩
  | info :: rest, owner, draft, suffix, reserved, numbered, agrees => by
      let middle := (defineType references types owner info draft).2
      have found : types[owner]? = some info := by
        rw [← List.head?_drop, suffix, List.head?_cons]
      have suffix' : types.drop (owner + 1) = rest := by
        rw [← List.drop_drop, suffix, List.drop_one, List.tail_cons]
      obtain ⟨fills, numbered'⟩ : draft.Fills _ middle ∧ middle.lambdas = _ :=
        fills_defineType info draft
      -- types that come later only fill routines of their own
      have here : Draft.Agrees program references (routinesOf rest ++ []) middle :=
        agrees.earlier (fills_defineTypes rest (owner + 1) middle)
      rw [List.append_nil] at here
      have lambdas : middle.lambdas = lambdasBeforeFields types (owner + 1) := by
        rw [numbered', numbered, lambdasBeforeFields, lambdasBeforeFields, List.take_add_one, found,
          lambdasInTypes, lambdasInTypes, List.map_append, List.sum_append_nat]
        rfl
      obtain ⟨length, added, others⟩ := typesCode_of_agrees proper rest (owner + 1) middle suffix'
        (reserved.rest fills) lambdas agrees
      have reserved' := reserved.each (rfl : (info :: rest)[0]? = some info)
      have older : ∀ index ∈ routinesOf rest, index < draft.routines.size := fun index taken ↦
        reserved.older index (List.mem_append_right _ taken)
      obtain ⟨code, first⟩ := typeCode_of_agrees proper found reserved' reserved.routines older
        numbered here
      refine ⟨congrArg (· + 1) length, first.trans added, ?_⟩
      intro position other inside
      cases position with
      | zero =>
          obtain rfl := Option.some.inj inside
          exact ⟨_, rfl, code⟩
      | succ position =>
          rw [← Nat.add_assoc, Nat.add_right_comm]
          exact others inside

end GuestScript.Compile
