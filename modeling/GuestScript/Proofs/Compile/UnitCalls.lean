import GuestScript.Proofs.Compile.HostCalls

/-!
# The host calls of units

Every routine of a compiled unit makes the host calls of its text, in the order of the text. The
routines of functions are reserved first and completed later on, those for fields and lambdas are
added behind them: `Draft.Completes` follows both from one function to the next.
-/

namespace GuestScript.Compile

open Bytecode (Op Routine RoutineIndex TypeIndex)
open Lowering
open Meaning
open Syntax (File)

variable {references : ReferenceSet} {types : List TypeInfo} (setting : Setting)

/-! ## Fields and functions -/

theorem emits_firstValueCode (field : FieldInfo) (start : Nat) :
    Emits setting.references id [] (match field.value with
      | some value => callsIn (namingOf setting) value
      | none => .none) (firstValueCode setting field start) := by
  rw [firstValueCode]
  cases field.value with
  | some value =>
      exact (emits_expression setting value _ _).before fun _ ↦
        .after (spares_check _ _ _) fun _ ↦ .pure rfl
  | none =>
      refine .pure ?_
      rw [defaultValue.eq_def]
      split <;> rfl

theorem emits_initializeFields (receiver : Nat) : (fields : List FieldInfo) → (position : Nat) →
    (before : List Op) → (start : Nat) →
    Emits setting.references id (hostOps before.reverse) (callsInFields (namingOf setting) fields)
      (initializeFields setting receiver fields position before start)
  | [], _, _, _ => .pure rfl
  | field :: rest, position, before, start => by
      rw [callsInFields, initializeFields]
      refine ((emits_firstValueCode setting field (start + 1)).behind before.reverse).bind fun value ↦ ?_
      let code := [Op.load receiver] ++ value ++ [.storeField position]
      have others := emits_initializeFields receiver rest (position + 1) (code.reverse ++ before)
        (start + code.length)
      have same : hostOps (code.reverse ++ before).reverse = hostOps (before.reverse ++ id value) := by
        simp [code, hostOps]
      rwa [same] at others

theorem emits_initializerInside (fields : List FieldInfo) :
    Emits setting.references id [] (callsInFields (namingOf setting) fields)
      (initializerInside setting fields) :=
  .after spares_allocate fun receiver ↦
    emits_initializeFields { setting with receiver := some receiver } receiver fields 0 [] 0

theorem emits_methodInside (method : MethodInfo) :
    Emits setting.references id [] (callsInBlock (namingOf setting) method.declaration.body)
      (methodInside setting method) := by
  have rest (receiver : Option Nat) : Emits setting.references id []
      (callsInBlock (namingOf setting) method.declaration.body) (do
        declareParameters
          ((method.declaration.parameters.map Syntax.Parameter.name).zip method.parameters)
        block { setting with receiver } method.declaration.body 0) :=
    .after (spares_declareParameters _) fun _ ↦ emits_block { setting with receiver } _ _
  unfold methodInside
  split
  · exact .after (.pure _) rest
  · exact .after spares_allocate fun _ ↦ .after (.pure _) rest

/-- The routine that gives fields their first values is added, if there are fields. -/
theorem gains_defineInitializer (fields : List FieldInfo) {draft : Draft}
    (imports : ImportsFrom setting.references draft.imports) :
    Draft.Gains setting.references draft (defineInitializer setting fields draft).2 []
      (initializerCalls (namingOf setting) fields) := by
  cases fields with
  | nil => exact Draft.gains_refl imports
  | cons first rest =>
      exact gains_addRoutine (emits_initializerInside setting (first :: rest)) _ epilogue rfl imports

/-! ## Completing routines -/

/-- Between two drafts, reserved routines were completed with code that makes these calls, and others
were added. Imports are in order, and if no mistake has been found, each call suits its function. -/
structure Draft.Completes (references : ReferenceSet) (before after : Draft)
    (completed : List (RoutineIndex × List HostCall)) (added : List (List HostCall)) : Prop where
  fills : before.Fills (completed.map Prod.fst) after
  imports : ImportsFrom references after.imports
  complete : ∀ routine ∈ completed, after.HasCalls routine.1 routine.2
  size : after.routines.size = before.routines.size + added.length
  behind : ∀ {position : Nat} {calls : List HostCall}, added[position]? = some calls →
    after.HasCalls (before.routines.size + position) calls
  suited : after.Quiet → ∀ calls ∈ completed.map Prod.snd ++ added, ∀ call ∈ calls,
    call.Suits references

namespace Draft

variable {before middle after : Draft} {completed others : List (RoutineIndex × List HostCall)}
  {added more : List (List HostCall)}

theorem Gains.completes {calls : HostCalls} (gains : Gains references before after [] calls) :
    Completes references before after [] calls.lambdas where
  fills := gains.grown.fills
  imports := gains.imports
  complete := nofun
  size := gains.size
  behind := gains.lambdas
  suited := fun quiet inside listed call member ↦
    gains.suited quiet call (List.mem_append_right _ (List.mem_flatten.mpr ⟨inside, listed, member⟩))

/-- What is completed later does not touch the routines that have been completed or added before. -/
theorem Completes.trans (first : Completes references before middle completed added)
    (second : Completes references middle after others more)
    (apart : ∀ routine ∈ completed, routine.1 ∉ others.map Prod.fst)
    (older : ∀ index ∈ others.map Prod.fst, index < before.routines.size) :
    Completes references before after (completed ++ others) (added ++ more) := by
  refine
    { fills := List.map_append ▸ first.fills.trans second.fills
      imports := second.imports
      complete := List.forall_mem_append.mpr ⟨fun routine inside ↦ ?_, second.complete⟩
      size := ?_
      behind := fun {position calls} found ↦ ?_
      suited := fun quiet calls listed ↦ ?_ }
  · exact (first.complete routine inside).fills second.fills (apart routine inside)
  · rw [second.size, first.size, Nat.add_assoc, ← List.length_append]
  · rw [List.getElem?_append] at found
    split at found
    · refine (first.behind found).fills second.fills fun later ↦ ?_
      exact Nat.not_lt.mpr (Nat.le_add_right _ _) (older _ later)
    · next beyond =>
        have there := second.behind found
        rwa [first.size, Nat.add_assoc, Nat.add_sub_cancel' (Nat.le_of_not_lt beyond)] at there
  · have part : calls ∈ completed.map Prod.snd ++ added ∨ calls ∈ others.map Prod.snd ++ more := by
      simp only [List.map_append, List.mem_append] at listed ⊢
      tauto
    obtain here | there := part
    · obtain ⟨found, same⟩ := second.fills.findings
      refine first.suited (fun finding inside ↦ quiet finding ?_) calls here
      exact same ▸ List.mem_append_right found inside
    · exact second.suited quiet calls there

end Draft

/-- The routines of functions with the host calls in them. -/
def functionCalls (naming : Naming) (methods : List MethodInfo) :
    List (RoutineIndex × List HostCall) :=
  methods.map fun method ↦ (method.routine, (callsInBlock naming method.declaration.body).own)

theorem functionCalls_fst (naming : Naming) (methods : List MethodInfo) :
    (functionCalls naming methods).map Prod.fst = methods.map MethodInfo.routine :=
  List.map_map

theorem completes_defineMethod (method : MethodInfo) {draft : Draft}
    (imports : ImportsFrom setting.references draft.imports)
    (reserved : method.routine < draft.routines.size) :
    Draft.Completes setting.references draft (defineMethod setting method draft).2
      (functionCalls (namingOf setting) [method])
      (callsInBlock (namingOf setting) method.declaration.body).lambdas := by
  obtain ⟨ops, made, gains⟩ := emits_methodInside setting method ⟨draft, [[]], 0⟩
    imports
  let compiled := alone (methodInside setting method) draft
  let checked := (checkReturns method compiled.2).2
  have notes : compiled.2.Notes checked := leaves_checkReturns method compiled.2
  have grown : draft.Extends checked := gains.grown.trans notes.extends'
  have sizes : checked.routines.size = compiled.2.routines.size := by rw [notes.routines]
  have fills := Draft.fills_complete method.routine (compiled.1.1 ++ epilogue) compiled.1.2 checked
  -- only the routine of the function is changed when it is completed
  have others {index : RoutineIndex} {calls : List HostCall}
      (has : compiled.2.HasCalls index calls) (different : index ≠ method.routine) :
      (Draft.complete method.routine (compiled.1.1 ++ epilogue) compiled.1.2 checked).2.HasCalls
        index calls :=
    (has.fills notes.extends'.fills List.not_mem_nil).fills fills
      fun same ↦ different (List.mem_singleton.mp same)
  refine
    { fills := grown.fills.trans fills
      imports := notes.imports ▸ gains.imports
      complete := List.forall_mem_singleton.mpr ?_
      size := ?_
      behind := fun {position calls} found ↦ ?_
      suited := fun quiet calls listed call inside ↦ ?_ }
  · obtain ⟨own, here⟩ : ∃ own, checked.routines[method.routine]? = some own :=
      ⟨_, Array.getElem?_eq_getElem (Nat.lt_of_lt_of_le reserved grown.size)⟩
    refine ⟨_, Draft.complete_routine here, ?_⟩
    have same : hostOps (compiled.1.1 ++ epilogue) = ops := by
      rw [hostOps_append]
      exact (List.append_nil _).trans made
    change Makes checked.imports (hostOps (compiled.1.1 ++ epilogue)) _
    rw [same, notes.imports]
    exact gains.own
  · change (checked.routines.modify _ _).size = _
    rw [Array.size_modify, sizes]
    exact gains.size
  · refine others (gains.lambdas found) fun same ↦ ?_
    exact Nat.not_lt.mpr (Nat.le_add_right _ position) (same ▸ reserved)
  · have quiet' : checked.Quiet := quiet
    have quiet := quiet'.of_extends notes.extends'
    refine gains.suited quiet call ?_
    rw [HostCalls.all, List.mem_append, List.mem_flatten]
    obtain own | lambda := List.mem_append.mp listed
    · obtain rfl := List.mem_singleton.mp own
      exact .inl inside
    · exact .inr ⟨calls, lambda, inside⟩

theorem completes_defineMethods : (methods : List MethodInfo) → {draft : Draft} →
    ImportsFrom setting.references draft.imports →
    (∀ method ∈ methods, method.routine < draft.routines.size) →
    (methods.map MethodInfo.routine).Nodup →
    Draft.Completes setting.references draft (defineMethods setting methods draft).2
      (functionCalls (namingOf setting) methods)
      (methods.flatMap fun method ↦
        (callsInBlock (namingOf setting) method.declaration.body).lambdas)
  | [], draft, imports, _, _ => (Draft.gains_refl imports).completes
  | first :: rest, draft, imports, reserved, distinct => by
      obtain ⟨here, reserved'⟩ := List.forall_mem_cons.mp reserved
      obtain ⟨apart, distinct'⟩ := List.nodup_cons.mp distinct
      have one : Draft.Completes setting.references draft
          (defineMethod (setting.ofMethod first) first draft).2
          (functionCalls (namingOf setting) [first])
          (callsInBlock (namingOf setting) first.declaration.body).lambdas :=
        completes_defineMethod (setting.ofMethod first) first imports here
      have others := completes_defineMethods rest one.imports
        (fun method inside ↦ Nat.lt_of_lt_of_le (reserved' method inside) one.fills.size) distinct'
      have same := functionCalls_fst (namingOf setting) rest
      refine one.trans others ?_ ?_
      · exact List.forall_mem_singleton.mpr (same ▸ apart)
      · exact same ▸ List.forall_mem_map.mpr reserved'

/-- Compiling a type completes the routines of its functions. -/
theorem completes_defineType (types : List TypeInfo) (owner : TypeIndex) (info : TypeInfo) {draft : Draft}
    (imports : ImportsFrom references draft.imports)
    (reserved : ∀ method ∈ info.methods, method.routine < draft.routines.size)
    (distinct : (info.methods.map MethodInfo.routine).Nodup) :
    Draft.Completes references draft (defineType references types owner info draft).2
      (functionCalls (namingIn references types info) info.methods)
      (callsAdded references types info) := by
  let setting := settingOf references types owner info
  have first := gains_defineInitializer setting info.fields imports
  have others := completes_defineMethods setting info.methods first.imports
    (fun method inside ↦ Nat.lt_of_lt_of_le (reserved method inside) first.grown.size) distinct
  have same := functionCalls_fst (namingOf setting) info.methods
  exact first.completes.trans others nofun (same ▸ List.forall_mem_map.mpr reserved)

/-- The routines of the functions of types with the host calls in them. -/
def callsOfTypes (references : ReferenceSet) (types rest : List TypeInfo) :
    List (RoutineIndex × List HostCall) :=
  rest.flatMap fun info ↦ functionCalls (namingIn references types info) info.methods

theorem callsOfTypes_fst (references : ReferenceSet) (types rest : List TypeInfo) :
    (callsOfTypes references types rest).map Prod.fst = routinesOf rest := by
  simp only [callsOfTypes, routinesOf, List.map_flatMap, functionCalls_fst]

/-- Compiling types completes the routines of their functions. -/
theorem completes_defineTypes : (rest : List TypeInfo) → (owner : TypeIndex) → {draft : Draft} →
    ImportsFrom references draft.imports →
    (∀ index ∈ routinesOf rest, index < draft.routines.size) → (routinesOf rest).Nodup →
    Draft.Completes references draft (defineTypes references types owner rest draft).2
      (callsOfTypes references types rest) (rest.flatMap (callsAdded references types))
  | [], _, _, imports, _, _ => (Draft.gains_refl imports).completes
  | info :: rest, owner, draft, imports, older, distinct => by
      obtain ⟨older', olderRest⟩ := List.forall_mem_append.mp older
      obtain ⟨distinct', distinctRest, apart⟩ := List.nodup_append.mp distinct
      have first := completes_defineType types owner info imports
        (List.forall_mem_map.mp older') distinct'
      have others := completes_defineTypes rest (owner + 1) first.imports
        (fun index inside ↦ Nat.lt_of_lt_of_le (olderRest index inside) first.fills.size)
        distinctRest
      have same := callsOfTypes_fst references types rest
      refine first.trans others (fun routine inside taken ↦ ?_) (same ▸ olderRest)
      have here : routine.1 ∈ info.methods.map MethodInfo.routine := by
        rw [← functionCalls_fst]
        exact List.mem_map_of_mem inside
      have there : routine.1 ∈ routinesOf rest := same.subst taken
      exact apart _ here _ there rfl

/-! ## Units -/

/-- Declaring types imports nothing. -/
theorem imports_declare (references : ReferenceSet) (file : File) :
    (declare references file .empty).2.imports = #[] := by
  have functions (resolve : Syntax.TypeExpression → Drafting Ty)
      (resolves : ∀ written, Draft.Leaves (resolve written)) (owner : TypeIndex)
      (ownerName : String) (functions : List Syntax.FunctionDeclaration) :
      ∀ (accepted : List MethodInfo) (draft : Draft),
        (acceptFunctions resolve owner ownerName accepted functions draft).2.imports
          = draft.imports := by
    induction functions with
    | nil => exact fun _ _ ↦ rfl
    | cons function rest ih =>
        intro accepted draft
        simp only [acceptFunctions]
        split
        · exact ih accepted _
        · exact (ih _ _).trans (leaves_signatureOf resolves function draft).imports
  have members (names : List TypeName) (declarations : List Syntax.TypeDeclaration) :
      ∀ (owner : TypeIndex) (draft : Draft),
        (acceptMembers references names owner declarations draft).2.imports = draft.imports := by
    induction declarations with
    | nil => exact fun _ _ ↦ rfl
    | cons declaration rest ih =>
        intro owner draft
        have resolves := leaves_resolveType references names (nameOf declaration).namespaceName
        refine (ih _ _).trans ((functions _ resolves _ _ _ _ _).trans ?_)
        exact (leaves_acceptFields resolves _ _ draft).imports
  exact (members _ _ _ _).trans (leaves_acceptTypes file.types [] .empty).imports

/-- Every routine of a unit without a mistake makes the host calls of its text, each of which suits its
function, and imports are in order. -/
theorem routineCalls_of_quiet {kind : OutputKind} (unitName : String) {file : File}
    (chained : file.isChained = true) (quiet : (compileFile references kind file .empty).2.Quiet) :
    let image := (compileUnit references kind unitName file).image
    ImportsFrom references image.imports ∧
      ∀ {index : RoutineIndex} {routine : Bytecode.Routine},
        image.routines[index]? = some routine →
        ∃ calls, RoutineCalls references (typesOf references file) index calls ∧
          Makes image.imports (hostOps routine.code.toList) calls ∧
          ∀ call ∈ calls, call.Suits references := by
  let types := typesOf references file
  let drafted := (declare references file .empty).2
  let defined := (defineTypes references types 0 types drafted).2
  let final := (compileFile references kind file .empty).2
  have notes : defined.Notes final := (notes_compileFile references kind file).2
  have quiet' : defined.Quiet := quiet.of_extends notes.extends'
  have filled : drafted.Fills _ defined := fills_defineTypes types 0 drafted
  have declared : Declared types drafted := by
    obtain ⟨added, findings⟩ := filled.findings
    exact declared_of_quiet chained fun finding inside ↦
      quiet' finding (findings ▸ List.mem_append_right added inside)
  have completes : Draft.Completes references drafted defined _ _ :=
    completes_defineTypes types 0 ((imports_declare references file).symm ▸ importsFrom_empty _)
      declared.reserved.older declared.reserved.routines
  change ImportsFrom references final.imports ∧ ∀ {index : RoutineIndex} {routine : Routine},
    final.routines[index]? = some routine → ∃ calls, RoutineCalls references types index calls ∧
      Makes final.imports (hostOps routine.code.toList) calls ∧
      ∀ call ∈ calls, call.Suits references
  rw [notes.imports, notes.routines]
  refine ⟨completes.imports, fun {index routine} found ↦ ?_⟩
  -- what a routine calls is known if it is known what its place in the program stands for
  have known {calls : List HostCall} (has : defined.HasCalls index calls)
      (listed : calls ∈ (callsOfTypes references types types).map Prod.snd
        ++ types.flatMap (callsAdded references types)) :
      Makes defined.imports (hostOps routine.code.toList) calls ∧
        ∀ call ∈ calls, call.Suits references := by
    obtain ⟨routine', there, made⟩ := has
    obtain rfl := Option.some.inj (found.symm.trans there)
    exact ⟨made, completes.suited quiet' calls listed⟩
  by_cases reserved : index < drafted.routines.size
  · have taken := declared.mem_routinesOf declared.reserved.older reserved
    rw [← callsOfTypes_fst references types] at taken
    obtain ⟨entry, inside, rfl⟩ := List.mem_map.mp taken
    refine ⟨entry.2, ?_, known (completes.complete entry inside)
      (List.mem_append_left _ (List.mem_map_of_mem inside))⟩
    obtain ⟨info, listed, function⟩ := List.mem_flatMap.mp inside
    obtain ⟨method, member, rfl⟩ := List.mem_map.mp function
    exact .function listed member
  · have inside := (Array.getElem?_eq_some_iff.mp found).1
    rw [completes.size] at inside
    obtain ⟨position, rfl⟩ := Nat.exists_eq_add_of_le (Nat.le_of_not_lt reserved)
    have within := Nat.lt_of_add_lt_add_left inside
    have here := List.getElem?_eq_getElem within
    refine ⟨_, ?_, known (completes.behind here)
      (List.mem_append_right _ (List.getElem_mem within))⟩
    have size : drafted.routines.size = (types.flatMap TypeInfo.methods).length := by
      rw [declared.size, routinesOf, ← List.map_flatMap, List.length_map]
    rw [size]
    exact .added here

end GuestScript.Compile
