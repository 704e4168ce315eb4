import GuestScript.Proofs.Compile.BodyBooks
import GuestScript.Proofs.Compile.Entries
import GuestScript.Proofs.Compile.Reserved

/-!
# Warnings about unused variables

The warnings about unused variables are exact: they are given for the variables of lets that nothing in
the code of their routines loads, and whose names do not say that this is intended, and for no other
ones. `Draft.Accounts` follows the warnings and the routines from one function to the next, and
`unusedLint_isExact` says it of every unit, whatever the syntax tree and whether or not there are
mistakes in it.
-/

namespace GuestScript.Compile

open Bytecode (Op Routine RoutineIndex TypeIndex)
open Lowering
open Meaning
open Syntax

/-! ## Fields -/

section Fields

variable {base : Nat} {setting : Setting}

theorem books_firstValueCode (fits : setting.Fits base) (next : Nat) (field : FieldInfo) (start : Nat) :
    Books base next id [] 0 (match field.value with
      | some value => letsIn value
      | none => .none) (firstValueCode setting field start) := by
  rw [firstValueCode]
  cases field.value with
  | some value =>
      exact (books_expression fits next value _ _).before fun _ ↦
        .after (silent_check _ _ _) fun _ ↦ .pure rfl
  | none =>
      refine .pure ?_
      rw [defaultValue.eq_def]
      split <;> rfl

theorem books_initializeFields (fits : setting.Fits base) (next : Nat) {receiver : Nat}
    (low : receiver < base) : (fields : List FieldInfo) → (position : Nat) → (before : List Op) →
    (start : Nat) →
    Books base next id (slotOps before.reverse) 0 (letsInFields fields)
      (initializeFields setting receiver fields position before start)
  | [], _, _, _ => .pure rfl
  | field :: rest, position, before, start => by
      have low' : ∀ slot, .load slot ∈ slotOps [.load receiver] → slot < base := low_load low
      have value := (books_firstValueCode fits next field (start + 1)).ahead low'
      rw [letsInFields, initializeFields]
      refine (value.behind before.reverse).bind (fun value ↦ ?_) (Nat.zero_add _)
      let code := [Op.load receiver] ++ value ++ [.storeField position]
      have others := books_initializeFields fits next low rest (position + 1) (code.reverse ++ before)
        (start + code.length)
      have same : slotOps (code.reverse ++ before).reverse
          = slotOps (before.reverse ++ ([.load receiver] ++ id value)) := by
        simp [code, slotOps]
      rwa [same] at others

variable (setting)

/-- The routine that gives fields their first values is added, if there are fields. -/
theorem enters_defineInitializer (fields : List FieldInfo) (draft : Draft) :
    draft.Enters (defineInitializer setting fields draft).2 (initializerLets fields).lambdas := by
  cases fields with
  | nil => exact .refl draft
  | cons first rest =>
      let routine := initializerRoutine setting.owner
      let reserved := (Draft.reserve routine draft).2
      let inner : Setting := { setting with receiver := some 0 }
      have fits : inner.Fits 1 := fun _ same ↦ Option.some.inj same ▸ Nat.one_pos
      let compiled := initializerInside setting (first :: rest) ⟨reserved, [[]], 0⟩
      have ready := (Body.isReady_nil reserved).allocate
      have fields := books_initializeFields fits 0 Nat.one_pos (first :: rest) 0 [] 0
      have inside : reserved.Compiles compiled.2.draft routine.arity (compiled.1 ++ epilogue)
          (letsInFields (first :: rest)) := compiles_of_ready ready fields.settles rfl
      have added : draft.Enters (addRoutine routine (fun code ↦ code ++ epilogue)
          (initializerInside setting (first :: rest)) draft).2
          (letsInFields (first :: rest)).enclosed.lambdas := enters_addRoutine inside
      exact added

end Fields

/-! ## Functions -/

/-- The number of arguments of a function, with its receiver. -/
def MethodInfo.arity (method : MethodInfo) : Nat :=
  method.parameters.length + if method.isStatic then 0 else 1

/-- Each parameter of a function has a type. -/
def MethodInfo.IsTyped (method : MethodInfo) : Prop :=
  method.parameters.length = method.declaration.parameters.length

/-- The code of a function is compiled on its own. -/
theorem compiles_methodInside (setting : Setting) {method : MethodInfo} (typed : method.IsTyped)
    (draft : Draft) :
    let compiled := alone (methodInside setting method) draft
    draft.Compiles compiled.2 method.arity (compiled.1.1 ++ epilogue) (letsInMethod method) := by
  let names := method.declaration.parameters.map Syntax.Parameter.name
  let declared : Lowering Unit := declareParameters (names.zip method.parameters)
  have length : (names.zip method.parameters).length = method.parameters.length := by
    rw [List.length_zip, List.length_map, ← typed, Nat.min_self]
  -- the block is compiled behind the parameters, whether or not there is a receiver before them
  have rest (receiver : Option Nat) {taken : Nat} {body : Body} (ready : body.IsReady taken draft)
      (fits : ({ setting with receiver } : Setting).Fits (taken + method.parameters.length)) :
      let compiled := block { setting with receiver } method.declaration.body 0 (declared body).2
      draft.Compiles compiled.2.draft (taken + method.parameters.length)
        (compiled.1 ++ epilogue) (letsInMethod method) := by
    have ready := ready.declareParameters (names.zip method.parameters)
    rw [length] at ready
    exact compiles_of_ready ready (settles_block fits 0 method.declaration.body 0) rfl
  intro compiled
  have start := Body.isReady_nil draft
  cases isStatic : method.isStatic with
  | true =>
      have inside := rest none start nofun
      have same : compiled = alone (do
          declared
          block { setting with receiver := none } method.declaration.body 0) draft := by
        simp only [compiled, methodInside, isStatic, if_true, pure_bind]
        rfl
      rw [same, MethodInfo.arity, isStatic, Nat.add_comm]
      exact inside
  | false =>
      have inside := rest (some 0) start.allocate fun _ same ↦ by
        rw [← Option.some.inj same, Nat.zero_add, Nat.add_comm]
        exact Nat.succ_pos _
      have same : compiled = alone (do
          let receiver ← allocate
          declared
          block { setting with receiver := some receiver } method.declaration.body 0) draft := by
        simp only [compiled, methodInside, isStatic]
        rfl
      rw [same, MethodInfo.arity, isStatic, Nat.add_comm]
      exact inside

/-- The routine of a function is there, and takes the arguments of the function. -/
def Draft.Awaits (draft : Draft) (method : MethodInfo) : Prop :=
  method.IsTyped ∧
    ∃ routine, draft.routines[method.routine]? = some routine ∧ routine.arity = method.arity

namespace Draft

variable {before middle after : Draft}

theorem Awaits.keeps {method : MethodInfo} (awaits : before.Awaits method)
    (keeps : before.Keeps after) : after.Awaits method := by
  obtain ⟨typed, routine, found, arity⟩ := awaits
  obtain ⟨_, _, found'⟩ := keeps _ _ found
  exact ⟨typed, _, found', arity⟩

theorem Awaits.inside {method : MethodInfo} (awaits : before.Awaits method) :
    method.routine < before.routines.size :=
  have ⟨_, _, found, _⟩ := awaits
  (Array.getElem?_eq_some_iff.mp found).1

/-- Between two drafts, the routines of functions were given their code, and others were added. What is
to be said about their variables has been said. -/
structure Accounts (before after : Draft) (completed : List (List LetVariable × RoutineIndex))
    (added : List (List LetVariable)) : Prop where
  fills : before.Fills (completed.map Prod.snd) after
  keeps : before.Keeps after
  size : after.routines.size = before.routines.size + added.length
  placed : ∀ entry ∈ completed ++ added.zipIdx before.routines.size, after.Places entry
  unused : after.unused = before.unused
    + (unusedWarnings after.routines (completed ++ added.zipIdx before.routines.size) :
        List (Diagnostic Span))

theorem Enters.accounts {added : List (List LetVariable)} (enters : before.Enters after added) :
    before.Accounts after [] added where
  fills := enters.grown.fills
  keeps := enters.grown.keeps
  size := enters.size
  placed := enters.placed
  unused := enters.unused

/-- What is completed later does not touch the routines that have been completed or added before. -/
theorem Accounts.trans {completed others : List (List LetVariable × RoutineIndex)}
    {added more : List (List LetVariable)} (first : Accounts before middle completed added)
    (second : Accounts middle after others more)
    (inside : ∀ entry ∈ completed ++ others, entry.2 < before.routines.size)
    (distinct : ((completed ++ others).map Prod.snd).Nodup) :
    Accounts before after (completed ++ others) (added ++ more) := by
  rw [List.map_append] at distinct
  have apart := (List.nodup_append.mp distinct).2.2
  have entries : (added ++ more).zipIdx before.routines.size
      = added.zipIdx before.routines.size ++ more.zipIdx middle.routines.size := by
    rw [first.size, ← List.zipIdx_append]
  have kept : ∀ entry ∈ completed ++ added.zipIdx before.routines.size,
      after.routines[entry.2]? = middle.routines[entry.2]? := by
    refine List.forall_mem_append.mpr ⟨fun entry listed ↦ ?_, fun entry listed ↦ ?_⟩
    · have bound := inside entry (List.mem_append_left _ listed)
      refine second.fills.routines (Nat.lt_of_lt_of_le bound first.fills.size) fun later ↦ ?_
      exact apart _ (List.mem_map_of_mem listed) _ later rfl
    · refine second.fills.routines ?_ fun later ↦ ?_
      · rw [first.size]
        exact List.snd_lt_add_of_mem_zipIdx listed
      · obtain ⟨other, listed', same⟩ := List.mem_map.mp later
        have bound := inside other (List.mem_append_right _ listed')
        rw [same] at bound
        exact Nat.not_lt.mpr (List.le_snd_of_mem_zipIdx listed) bound
  have placed : ∀ entry ∈ completed ++ added.zipIdx before.routines.size, after.Places entry :=
    fun entry listed ↦ (first.placed entry listed).kept (kept entry listed)
  refine
    { fills := List.map_append ▸ first.fills.trans second.fills
      keeps := first.keeps.trans second.keeps
      size := by rw [second.size, first.size, Nat.add_assoc, ← List.length_append]
      placed := ?_
      unused := ?_ }
  · rw [entries]
    have earlier := List.forall_mem_append.mp placed
    have later := List.forall_mem_append.mp second.placed
    exact List.forall_mem_append.mpr ⟨List.forall_mem_append.mpr ⟨earlier.1, later.1⟩,
      List.forall_mem_append.mpr ⟨earlier.2, later.2⟩⟩
  · rw [second.unused, first.unused, ← unusedWarnings_congr kept, entries]
    simp only [unusedWarnings_append, ← Multiset.coe_add]
    abel

end Draft

theorem passes_checkReturns (method : MethodInfo) (draft : Draft) :
    draft.Passes (checkReturns method draft).2 := by
  unfold checkReturns
  split
  · exact .report (by decide) _ _ draft
  · exact .refl draft

/-- Compiling a function completes its routine. -/
theorem accounts_defineMethod (setting : Setting) {method : MethodInfo} {draft : Draft}
    (awaits : draft.Awaits method) :
    draft.Accounts (defineMethod setting method draft).2 (letsOfFunctions [method])
      (letsInMethod method).lambdas := by
  obtain ⟨typed, routine, found, arity⟩ := awaits
  have reserved : method.routine < draft.routines.size := (Array.getElem?_eq_some_iff.mp found).1
  let compiled := alone (methodInside setting method) draft
  let checked := (checkReturns method compiled.2).2
  let after := (defineMethod setting method draft).2
  have inside : draft.Compiles compiled.2 method.arity (compiled.1.1 ++ epilogue)
      (letsInMethod method) := compiles_methodInside setting typed draft
  have passes : compiled.2.Passes checked := passes_checkReturns method compiled.2
  have grown : draft.Extends checked := inside.grown.trans passes.grown
  have own : checked.routines[method.routine]? = some routine :=
    (grown.routines reserved).trans found
  have completed : after.routines[method.routine]? = some
      { routine with code := (compiled.1.1 ++ epilogue).toArray, locals := compiled.1.2 } :=
    Draft.complete_routine own
  have kept : ∀ entry ∈ (letsInMethod method).lambdas.zipIdx draft.routines.size,
      after.routines[entry.2]? = compiled.2.routines[entry.2]? := by
    intro entry listed
    have later := Nat.lt_of_lt_of_le reserved (List.le_snd_of_mem_zipIdx listed)
    rw [← passes.routines]
    exact Array.getElem?_modify.trans (if_neg (Nat.ne_of_lt later))
  have fills := Draft.fills_complete method.routine (compiled.1.1 ++ epilogue) compiled.1.2 checked
  refine
    { fills := grown.fills.trans fills
      keeps := grown.keeps.trans (Draft.keeps_complete _ _ _ checked)
      size := ?_
      placed := List.forall_mem_cons.mpr ⟨⟨inside.numbers, _, completed, ?_⟩, fun entry listed ↦ ?_⟩
      unused := ?_ }
  · change (checked.routines.modify _ _).size = _
    rw [Array.size_modify, passes.routines, inside.size]
  · rw [arity]
    exact inside.stores
  · exact (inside.placed entry listed).kept (kept entry listed)
  · have same : after.unused = checked.unused := rfl
    have entries : letsOfFunctions [method] ++ (letsInMethod method).lambdas.zipIdx draft.routines.size
        = ((letsInMethod method).own, method.routine)
          :: (letsInMethod method).lambdas.zipIdx draft.routines.size := rfl
    rw [same, passes.unused, inside.unused, entries, unusedWarnings_cons completed,
      unusedWarnings_congr kept, ← Multiset.coe_add, add_assoc, arity]

theorem routines_letsOfFunctions (methods : List MethodInfo) :
    (letsOfFunctions methods).map Prod.snd = methods.map MethodInfo.routine :=
  List.map_map

theorem inside_letsOfFunctions {methods : List MethodInfo} {draft : Draft}
    (awaits : ∀ method ∈ methods, draft.Awaits method) :
    ∀ entry ∈ letsOfFunctions methods, entry.2 < draft.routines.size :=
  List.forall_mem_map.mpr fun method listed ↦ (awaits method listed).inside

/-- Compiling functions completes their routines. -/
theorem accounts_defineMethods (setting : Setting) : (methods : List MethodInfo) → {draft : Draft} →
    (∀ method ∈ methods, draft.Awaits method) → (methods.map MethodInfo.routine).Nodup →
    draft.Accounts (defineMethods setting methods draft).2 (letsOfFunctions methods)
      (methods.flatMap fun method ↦ (letsInMethod method).lambdas)
  | [], draft, _, _ => (Draft.Enters.refl draft).accounts
  | first :: rest, draft, awaits, distinct => by
      obtain ⟨here, others⟩ := List.forall_mem_cons.mp awaits
      let middle := (defineMethod (setting.ofMethod first) first draft).2
      have one : draft.Accounts middle (letsOfFunctions [first]) (letsInMethod first).lambdas :=
        accounts_defineMethod (setting.ofMethod first) here
      have later := accounts_defineMethods setting rest
        (fun method listed ↦ (others method listed).keeps one.keeps)
        (List.nodup_cons.mp distinct).2
      refine one.trans later (inside_letsOfFunctions awaits) ?_
      exact (routines_letsOfFunctions (first :: rest)).symm ▸ distinct

/-- Compiling a type completes the routines of its functions. -/
theorem accounts_defineType (references : ReferenceSet) (types : List TypeInfo) (owner : TypeIndex)
    {info : TypeInfo} {draft : Draft} (awaits : ∀ method ∈ info.methods, draft.Awaits method)
    (distinct : (info.methods.map MethodInfo.routine).Nodup) :
    draft.Accounts (defineType references types owner info draft).2 (letsOfFunctions info.methods)
      (letsAdded info) := by
  let setting := settingOf references types owner info
  have fields := (enters_defineInitializer setting info.fields draft).accounts
  have methods := accounts_defineMethods setting info.methods
    (fun method listed ↦ (awaits method listed).keeps fields.keeps) distinct
  refine fields.trans methods (inside_letsOfFunctions awaits) ?_
  exact (routines_letsOfFunctions info.methods).symm ▸ distinct

/-- Compiling types completes the routines of their functions. -/
theorem accounts_defineTypes (references : ReferenceSet) (types : List TypeInfo) :
    (rest : List TypeInfo) → (owner : TypeIndex) → {draft : Draft} →
    (∀ method ∈ rest.flatMap TypeInfo.methods, draft.Awaits method) →
    ((rest.flatMap TypeInfo.methods).map MethodInfo.routine).Nodup →
    draft.Accounts (defineTypes references types owner rest draft).2
      (letsOfFunctions (rest.flatMap TypeInfo.methods)) (rest.flatMap letsAdded)
  | [], _, draft, _, _ => (Draft.Enters.refl draft).accounts
  | info :: rest, owner, draft, awaits, distinct => by
      have same : letsOfFunctions ((info :: rest).flatMap TypeInfo.methods)
          = letsOfFunctions info.methods ++ letsOfFunctions (rest.flatMap TypeInfo.methods) :=
        List.map_append
      have numbers := routines_letsOfFunctions ((info :: rest).flatMap TypeInfo.methods)
      have inside := inside_letsOfFunctions awaits
      rw [← numbers, same] at distinct
      rw [same] at inside ⊢
      obtain ⟨here, others⟩ := List.forall_mem_append.mp awaits
      have apart := List.map_append ▸ distinct
      obtain ⟨distinctHere, distinctRest, -⟩ := List.nodup_append.mp apart
      rw [routines_letsOfFunctions] at distinctHere distinctRest
      have first := accounts_defineType references types owner here distinctHere
      have later := accounts_defineTypes references types rest (owner + 1)
        (fun method listed ↦ (others method listed).keeps first.keeps) distinctRest
      exact first.trans later inside distinct

/-! ## Declarations -/

/-- An action says nothing about unused variables. -/
def Draft.Mute {Value : Type} (action : Drafting Value) : Prop :=
  ∀ draft : Draft, (action draft).2.unused = draft.unused

namespace Draft.Mute

variable {Value Other : Type}

theorem pure (value : Value) : Mute (Pure.pure value) :=
  fun _ ↦ rfl

theorem bind {action : Drafting Value} {next : Value → Drafting Other} (first : Mute action)
    (second : ∀ value, Mute (next value)) : Mute (action >>= next) :=
  fun draft ↦ (second _ _).trans (first draft)

theorem note {finding : Diagnostic Span} (other : finding.code ≠ .unusedLocal) :
    Mute (Draft.note finding) :=
  fun draft ↦ (Passes.note other draft).unused

theorem report {code : Code} (other : code ≠ .unusedLocal) (message : String) (span : Span) :
    Mute (Draft.report code message span) :=
  note other

theorem mapM {action : Value → Drafting Other} (each : ∀ value, Mute (action value)) :
    (values : List Value) → Mute (values.mapM action)
  | [] => by
      rw [List.mapM_nil]
      exact pure []
  | first :: rest => by
      rw [List.mapM_cons]
      exact bind (each first) fun _ ↦ bind (mapM each rest) fun _ ↦ pure _

end Draft.Mute

section Declarations

open Draft (Mute)

variable {resolve : TypeExpression → Drafting Ty}

theorem mute_resolveType (references : ReferenceSet) (names : List TypeName) (namespaceName : String)
    (written : TypeExpression) : Mute (resolveType references names namespaceName written) :=
  fun draft ↦ (Draft.passes_resolveType references names namespaceName written draft).unused

theorem mute_acceptTypes : (declarations accepted : List TypeDeclaration) →
    Mute (acceptTypes accepted declarations)
  | [], _ => .pure _
  | declaration :: rest, accepted => by
      simp only [acceptTypes]
      split
      · exact .bind (.report (by decide) _ _) fun _ ↦ mute_acceptTypes rest accepted
      · exact mute_acceptTypes rest _

theorem mute_acceptFields (resolves : ∀ written, Mute (resolve written)) :
    (fields : List FieldDeclaration) → (accepted : List FieldInfo) →
    Mute (acceptFields resolve accepted fields)
  | [], _ => .pure _
  | field :: rest, accepted => by
      simp only [acceptFields]
      split
      · exact .bind (.report (by decide) _ _) fun _ ↦ mute_acceptFields resolves rest accepted
      · exact .bind (resolves _) fun _ ↦ mute_acceptFields resolves rest _

theorem mute_signatureOf (resolves : ∀ written, Mute (resolve written))
    (function : FunctionDeclaration) : Mute (signatureOf resolve function) := by
  refine .bind (.mapM (fun _ ↦ resolves _) _) fun parameters ↦ ?_
  cases function.result with
  | some result => exact .bind (resolves result) fun _ ↦ .pure _
  | none => exact .pure _

theorem mute_acceptFunctions (resolves : ∀ written, Mute (resolve written)) (owner : TypeIndex)
    (ownerName : String) : (functions : List FunctionDeclaration) → (accepted : List MethodInfo) →
    Mute (acceptFunctions resolve owner ownerName accepted functions)
  | [], accepted => .pure accepted
  | function :: rest, accepted => by
      simp only [acceptFunctions]
      split
      · exact .bind (.report (by decide) _ _) fun _ ↦
          mute_acceptFunctions resolves owner ownerName rest accepted
      · exact .bind (mute_signatureOf resolves function) fun _ ↦ .bind (fun _ ↦ rfl) fun _ ↦
          mute_acceptFunctions resolves owner ownerName rest _

theorem mute_acceptMembers (references : ReferenceSet) (names : List TypeName) :
    (declarations : List TypeDeclaration) → (owner : TypeIndex) →
    Mute (acceptMembers references names owner declarations)
  | [], _ => .pure []
  | _ :: rest, _ =>
      .bind (mute_acceptFields (mute_resolveType references names _) _ _) fun _ ↦
        .bind (mute_acceptFunctions (mute_resolveType references names _) _ _ _ _) fun _ ↦
          .bind (mute_acceptMembers references names rest _) fun _ ↦ .pure _

theorem mute_declare (references : ReferenceSet) (file : File) : Mute (declare references file) :=
  .bind (mute_acceptTypes file.types []) fun _ ↦ mute_acceptMembers references _ _ 0

theorem mute_reportEntries (count : Nat) : (candidates : List (TypeInfo × MethodInfo)) →
    Mute (reportEntries count candidates)
  | [] => .pure ()
  | _ :: rest => .bind (.report (by decide) _ _) fun _ ↦ mute_reportEntries count rest

theorem mute_selectEntry (types : List TypeInfo) : Mute (selectEntry types) := by
  unfold selectEntry
  split
  · exact .bind (.note (by decide)) fun _ ↦ .pure _
  · split
    · exact .pure _
    · exact .bind (.report (by decide) _ _) fun _ ↦ .pure _
  · exact .bind (mute_reportEntries _ _) fun _ ↦ .pure _

/-! ### Parameters -/

/-- Each parameter of a function is given a type, if only a poisoned one. -/
theorem length_mapM {Value Other : Type} (action : Value → Drafting Other) :
    (values : List Value) → (draft : Draft) → (values.mapM action draft).1.length = values.length
  | [], _ => rfl
  | _ :: rest, _ => by
      rw [List.mapM_cons]
      exact congrArg (· + 1) (length_mapM action rest _)

theorem length_signatureOf (function : FunctionDeclaration) (draft : Draft) :
    (signatureOf resolve function draft).1.1.length = function.parameters.length := by
  have length := length_mapM (fun parameter : Parameter ↦ resolve parameter.type) function.parameters
    draft
  simp only [signatureOf]
  cases function.result <;> exact length

theorem isTyped_acceptFunctions (owner : TypeIndex) (ownerName : String) :
    (functions : List FunctionDeclaration) → (accepted : List MethodInfo) → (draft : Draft) →
    (∀ method ∈ accepted, method.IsTyped) →
    ∀ method ∈ (acceptFunctions resolve owner ownerName accepted functions draft).1, method.IsTyped
  | [], _, _, typed => typed
  | function :: rest, accepted, draft, typed => by
      simp only [acceptFunctions]
      split
      · exact isTyped_acceptFunctions owner ownerName rest accepted _ typed
      · refine isTyped_acceptFunctions owner ownerName rest _ _ (List.forall_mem_append.mpr ⟨typed, ?_⟩)
        exact List.forall_mem_singleton.mpr (length_signatureOf function draft)

theorem isTyped_acceptMembers (references : ReferenceSet) (names : List TypeName) :
    (declarations : List TypeDeclaration) → (owner : TypeIndex) → (draft : Draft) →
    ∀ info ∈ (acceptMembers references names owner declarations draft).1,
      ∀ method ∈ info.methods, method.IsTyped
  | [], _, _ => nofun
  | _ :: rest, owner, _ => List.forall_mem_cons.mpr
      ⟨isTyped_acceptFunctions owner _ _ [] _ nofun,
        isTyped_acceptMembers references names rest (owner + 1) _⟩

/-- The routines of the functions of a file are there before any body is compiled. -/
theorem awaits_declare (references : ReferenceSet) (file : File) :
    ∀ method ∈ (typesOf references file).flatMap TypeInfo.methods,
      (declare references file .empty).2.Awaits method := by
  intro method inside
  obtain ⟨info, listed, member⟩ := List.mem_flatMap.mp inside
  obtain ⟨owner, here⟩ := List.getElem?_of_mem listed
  exact ⟨isTyped_acceptMembers references _ _ _ _ info listed method member,
    _, reserved_declare here member, rfl⟩

end Declarations

/-! ## Units -/

/-- The places in the text of the names of variables. -/
def spansOf (lets : List (List LetVariable × RoutineIndex)) : List Span :=
  lets.flatMap fun entry ↦ entry.1.map fun each ↦ each.name.span

/-- The lint about unused variables is exact in a unit whose routines have these variables of lets. The
variables of each routine are stored in slots of their own. The warnings are those about the variables
that the code of their routines does not load and whose names do not start with an underscore. So a
variable whose name stands in a place of its own is reported there if and only if it is one of these. -/
structure UnusedLintIsExact (unit : CompiledUnit) (lets : List (List LetVariable × RoutineIndex)) :
    Prop where
  routines : lets.map Prod.snd = List.range unit.image.routines.size
  stores : ∀ entry ∈ lets, (entry.1.map LetVariable.index).Nodup ∧
    ∃ routine, unit.image.routines[entry.2]? = some routine ∧
      ∀ each ∈ entry.1, .store (each.slot routine.arity) ∈ routine.code.toList
  warnings : (unit.findings.filter fun finding ↦ finding.code = .unusedLocal).Perm
    (unusedWarnings unit.image.routines lets)
  reported : ∀ entry ∈ lets, ∀ each ∈ entry.1, (spansOf lets).count each.name.span = 1 →
    ∀ routine, unit.image.routines[entry.2]? = some routine →
      ((∃ finding ∈ unit.findings,
          finding.code = .unusedLocal ∧ finding.position = some each.name.span) ↔
        each.name.name.toList.head? ≠ some '_' ∧
          .load (each.slot routine.arity) ∉ routine.code.toList)

section Exact

variable {routines : Array Routine} {lets : List (List LetVariable × RoutineIndex)}

theorem isUnused_iff {each : LetVariable} {arity : Nat} {code : List Op} :
    each.isUnused arity code = true ↔
      each.name.name.toList.head? ≠ some '_' ∧ .load (each.slot arity) ∉ code := by
  simp [LetVariable.isUnused, and_comm]

theorem mem_unusedWarnings {finding : Diagnostic Span} :
    finding ∈ unusedWarnings routines lets ↔ ∃ entry ∈ lets, ∃ routine,
      routines[entry.2]? = some routine ∧
      ∃ each ∈ entry.1, each.isUnused routine.arity routine.code.toList = true ∧
        each.warning = finding := by
  refine List.mem_flatMap.trans (exists_congr fun entry ↦ and_congr_right fun _ ↦ ?_)
  cases routines[entry.2]? with
  | none => simp
  | some routine => simp [unusedIn, and_assoc]

/-- A variable is known by the place of its name, if no other name stands there. -/
theorem eq_of_span {entry entry' : List LetVariable × RoutineIndex} {each other : LetVariable}
    (listed : entry ∈ lets) (inside : each ∈ entry.1) (listed' : entry' ∈ lets)
    (inside' : other ∈ entry'.1) (same : other.name.span = each.name.span)
    (alone : (spansOf lets).count each.name.span = 1) : other = each ∧ entry'.2 = entry.2 := by
  let pairs := lets.flatMap fun entry ↦ entry.1.map fun each ↦ (each, entry.2)
  let there (pair : LetVariable × RoutineIndex) : Bool := pair.1.name.span == each.name.span
  have spans : spansOf lets = pairs.map fun pair ↦ pair.1.name.span := by
    simp [spansOf, pairs, List.map_flatMap, Function.comp_def]
  have single : (pairs.filter there).length = 1 := by
    rw [← List.countP_eq_length_filter, ← alone, spans, List.count, List.countP_map]
    rfl
  obtain ⟨only, singleton⟩ := List.length_eq_one_iff.mp single
  have known {entry : List LetVariable × RoutineIndex} {each' : LetVariable} (listed : entry ∈ lets)
      (inside : each' ∈ entry.1) (same : each'.name.span = each.name.span) :
      (each', entry.2) = only := by
    refine List.mem_singleton.mp (singleton ▸ List.mem_filter.mpr ⟨?_, beq_iff_eq.mpr same⟩)
    exact List.mem_flatMap.mpr ⟨entry, listed, List.mem_map_of_mem inside⟩
  exact Prod.mk.inj ((known listed' inside' same).trans (known listed inside rfl).symm)

end Exact

/-- The lint about unused variables is exact in every unit. -/
theorem unusedLint_isExact (references : ReferenceSet) (kind : OutputKind) (unitName : String)
    (file : File) :
    UnusedLintIsExact (compileUnit references kind unitName file)
      (letsOfTypes (typesOf references file)) := by
  let types := typesOf references file
  let methods := types.flatMap TypeInfo.methods
  let drafted := (declare references file .empty).2
  let defined := (defineTypes references types 0 types drafted).2
  let final := (compileFile references kind file .empty).2
  have numbers : methods.map MethodInfo.routine = List.range drafted.routines.size :=
    List.map_flatMap.trans (routinesOf_declare references file)
  have count : drafted.routines.size = methods.length := by
    have lengths := congrArg List.length numbers
    rwa [List.length_map, List.length_range, eq_comm] at lengths
  have accounts : drafted.Accounts defined (letsOfFunctions methods) (types.flatMap letsAdded) :=
    accounts_defineTypes references types types 0 (awaits_declare references file)
      (numbers ▸ List.nodup_range)
  have entries : letsOfTypes types
      = letsOfFunctions methods ++ (types.flatMap letsAdded).zipIdx drafted.routines.size :=
    congrArg _ (congrArg _ count.symm)
  have routines : final.routines = defined.routines :=
    (notes_compileFile references kind file).2.routines
  have unused : final.unused = defined.unused := by
    cases kind with
    | library => rfl
    | executable => exact mute_selectEntry types defined
  have nothing : drafted.unused = 0 := mute_declare references file .empty
  have warnings : (final.findings.reverse.filter fun finding ↦ finding.code = .unusedLocal).Perm
      (unusedWarnings final.routines (letsOfTypes types)) := by
    have same := accounts.unused
    rw [nothing, zero_add, ← entries, ← unused, ← routines] at same
    exact ((List.reverse_perm _).filter _).trans (Multiset.coe_eq_coe.mp same)
  refine
    { routines := ?_
      stores := fun entry listed ↦ ?_
      warnings := warnings
      reported := fun entry listed each inside alone routine found ↦ ⟨?_, ?_⟩ }
  · change _ = List.range final.routines.size
    rw [entries, List.map_append, routines_letsOfFunctions, numbers, List.zipIdx_map_snd, routines,
      accounts.size, List.range_eq_range', List.range_eq_range', ← List.range'_append_1, Nat.zero_add]
  · exact (accounts.placed entry (entries ▸ listed)).kept (congrArg (·[entry.2]?) routines)
  · rintro ⟨finding, reported, code, position⟩
    have warned := warnings.mem_iff.mp (List.mem_filter.mpr ⟨reported, decide_eq_true code⟩)
    obtain ⟨entry', listed', routine', found', other, inside', unused, rfl⟩ :=
      mem_unusedWarnings.mp warned
    obtain ⟨rfl, same⟩ := eq_of_span listed inside listed' inside' (Option.some.inj position) alone
    rw [same] at found'
    obtain rfl := Option.some.inj (found.symm.trans found')
    exact isUnused_iff.mp unused
  · intro unused
    have due := mem_unusedWarnings.mpr
      ⟨entry, listed, routine, found, each, inside, isUnused_iff.mpr unused, rfl⟩
    obtain ⟨reported, -⟩ := List.mem_filter.mp (warnings.mem_iff.mpr due)
    exact ⟨each.warning, reported, rfl, rfl⟩

end GuestScript.Compile
