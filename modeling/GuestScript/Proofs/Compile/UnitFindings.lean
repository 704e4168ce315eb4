import GuestScript.Proofs.Compile.Findings

/-!
# Findings in units

What holds of the findings in bodies holds of those in a whole file: `isFinding_compileUnit`. A finding
is an error or a warning of a kind that is never more than one, and what it says is plain if the names
in the file and in the signatures of the modules are.
-/

namespace GuestScript.Compile

open Bytecode (Op TypeIndex)
open Syntax

variable {words : Vocabulary}

/-! ## Declarations -/

section Declarations

open Draft

variable {resolve : TypeExpression → Drafting Ty}

theorem isPlain_nameOf {declaration : TypeDeclaration} (plain : declaration.IsPlain words) :
    (nameOf declaration).IsPlain words :=
  ⟨plain.namespaceName, plain.name⟩

theorem says_acceptTypes : {declarations accepted : List TypeDeclaration} →
    (∀ declaration ∈ declarations, declaration.IsPlain words) →
    (∀ declaration ∈ accepted, declaration.IsPlain words) →
    Says words (acceptTypes accepted declarations) fun made ↦
      ∀ declaration ∈ made, declaration.IsPlain words
  | [], _, _, before => .pure before
  | declaration :: rest, accepted, plain, before => by
      obtain ⟨here, others⟩ := List.forall_mem_cons.mp plain
      simp only [acceptTypes]
      refine .ite ((says_report ?_).bind fun _ _ ↦ says_acceptTypes others before)
        (says_acceptTypes others (List.forall_mem_cons.mpr ⟨here, before⟩))
      exact words.plain_between (by decide) (isPlain_nameOf here).full (by decide)

theorem says_acceptFields
    (resolves : ∀ written : TypeExpression, written.IsPlain words →
      Says words (resolve written) fun type ↦ type.IsPlain words) :
    {fields : List FieldDeclaration} → {accepted : List FieldInfo} →
    (∀ field ∈ fields, field.IsPlain words) → (∀ field ∈ accepted, field.IsPlain words) →
    Says words (acceptFields resolve accepted fields) fun made ↦ ∀ field ∈ made, field.IsPlain words
  | [], _, _, before => .pure before
  | field :: rest, accepted, plain, before => by
      obtain ⟨here, others⟩ := List.forall_mem_cons.mp plain
      simp only [acceptFields]
      refine .ite ((says_report (words.plain_between (by decide) here.name (by decide))).bind
        fun _ _ ↦ says_acceptFields resolves others before) ?_
      exact (resolves _ here.type).bind fun type there ↦ says_acceptFields resolves others
        (List.forall_mem_append.mpr
          ⟨before, List.forall_mem_singleton.mpr ⟨here.name, there, here.value⟩⟩)

theorem says_mapM_resolve
    (resolves : ∀ written : TypeExpression, written.IsPlain words →
      Says words (resolve written) fun type ↦ type.IsPlain words) :
    {parameters : List Parameter} → (∀ parameter ∈ parameters, parameter.IsPlain words) →
    Says words (parameters.mapM fun parameter ↦ resolve parameter.type) fun types ↦
      ∀ type ∈ types, type.IsPlain words
  | [], _ => .pure (List.forall_mem_nil _)
  | first :: rest, plain => by
      obtain ⟨here, others⟩ := List.forall_mem_cons.mp plain
      rw [List.mapM_cons]
      exact (resolves _ here.type).bind fun _ type ↦
        (says_mapM_resolve resolves others).map fun _ types ↦
          List.forall_mem_cons.mpr ⟨type, types⟩

theorem says_signatureOf
    (resolves : ∀ written : TypeExpression, written.IsPlain words →
      Says words (resolve written) fun type ↦ type.IsPlain words)
    {function : FunctionDeclaration} (plain : function.IsPlain words) :
    Says words (signatureOf resolve function) fun signature ↦
      (∀ type ∈ signature.1, type.IsPlain words) ∧ signature.2.IsPlain words := by
  refine (says_mapM_resolve resolves plain.parameters).bind fun parameters here ↦ ?_
  split
  · next result given =>
      exact (resolves result (plain.result result given)).map fun _ there ↦ ⟨here, there⟩
  · exact .pure ⟨here, trivial⟩

theorem says_acceptFunctions
    (resolves : ∀ written : TypeExpression, written.IsPlain words →
      Says words (resolve written) fun type ↦ type.IsPlain words)
    (owner : TypeIndex) {ownerName : String} (owned : words.plain ownerName) :
    {functions : List FunctionDeclaration} → {accepted : List MethodInfo} →
    (∀ function ∈ functions, function.IsPlain words) →
    (∀ method ∈ accepted, method.IsPlain words) →
    Says words (acceptFunctions resolve owner ownerName accepted functions) fun made ↦
      ∀ method ∈ made, method.IsPlain words
  | [], _, _, before => .pure before
  | function :: rest, accepted, plain, before => by
      obtain ⟨here, others⟩ := List.forall_mem_cons.mp plain
      simp only [acceptFunctions]
      refine .ite ((says_report
        (words.plain_between_two (by decide) here.name (by decide) owned (by decide))).bind
          fun _ _ ↦ says_acceptFunctions resolves owner owned others before) ?_
      refine (says_signatureOf resolves here).bind fun signature there ↦
        (says_reserve _).bind fun routine _ ↦ says_acceptFunctions resolves owner owned others ?_
      exact List.forall_mem_append.mpr
        ⟨before, List.forall_mem_singleton.mpr ⟨here.name, there.1, there.2, here⟩⟩

theorem says_acceptMembers (references : ReferenceSet) {names : List TypeName}
    (named : ∀ name ∈ names, name.IsPlain words) : {declarations : List TypeDeclaration} →
    (owner : TypeIndex) → (∀ declaration ∈ declarations, declaration.IsPlain words) →
    Says words (acceptMembers references names owner declarations) fun types ↦
      ∀ info ∈ types, info.IsPlain words
  | [], _, _ => .pure (List.forall_mem_nil _)
  | declaration :: rest, owner, plain => by
      obtain ⟨here, others⟩ := List.forall_mem_cons.mp plain
      have resolves (written : TypeExpression) (plain : written.IsPlain words) :
          Says words (resolveType references names (nameOf declaration).namespaceName written)
            fun type ↦ type.IsPlain words :=
        says_resolveType named written plain
      have name := isPlain_nameOf here
      rw [acceptMembers]
      exact (says_acceptFields resolves here.fields (List.forall_mem_nil _)).bind
        fun _ fields ↦ (says_acceptFunctions resolves owner name.full here.functions
          (List.forall_mem_nil _)).bind fun _ methods ↦
            (says_acceptMembers references named (owner + 1) others).map fun _ types ↦
              List.forall_mem_cons.mpr ⟨⟨name, fields, methods⟩, types⟩

theorem says_declare (references : ReferenceSet) {file : File} (plain : file.IsPlain words) :
    Says words (declare references file) fun types ↦ ∀ info ∈ types, info.IsPlain words := by
  refine (says_acceptTypes plain (List.forall_mem_nil _)).bind fun accepted here ↦ ?_
  have reversed : ∀ declaration ∈ accepted.reverse, declaration.IsPlain words :=
    fun declaration inside ↦ here declaration (List.mem_reverse.mp inside)
  exact says_acceptMembers references (List.forall_mem_map.mpr fun declaration inside ↦
    isPlain_nameOf (reversed declaration inside)) 0 reversed

end Declarations

/-! ## Routines -/

section Routines

open Lowering

variable {setting : Setting}

theorem says_firstValueCode (plain : setting.IsPlain words) {field : FieldInfo}
    (field' : field.IsPlain words) (start : Nat) :
    Says words (firstValueCode setting field start) fun _ ↦ True := by
  unfold firstValueCode
  split
  · next value given =>
      exact (says_expression value plain (field'.value value given) _
        (isPlain?_some field'.type) _).bind fun _ here ↦
          (says_check field'.type here).map fun _ _ ↦ trivial
  · exact .pure trivial

theorem says_initializeFields (plain : setting.IsPlain words) (receiver : Nat) :
    {fields : List FieldInfo} → (∀ field ∈ fields, field.IsPlain words) → (position : Nat) →
    (before : List Op) → (start : Nat) →
    Says words (initializeFields setting receiver fields position before start) fun _ ↦ True
  | [], _, _, _, _ => .pure trivial
  | field :: rest, fields, position, before, start => by
      obtain ⟨here, others⟩ := List.forall_mem_cons.mp fields
      rw [initializeFields]
      exact (says_firstValueCode plain here _).bind fun _ _ ↦
        says_initializeFields plain receiver others _ _ _

/-- The receiver has no name. -/
theorem Setting.IsPlain.withReceiver (plain : setting.IsPlain words) (receiver : Option Nat) :
    Setting.IsPlain words { setting with receiver } :=
  ⟨plain.references, plain.types, plain.ownerName, plain.result⟩

theorem says_defineInitializer (plain : setting.IsPlain words) {fields : List FieldInfo}
    (fields' : ∀ field ∈ fields, field.IsPlain words) :
    Draft.Says words (defineInitializer setting fields) fun _ ↦ True := by
  have inside : Says words (initializerInside setting fields) fun _ ↦ True :=
    says_allocate.bind fun receiver _ ↦
      says_initializeFields (plain.withReceiver (some receiver)) receiver fields' 0 [] 0
  exact .ite (.pure trivial) ((says_addRoutine _ _ inside).map fun _ _ ↦ trivial)

theorem says_methodInside (plain : setting.IsPlain words) {method : MethodInfo}
    (method' : method.IsPlain words) :
    Says words (methodInside setting method) fun _ ↦ True := by
  have named : ∀ name ∈ method.declaration.parameters.map Parameter.name, name.IsPlain words :=
    List.forall_mem_map.mpr fun parameter inside ↦
      (method'.declaration.parameters parameter inside).name
  have rest (receiver : Option Nat) : Says words (do
      let names := method.declaration.parameters.map Parameter.name
      declareParameters (names.zip method.parameters)
      block { setting with receiver } method.declaration.body 0) fun _ ↦ True :=
    (says_declareParameters (isPlain_zip named method'.parameters)).bind fun _ _ ↦
      says_block _ (plain.withReceiver receiver) method'.declaration.body 0
  unfold methodInside
  refine .ite (Maintains.andThen (.pure trivial) fun receiver ↦ rest receiver) ?_
  exact says_allocate.bind fun slot _ ↦
    Maintains.andThen (.pure trivial) fun receiver ↦ rest receiver

theorem says_defineMethod (plain : setting.IsPlain words) {method : MethodInfo}
    (method' : method.IsPlain words) :
    Draft.Says words (defineMethod setting method) fun _ ↦ True := by
  refine (says_alone (says_methodInside plain method')).bind fun result _ ↦ ?_
  refine Maintains.andThen ?_ fun _ ↦ Draft.says_complete _ _ _
  refine .ite (Draft.says_report ?_) (.pure trivial)
  exact words.plain_between_two (by decide) method'.name (by decide)
    (Ty.plain_text _ method'.result) (by decide)

theorem says_defineMethods (plain : setting.IsPlain words) : {methods : List MethodInfo} →
    (∀ method ∈ methods, method.IsPlain words) →
    Draft.Says words (defineMethods setting methods) fun _ ↦ True
  | [], _ => .pure trivial
  | method :: rest, methods => by
      obtain ⟨here, others⟩ := List.forall_mem_cons.mp methods
      have inner : Setting.IsPlain words
          { setting with routineName := method.name, result := method.result } :=
        ⟨plain.references, plain.types, plain.ownerName, here.result⟩
      rw [defineMethods]
      exact (says_defineMethod inner here).bind fun _ _ ↦ says_defineMethods plain others

variable {references : ReferenceSet} {types : List TypeInfo}

theorem says_defineTypes (signatures : references.IsPlain words)
    (plain : ∀ info ∈ types, info.IsPlain words) : {infos : List TypeInfo} → (owner : TypeIndex) →
    (∀ info ∈ infos, info.IsPlain words) →
    Draft.Says words (defineTypes references types owner infos) fun _ ↦ True
  | [], _, _ => .pure trivial
  | info :: rest, owner, infos => by
      obtain ⟨here, others⟩ := List.forall_mem_cons.mp infos
      have setting : Setting.IsPlain words
          ⟨references, types, owner, info.name, initializerName, none, .unit⟩ :=
        ⟨signatures, plain, here.name, trivial⟩
      have one : Draft.Says words (defineType references types owner info) fun _ ↦ True :=
        (says_defineInitializer setting here.fields).bind fun _ _ ↦
          (says_defineMethods setting here.methods).map fun _ _ ↦ trivial
      rw [defineTypes]
      exact one.bind fun _ _ ↦ (says_defineTypes signatures plain (owner + 1) others).map
        fun _ _ ↦ trivial

end Routines

/-! ## The entry -/

section Entries

open Draft

theorem isPlain_entryCandidates {types : List TypeInfo}
    (plain : ∀ info ∈ types, info.IsPlain words) :
    ∀ candidate ∈ entryCandidates types,
      candidate.1.IsPlain words ∧ candidate.2.IsPlain words := by
  intro candidate inside
  obtain ⟨info, here, inside⟩ := List.mem_flatMap.mp inside
  obtain ⟨method, there, rfl⟩ := List.mem_map.mp inside
  exact ⟨plain info here, (plain info here).methods method (List.mem_filter.mp there).1⟩

theorem says_reportEntries (count : Nat) : {candidates : List (TypeInfo × MethodInfo)} →
    (∀ candidate ∈ candidates, candidate.1.IsPlain words ∧ candidate.2.IsPlain words) →
    Says words (reportEntries count candidates) fun _ ↦ True
  | [], _ => .pure trivial
  | (type, method) :: rest, plain => by
      obtain ⟨here, others⟩ := List.forall_mem_cons.mp plain
      rw [reportEntries]
      refine (says_report ?_).bind fun _ _ ↦ says_reportEntries count others
      exact words.plain_append (words.plain_append
        (words.plain_between (by decide) here.1.name.full (by decide))
        (words.plain_of_lineFree (by decide)))
        (words.plain_between (by decide) (words.plain_toString count) (by decide))

theorem says_selectEntry {types : List TypeInfo} (plain : ∀ info ∈ types, info.IsPlain words) :
    Says words (selectEntry types) fun _ ↦ True := by
  have candidates := isPlain_entryCandidates plain
  unfold selectEntry
  generalize entryCandidates types = found at candidates
  split
  · refine Maintains.forget (fun draft kept ↦ ⟨trivial, ?_⟩)
    exact List.forall_mem_cons.mpr
      ⟨⟨.inl rfl, rfl, words.plain_of_lineFree (by decide)⟩, kept⟩
  · next type method =>
      obtain ⟨here, there⟩ := candidates (type, method) List.mem_cons_self
      refine .ite (.pure trivial) ((says_report ?_).map fun _ _ ↦ trivial)
      have signature : (Ty.function method.parameters method.result).IsPlain words :=
        ⟨Ty.arePlain_iff.mpr there.parameters, there.result⟩
      exact words.plain_append (words.plain_append (words.plain_append
        (words.plain_between (by decide) here.name.full (by decide))
        (words.plain_of_lineFree (by decide))) (words.plain_of_lineFree (by decide)))
        (Ty.plain_text _ signature)
  · exact (says_reportEntries _ candidates).map fun _ _ ↦ trivial

end Entries

/-! ## Units -/

theorem says_compileFile {references : ReferenceSet} (signatures : references.IsPlain words)
    (kind : OutputKind) {file : File} (plain : file.IsPlain words) :
    Draft.Says words (compileFile references kind file) fun _ ↦ True := by
  refine (says_declare references plain).bind fun types here ↦
    (says_defineTypes signatures here 0 here).bind fun _ _ ↦ ?_
  cases kind with
  | executable => exact (says_selectEntry here).map fun _ _ ↦ trivial
  | library => exact Maintains.forget (.pure trivial)

/-- Whatever is found in a file is a finding, and plain if the names in the file and in the signatures
of the modules are. -/
theorem isFinding_compileUnit {references : ReferenceSet} (signatures : references.IsPlain words)
    (kind : OutputKind) (unitName : String) {file : File} (plain : file.IsPlain words) :
    ∀ finding ∈ (compileUnit references kind unitName file).findings, IsFinding words finding :=
  fun finding inside ↦ (says_compileFile signatures kind plain .empty (List.forall_mem_nil _)).2
    finding (List.mem_reverse.mp inside)

end GuestScript.Compile
