import GuestScript.Proofs.Compile.Echoes
import GuestScript.Proofs.Compile.Strictness
import GuestScript.Proofs.Host.Resolving

/-!
# More references, and other positions

What holds of bodies holds of files: a file that is compiled without an error has the same image where
there are more modules to use, and wherever its parts stand in the text. So a program that compiles
stays the same if it asks for more modules than before, which is `Compilation.widerReferences`.
-/

namespace GuestScript

namespace Compile

open Bytecode (Op TypeDefinition TypeIndex)
open Syntax

variable {settled : Prop} {references wider : ReferenceSet}

/-! ## Declarations -/

section Declarations

open Draft

variable {resolve resolve' : TypeExpression → Drafting Ty}

theorem echoes_acceptTypes : (declarations accepted : List TypeDeclaration) →
    EchoesAs settled (List.map TypeDeclaration.bare) (acceptTypes accepted declarations)
      (acceptTypes (accepted.map TypeDeclaration.bare) (declarations.map TypeDeclaration.bare))
  | [], _ => .pure _ _
  | declaration :: rest, accepted => by
      have taken : (accepted.map TypeDeclaration.bare).any
          (fun earlier ↦ (nameOf earlier).full = (nameOf declaration.bare).full)
          = accepted.any fun earlier ↦ (nameOf earlier).full = (nameOf declaration).full :=
        List.any_map
      simp only [List.map_cons, acceptTypes, taken]
      exact .ite ((echoes_report _ _ _).bind fun _ ↦ echoes_acceptTypes rest accepted)
        (echoes_acceptTypes rest (declaration :: accepted))

theorem echoes_acceptFields
    (resolves : ∀ written, Echoes settled (resolve written) (resolve' written.bare)) :
    (fields : List FieldDeclaration) → (accepted : List FieldInfo) →
    EchoesAs settled (List.map FieldInfo.bare) (acceptFields resolve accepted fields)
      (acceptFields resolve' (accepted.map FieldInfo.bare) (fields.map FieldDeclaration.bare))
  | [], _ => .pure _ _
  | field :: rest, accepted => by
      have taken : (accepted.map FieldInfo.bare).any
          (fun earlier ↦ earlier.name = field.bare.name.name)
          = accepted.any fun earlier ↦ earlier.name = field.name.name := List.any_map
      simp only [List.map_cons, acceptFields, taken]
      refine .ite ((echoes_report _ _ _).bind fun _ ↦ echoes_acceptFields resolves rest accepted)
        ((resolves field.type).bind fun type ↦ ?_)
      have next := echoes_acceptFields resolves rest
        (accepted ++ [⟨field.name.name, type, field.value⟩])
      rw [List.map_append] at next
      exact next

theorem echoes_mapM_resolve
    (resolves : ∀ written, Echoes settled (resolve written) (resolve' written.bare)) :
    (parameters : List Parameter) →
    Echoes settled (parameters.mapM fun parameter ↦ resolve parameter.type)
      ((parameters.map Parameter.bare).mapM fun parameter ↦ resolve' parameter.type)
  | [] => .pure _ _
  | first :: rest => by
      rw [List.map_cons, List.mapM_cons, List.mapM_cons]
      exact (resolves first.type).bind fun _ ↦ (echoes_mapM_resolve resolves rest).map fun _ ↦ rfl

theorem echoes_signatureOf
    (resolves : ∀ written, Echoes settled (resolve written) (resolve' written.bare))
    (function : FunctionDeclaration) :
    Echoes settled (signatureOf resolve function) (signatureOf resolve' function.bare) := by
  refine (echoes_mapM_resolve resolves function.parameters).bind fun parameters ↦ ?_
  have result : function.bare.result = function.result.map TypeExpression.bare := rfl
  rw [result]
  cases function.result with
  | some result => exact (resolves result).map fun _ ↦ rfl
  | none => exact .pure _ _

theorem echoes_acceptFunctions
    (resolves : ∀ written, Echoes settled (resolve written) (resolve' written.bare))
    (owner : TypeIndex) (ownerName : String) :
    (functions : List FunctionDeclaration) → (accepted : List MethodInfo) →
    EchoesAs settled (List.map MethodInfo.bare)
      (acceptFunctions resolve owner ownerName accepted functions)
      (acceptFunctions resolve' owner ownerName (accepted.map MethodInfo.bare)
        (functions.map FunctionDeclaration.bare))
  | [], _ => .pure _ _
  | function :: rest, accepted => by
      have taken : (accepted.map MethodInfo.bare).any
          (fun earlier ↦ earlier.name = function.bare.name.name)
          = accepted.any fun earlier ↦ earlier.name = function.name.name := List.any_map
      simp only [List.map_cons, acceptFunctions, taken]
      refine .ite ((echoes_report _ _ _).bind fun _ ↦
          echoes_acceptFunctions resolves owner ownerName rest accepted)
        ((echoes_signatureOf resolves function).bind fun signature ↦
          (echoes_reserve _).bind fun routine ↦ ?_)
      have next := echoes_acceptFunctions resolves owner ownerName rest
        (accepted ++ [⟨function.name.name, routine, signature.1, signature.2, function⟩])
      rw [List.map_append] at next
      exact next

theorem echoes_acceptMembers (within : references.Within settled wider) (names : List TypeName) :
    (declarations : List TypeDeclaration) → (index : TypeIndex) →
    EchoesAs settled (List.map TypeInfo.bare) (acceptMembers references names index declarations)
      (acceptMembers wider names index (declarations.map TypeDeclaration.bare))
  | [], _ => .pure _ _
  | declaration :: rest, index => by
      have resolves := echoes_resolveType within names (nameOf declaration).namespaceName
      rw [List.map_cons, acceptMembers, acceptMembers]
      exact (echoes_acceptFields resolves declaration.fields []).bind fun _ ↦
        (echoes_acceptFunctions resolves index (nameOf declaration).full declaration.functions
          []).bind fun _ ↦ (echoes_acceptMembers within names rest (index + 1)).map fun _ ↦ rfl

/-- The types of a file are declared the same without positions and with more modules. -/
theorem echoes_declare (within : references.Within settled wider) (file : File) :
    EchoesAs settled (List.map TypeInfo.bare) (declare references file)
      (declare wider file.bare) := by
  refine (echoes_acceptTypes file.types []).bind fun accepted ↦ ?_
  have names : (accepted.reverse.map TypeDeclaration.bare).map nameOf
      = accepted.reverse.map nameOf := List.map_map
  have reversed : (accepted.map TypeDeclaration.bare).reverse
      = accepted.reverse.map TypeDeclaration.bare := List.map_reverse.symm
  simp only [reversed, names]
  exact echoes_acceptMembers within _ accepted.reverse 0

end Declarations

/-! ## Routines -/

section Routines

open Lowering

variable (setting : Setting)

theorem echoes_firstValueCode (within : setting.references.Within settled wider)
    (field : FieldInfo) (start : Nat) : Echoes settled (firstValueCode setting field start)
      (firstValueCode (setting.bare wider) field.bare start) := by
  obtain ⟨name, type, value⟩ := field
  cases value with
  | some value =>
      simp only [firstValueCode, FieldInfo.bare, Option.map_some, span_bare]
      exact (echoes_expression setting within value _ _).bind fun _ ↦
        (echoes_check _ _ _).map fun _ ↦ rfl
  | none => exact .pure _ _

theorem echoes_initializeFields (within : setting.references.Within settled wider)
    (receiver : Nat) : (fields : List FieldInfo) → (position : Nat) → (before : List Op) →
    (start : Nat) →
    Echoes settled (initializeFields setting receiver fields position before start)
      (initializeFields (setting.bare wider) receiver (fields.map FieldInfo.bare) position before
        start)
  | [], _, _, _ => .pure _ _
  | field :: rest, position, before, start => by
      rw [List.map_cons, initializeFields, initializeFields]
      exact (echoes_firstValueCode setting within field _).bind fun _ ↦
        echoes_initializeFields within receiver rest _ _ _

theorem echoes_defineInitializer (within : setting.references.Within settled wider)
    (fields : List FieldInfo) : Draft.Echoes settled (defineInitializer setting fields)
      (defineInitializer (setting.bare wider) (fields.map FieldInfo.bare)) := by
  have inside : Echoes settled (initializerInside setting fields)
      (initializerInside (setting.bare wider) (fields.map FieldInfo.bare)) :=
    echoes_allocate.bind fun receiver ↦
      echoes_initializeFields { setting with receiver := some receiver } within receiver fields 0
        [] 0
  have empty : (fields.map FieldInfo.bare).isEmpty = fields.isEmpty := List.isEmpty_map
  simp only [defineInitializer, empty]
  exact .ite (.pure _ _) ((echoes_addRoutine _ _ inside).map fun _ ↦ rfl)

theorem echoes_methodInside (within : setting.references.Within settled wider)
    (method : MethodInfo) : Echoes settled (methodInside setting method)
      (methodInside (setting.bare wider) method.bare) := by
  have names : method.bare.declaration.parameters.map Parameter.name
      = (method.declaration.parameters.map Parameter.name).map Identifier.bare := by
    change (method.declaration.parameters.map Parameter.bare).map Parameter.name = _
    rw [List.map_map, List.map_map]
    rfl
  have rest (receiver : Option Nat) : Echoes settled (do
      declareParameters
        ((method.declaration.parameters.map Parameter.name).zip method.parameters)
      block { setting with receiver } method.declaration.body 0) (do
      declareParameters
        (((method.declaration.parameters.map Parameter.name).map Identifier.bare).zip
          method.parameters)
      block { setting.bare wider with receiver } method.declaration.body.bare 0) := by
    rw [zip_bare]
    exact (echoes_declareParameters _).bind fun _ ↦
      echoes_block { setting with receiver } within method.declaration.body 0
  unfold methodInside
  simp only [names]
  refine .ite (Echoing.bind (.pure (fun receiver ↦ receiver) none) fun receiver ↦ rest receiver)
    (echoes_allocate.bind fun slot ↦
      Echoing.bind (.pure (fun receiver ↦ receiver) (some slot)) fun receiver ↦ rest receiver)

theorem echoes_defineMethod (within : setting.references.Within settled wider)
    (method : MethodInfo) : Draft.Echoes settled (defineMethod setting method)
      (defineMethod (setting.bare wider) method.bare) := by
  have returns : blockReturns method.bare.declaration.body
      = blockReturns method.declaration.body := blockReturns_bare method.declaration.body
  have checked : Draft.Echoes settled (checkReturns method) (checkReturns method.bare) := by
    simp only [checkReturns, returns]
    exact .ite (Draft.echoes_report _ _ _) (.pure _ ())
  exact (echoes_alone (echoes_methodInside setting within method)).bind fun _ ↦
    checked.bind fun _ ↦ Draft.echoes_complete _ _ _

theorem echoes_defineMethods (within : setting.references.Within settled wider) :
    (methods : List MethodInfo) → Draft.Echoes settled (defineMethods setting methods)
      (defineMethods (setting.bare wider) (methods.map MethodInfo.bare))
  | [] => .pure _ ()
  | method :: rest => by
      rw [List.map_cons, defineMethods, defineMethods]
      let inside : Setting :=
        { setting with routineName := method.name, result := method.result }
      exact (echoes_defineMethod inside within method).bind fun _ ↦
        echoes_defineMethods within rest

variable {types : List TypeInfo}

theorem echoes_defineType (within : references.Within settled wider) (owner : TypeIndex)
    (info : TypeInfo) : Draft.Echoes settled (defineType references types owner info)
      (defineType wider (types.map TypeInfo.bare) owner info.bare) := by
  let setting : Setting := ⟨references, types, owner, info.name, initializerName, none, .unit⟩
  refine (echoes_defineInitializer setting within info.fields).bind fun initializer ↦
    (echoes_defineMethods setting within info.methods).bind fun _ ↦ ?_
  have fields : info.bare.fields.map FieldInfo.name = info.fields.map FieldInfo.name := List.map_map
  have methods : info.bare.methods.map MethodInfo.routine = info.methods.map MethodInfo.routine :=
    List.map_map
  rw [fields, methods]
  exact .pure _ _

theorem echoes_defineTypes (within : references.Within settled wider) : (infos : List TypeInfo) →
    (owner : TypeIndex) → Draft.Echoes settled (defineTypes references types owner infos)
      (defineTypes wider (types.map TypeInfo.bare) owner (infos.map TypeInfo.bare))
  | [], _ => .pure _ _
  | info :: rest, owner => by
      rw [List.map_cons, defineTypes, defineTypes]
      exact (echoes_defineType within owner info).bind fun _ ↦
        (echoes_defineTypes within rest (owner + 1)).map fun _ ↦ rfl

end Routines

/-! ## The entry -/

section Entries

open Draft

theorem entryCandidates_bare (types : List TypeInfo) :
    entryCandidates (types.map TypeInfo.bare)
      = (entryCandidates types).map fun (type, method) ↦ (type.bare, method.bare) := by
  rw [entryCandidates, entryCandidates, List.flatMap_map, List.map_flatMap]
  refine congrArg (List.flatMap · types) (funext fun type ↦ ?_)
  change ((type.methods.map MethodInfo.bare).filter _).map _ = _
  rw [List.filter_map, List.map_map, List.map_map]
  rfl

theorem echoes_reportEntries (count : Nat) : (candidates : List (TypeInfo × MethodInfo)) →
    Echoes settled (reportEntries count candidates)
      (reportEntries count (candidates.map fun (type, method) ↦ (type.bare, method.bare)))
  | [] => .pure _ ()
  | (type, method) :: rest => by
      rw [List.map_cons, reportEntries, reportEntries]
      exact (echoes_report _ _ _).bind fun _ ↦ echoes_reportEntries count rest

theorem echoes_selectEntry (types : List TypeInfo) :
    Echoes settled (selectEntry types) (selectEntry (types.map TypeInfo.bare)) := by
  let bareEntry : TypeInfo × MethodInfo → TypeInfo × MethodInfo := fun (type, method) ↦
    (type.bare, method.bare)
  unfold selectEntry
  rw [entryCandidates_bare]
  match entryCandidates types with
  | [] => exact (echoes_note _).map fun _ ↦ rfl
  | [(type, method)] => exact .ite (.pure _ _) ((echoes_report _ _ _).map fun _ ↦ rfl)
  | (type, method) :: second :: rest =>
      let many := (type, method) :: second :: rest
      have entries : Echoes settled (reportEntries many.length many)
          (reportEntries (many.map bareEntry).length (many.map bareEntry)) := by
        rw [List.length_map]
        exact echoes_reportEntries _ many
      exact entries.give

end Entries

/-! ## Units -/

section Units

variable {kind : OutputKind} {file file' : File}

/-- A file is compiled the same without positions and with more modules, if there is no error. -/
theorem echoes_compileFile (within : references.Within settled wider) (kind : OutputKind)
    (file : File) : Draft.Echoes settled (compileFile references kind file)
      (compileFile wider kind file.bare) := by
  refine (echoes_declare within file).bind fun types ↦
    (echoes_defineTypes within types 0).bind fun _ ↦ ?_
  cases kind with
  | executable => exact (echoes_selectEntry types).map fun _ ↦ rfl
  | library => exact .pure _ _

/-- A unit without the positions of what was found in it. -/
def CompiledUnit.bare (unit : CompiledUnit) : CompiledUnit :=
  { unit with findings := unit.findings.map Diagnostic.bare }

theorem compileUnit_bare (within : references.Within settled wider) (unitName : String)
    (calm : (compileFile references kind file .empty).2.Calm settled) :
    compileUnit wider kind unitName file.bare
      = (compileUnit references kind unitName file).bare := by
  have echoed : compileFile wider kind file.bare .empty
      = ((compileFile references kind file .empty).1,
          (compileFile references kind file .empty).2.bare) :=
    (echoes_compileFile within kind file .empty calm).2
  rw [compileUnit, compileUnit, echoed]
  generalize compileFile references kind file .empty = compiled
  obtain ⟨⟨definitions, entry⟩, draft⟩ := compiled
  exact congrArg (CompiledUnit.mk _ _) List.map_reverse.symm

/-- A file without errors gives the same unit up to positions where there are more modules, and so
does a file whose types stand elsewhere. -/
theorem bare_compileUnit (within : references.IsWithin wider) (unitName : String)
    (same : file.bare.types = file'.bare.types)
    (quiet : (compileFile references kind file .empty).2.Quiet) :
    (compileUnit wider kind unitName file').bare
      = (compileUnit references kind unitName file).bare := by
  -- what a file asks for is nothing that its types depend on
  have alone (file : File) : compileUnit wider kind unitName file
      = compileUnit wider kind unitName ⟨[], file.types⟩ := rfl
  have wider' : references.Within False wider := ⟨within, False.elim⟩
  have itself : wider.Within True wider := ⟨fun found ↦ found, fun _ _ ↦ rfl⟩
  have left : compileUnit wider kind unitName file.bare
      = (compileUnit references kind unitName file).bare :=
    compileUnit_bare wider' unitName (.inr quiet)
  have right : compileUnit wider kind unitName file'.bare
      = (compileUnit wider kind unitName file').bare :=
    compileUnit_bare itself unitName (.inl trivial)
  rw [← left, ← right, alone file.bare, same, ← alone file'.bare]

end Units

end Compile

/-! ## Modules that are found -/

/-- Asking for more modules, in any order and as often as one likes, loses none. -/
def Resolver.IsMonotone (resolver : Resolver) : Prop :=
  ∀ {imports more : List String}, imports ⊆ more → (resolver imports).IsWithin (resolver more)

theorem Resolver.isMonotone_probing (isFile : String → Bool) (table : ModuleTable) :
    (probing isFile table).IsMonotone := by
  intro imports more kept name binding found
  have among : name ∈ candidates imports → name ∈ candidates more := fun inside ↦
    List.mem_append.mpr ((List.mem_append.mp inside).imp_right fun asked ↦ kept asked)
  rw [probing, ReferenceSet.lookup_foldl_resolveName] at found ⊢
  split at found
  · next both => rwa [if_pos ⟨among both.1, both.2⟩]
  · cases found

theorem Resolver.isMonotone_ofTable (table : ModuleTable) : (ofTable table).IsMonotone :=
  isMonotone_probing (fun _ ↦ true) table

theorem Resolver.isMonotone_fixed (names : List String) (table : ModuleTable) :
    (fixed names table).IsMonotone :=
  fun _ _ _ found ↦ found

/-! ## Compilations -/

namespace Compilation

open Compile (CompiledUnit compileUnit eq_ok_of_toOption)
open Syntax (File)

variable {options : CompileOptions} {unitName : String} {source source' : SourceUnit}
  {file file' : File} {references wider : ReferenceSet} {result : CompilationResult}

/-- Whether a finding is reported does not depend on its position. -/
theorem reportable_bare (options : CompileOptions) (findings : List (Diagnostic Span)) :
    reportable options (findings.map Diagnostic.bare)
      = (reportable options findings).map Diagnostic.bare := by
  let raise (finding : Diagnostic Span) : Diagnostic Span :=
    if options.warningsAsErrors then finding.escalate else finding
  have raised (finding : Diagnostic Span) : raise finding.bare = (raise finding).bare := by
    unfold raise
    split
    · exact finding.bare_escalate.symm
    · rfl
  have first : (findings.map Diagnostic.bare).map raise
      = (findings.map raise).map Diagnostic.bare := by
    rw [List.map_map, List.map_map]
    exact List.map_congr_left fun finding _ ↦ raised finding
  change ((findings.map Diagnostic.bare).map raise).filter Diagnostic.isReportable = _
  rw [first, List.filter_map]
  rfl

/-- A program that compiles gives the same where there are more modules, wherever its types stand and
whatever it asks for. -/
theorem compile_wider (within : references.IsWithin wider)
    (same : file.bare.types = file'.bare.types)
    (compiled : compile options unitName source file references = .ok result)
    (success : result.success = true) :
    compile options unitName source' file' wider = .ok result := by
  obtain ⟨-, rfl⟩ | ⟨none, passed, rfl⟩ := cases_of_compile compiled
  · exact absurd success nofun
  · have bare : (compileUnit wider options.kind unitName file').bare
        = (compileUnit references options.kind unitName file).bare :=
      Compile.bare_compileUnit within unitName same (Compile.quiet_of_unitDiagnostics none)
    obtain ⟨image, entry, findings⟩ := CompiledUnit.mk.inj bare
    have quiet : unitDiagnostics options source'
        (compileUnit wider options.kind unitName file') = [] := by
      rw [unitDiagnostics_eq_nil_iff] at none ⊢
      rw [← List.map_eq_nil_iff, ← reportable_bare, findings, reportable_bare, none, List.map_nil]
    rw [← image] at passed ⊢
    rw [← entry]
    exact compile_of_nil quiet passed

/-- A text is compiled as the tree that it is parsed to. -/
theorem compileSource_of_parse (parsed : Syntax.parse source = .ok file) {resolver : Resolver} :
    compileSource options unitName source resolver
      = compile options unitName source file (resolver file.importNames) := by
  unfold compileSource
  simp only [parsed]

/-- What more modules change of a program that compiles: nothing. A syntax tree that compiles gives the
same bytes and the same entry with every set of references that has the modules of the first one. So
does a tree with the same types that asks for the same modules and for more, however often and in
whatever order, and so does a text of such a tree. -/
structure WiderReferences (options : CompileOptions) (unitName : String) : Prop where
  modules : ∀ source file references wider result, references.IsWithin wider →
    compile options unitName source file references = .ok result → result.success = true →
    compile options unitName source file wider = .ok result
  asks : ∀ resolver : Resolver, resolver.IsMonotone → ∀ source source' file file' result,
    file.bare.types = file'.bare.types → file.importNames ⊆ file'.importNames →
    compile options unitName source file (resolver file.importNames) = .ok result →
    result.success = true →
    compile options unitName source' file' (resolver file'.importNames) = .ok result
  texts : ∀ resolver : Resolver, resolver.IsMonotone → ∀ source source' file file' result,
    Syntax.parse source = .ok file → Syntax.parse source' = .ok file' →
    file.bare.types = file'.bare.types → file.importNames ⊆ file'.importNames →
    compileSource options unitName source resolver = .ok result → result.success = true →
    compileSource options unitName source' resolver = .ok result
  resolvers : ∀ table, (Resolver.ofTable table).IsMonotone ∧
    (∀ isFile, (Resolver.probing isFile table).IsMonotone) ∧
    ∀ names, (Resolver.fixed names table).IsMonotone

/-- A program that compiles stays the same if there are more modules. -/
theorem widerReferences (options : CompileOptions) (unitName : String) :
    WiderReferences options unitName where
  modules source file references wider result within compiled success :=
    compile_wider within rfl compiled success
  asks resolver monotone source source' file file' result same kept compiled success :=
    compile_wider (monotone kept) same compiled success
  texts resolver monotone source source' file file' result parsed parsed' same kept compiled
      success := by
    rw [compileSource_of_parse parsed] at compiled
    rw [compileSource_of_parse parsed']
    exact compile_wider (monotone kept) same compiled success
  resolvers table := ⟨Resolver.isMonotone_ofTable table,
    fun isFile ↦ Resolver.isMonotone_probing isFile table,
    fun names ↦ Resolver.isMonotone_fixed names table⟩

/-- A program that asks for a module. -/
def askingSource : SourceUnit :=
  ⟨"use seq;type P{static fn main(p:[str]){io::print_line(seq::len(p));}}", .v2⟩

theorem widerReferences_asking : ∃ file asked result,
    Syntax.parse askingSource = .ok file ∧
      asked.importNames = ["text", "seq", "missing", "seq"] ∧
      compile {} "unit" askingSource file (Resolver.ofTable .standard file.importNames)
        = .ok result ∧
      result.success = true ∧
      compile {} "unit" askingSource asked (Resolver.ofTable .standard asked.importNames)
        = .ok result := by
  let outcome (file : File) : Option Bool :=
    (compile {} "unit" askingSource file
      (Resolver.ofTable .standard file.importNames)).toOption.map CompilationResult.success
  have judged : (Syntax.parse askingSource).toOption.any (fun file ↦
      outcome file = some true && file.importNames = ["seq"]) = true := by
    decide +kernel
  obtain ⟨file, parsed, judged⟩ := (Option.any_eq_true _ _).mp judged
  obtain ⟨left, right⟩ := Bool.and_eq_true_iff.mp judged
  obtain ⟨result, compiled, success⟩ := Option.map_eq_some_iff.mp (of_decide_eq_true left)
  have alone : file.importNames = ["seq"] := of_decide_eq_true right
  let names := ["text", "seq", "missing", "seq"]
  let asked : File := ⟨names.map fun name ↦ ⟨name, .nowhere⟩, file.types⟩
  have more : ["seq"] ⊆ names := by decide
  have kept : file.importNames ⊆ asked.importNames := by rw [alone]; exact more
  have wider := widerReferences {} "unit"
  exact ⟨file, asked, result, eq_ok_of_toOption parsed, rfl, eq_ok_of_toOption compiled, success,
    wider.asks _ (wider.resolvers .standard).1 askingSource askingSource file asked result rfl kept
      (eq_ok_of_toOption compiled) success⟩

end Compilation

end GuestScript
