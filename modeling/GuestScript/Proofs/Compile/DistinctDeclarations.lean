import GuestScript.Proofs.Compile.TwinUnits

/-!
# Declarations with distinct names

Where no name is declared twice, nothing is left out: the types of a unit are those of its file,
and their functions get routines in the order of the text. What is found in a declaration does not
depend on what is declared before it, so `acceptMembers_eq` can say for each declaration what
becomes of it. This makes an outline of the file, with nothing in it that was not declared.
-/

namespace GuestScript.Compile

open Bytecode (Routine RoutineIndex TypeIndex)
open Syntax

/-! ## Actions that only note findings -/

/-- What an action gives and what it notes does not depend on what there is, and it does nothing
else. -/
def Draft.Detached {Value : Type} (action : Drafting Value) : Prop :=
  ∃ value noted, ∀ draft : Draft,
    action draft = (value, { draft with findings := noted ++ draft.findings })

namespace Draft.Detached

variable {Value Other : Type} {action : Drafting Value}

/-- What is given and noted can be seen from an empty draft. -/
theorem apply (detached : Detached action) (draft : Draft) :
    action draft = ((action .empty).1,
      { draft with findings := (action .empty).2.findings ++ draft.findings }) := by
  obtain ⟨value, noted, same⟩ := detached
  rw [same draft, same .empty]
  change _ = (value, { draft with findings := (noted ++ []) ++ draft.findings })
  rw [List.append_nil]

protected theorem pure (value : Value) : Detached (Pure.pure value : Drafting Value) :=
  ⟨value, [], fun _ ↦ rfl⟩

protected theorem bind {next : Value → Drafting Other} (first : Detached action)
    (second : ∀ value, Detached (next value)) : Detached (action >>= next) := by
  obtain ⟨value, noted, same⟩ := first
  obtain ⟨result, more, same'⟩ := second value
  refine ⟨result, more ++ noted, fun draft ↦ ?_⟩
  change next (action draft).1 (action draft).2 = _
  rw [same draft, same', List.append_assoc]

protected theorem map {make : Value → Other} (first : Detached action) :
    Detached (action >>= fun value ↦ Pure.pure (make value)) :=
  first.bind fun _ ↦ .pure _

theorem report (code : Code) (message : String) (span : Span) :
    Detached (Draft.report code message span) :=
  ⟨(), [.error code message span], fun _ ↦ rfl⟩

protected theorem ite {condition : Prop} [Decidable condition] {other : Drafting Value}
    (first : Detached action) (second : Detached other) :
    Detached (if condition then action else other) := by
  split
  · exact first
  · exact second

end Draft.Detached

open Draft (Detached)

mutual

theorem detached_resolveType (references : ReferenceSet) (names : List TypeName)
    (namespaceName : String) : (written : TypeExpression) →
    Detached (resolveType references names namespaceName written)
  | .int _ | .str _ | .bool _ | .unit _ => .pure _
  | .dyn span => by
      rw [resolveType]
      exact .ite (.pure _) ((Detached.report _ _ span).bind fun _ ↦ .pure _)
  | .array element _ | .seq element _ => by
      rw [resolveType]
      exact (detached_resolveType references names namespaceName element).map
  | .function parameters result _ => by
      rw [resolveType]
      exact (detached_resolveTypes references names namespaceName parameters).bind fun _ ↦
        (detached_resolveType references names namespaceName result).map
  | .named name span => by
      rw [resolveType]
      cases TypeName.find? names name namespaceName with
      | some index => exact .pure _
      | none => exact (Detached.report _ _ span).bind fun _ ↦ .pure _

theorem detached_resolveTypes (references : ReferenceSet) (names : List TypeName)
    (namespaceName : String) : (written : List TypeExpression) →
    Detached (resolveTypes references names namespaceName written)
  | [] => .pure _
  | first :: rest => by
      rw [resolveTypes]
      exact (detached_resolveType references names namespaceName first).bind fun _ ↦
        (detached_resolveTypes references names namespaceName rest).map

end

section Members

variable {resolve : TypeExpression → Drafting Ty}

theorem detached_acceptFields (resolves : ∀ written, Detached (resolve written)) :
    (fields : List FieldDeclaration) → (accepted : List FieldInfo) →
    Detached (acceptFields resolve accepted fields)
  | [], _ => .pure _
  | field :: rest, accepted => by
      rw [acceptFields]
      exact .ite
        ((Detached.report _ _ _).bind fun _ ↦ detached_acceptFields resolves rest accepted)
        ((resolves field.type).bind fun _ ↦ detached_acceptFields resolves rest _)

theorem detached_signatureOf (resolves : ∀ written, Detached (resolve written))
    (function : FunctionDeclaration) : Detached (signatureOf resolve function) := by
  have each : (parameters : List Parameter) →
      Detached (parameters.mapM fun parameter ↦ resolve parameter.type) := by
    intro parameters
    induction parameters with
    | nil => exact .pure []
    | cons first rest ih =>
        rw [List.mapM_cons]
        exact (resolves first.type).bind fun _ ↦ ih.bind fun _ ↦ .pure _
  refine (each function.parameters).bind fun parameters ↦ ?_
  cases function.result with
  | some result => exact (resolves result).map
  | none => exact .pure _

/-- A function with its signature and a routine. -/
def signed (resolve : TypeExpression → Drafting Ty) (function : FunctionDeclaration)
    (routine : RoutineIndex) : MethodInfo :=
  ⟨function.name.name, routine, (signatureOf resolve function .empty).1.1,
    (signatureOf resolve function .empty).1.2, function⟩

/-- What is found in the signature of a function. -/
def signatureNotes (resolve : TypeExpression → Drafting Ty) (function : FunctionDeclaration) :
    List (Diagnostic Span) :=
  (signatureOf resolve function .empty).2.findings

/-- Functions with routines in order. -/
def numbered (resolve : TypeExpression → Drafting Ty) (functions : List FunctionDeclaration)
    (first : RoutineIndex) : List MethodInfo :=
  (functions.zipIdx first).map fun entry ↦ signed resolve entry.1 entry.2

theorem numbered_routines (functions : List FunctionDeclaration) (first : RoutineIndex) :
    (numbered resolve functions first).map MethodInfo.routine
      = List.range' first functions.length := by
  rw [numbered, List.map_map]
  exact List.zipIdx_map_snd first functions

theorem numbered_names (functions : List FunctionDeclaration) (first : RoutineIndex) :
    (numbered resolve functions first).map MethodInfo.name
      = functions.map fun function ↦ function.name.name := by
  have same := List.zipIdx_map_fst first functions
  rw [numbered, List.map_map]
  conv_rhs => rw [← same, List.map_map]
  rfl

/-- Where the routine of each function is known by its name, the numbers do not matter. -/
theorem numbered_eq {place : String → RoutineIndex} (functions : List FunctionDeclaration)
    (first : RoutineIndex)
    (placed : ∀ method ∈ numbered resolve functions first, method.routine = place method.name) :
    numbered resolve functions first
      = functions.map fun function ↦ signed resolve function (place function.name.name) := by
  have same := List.zipIdx_map_fst first functions
  conv_rhs => rw [← same, List.map_map]
  refine List.map_congr_left fun entry inside ↦ ?_
  have routine := placed _ (List.mem_map_of_mem inside)
  change entry.2 = place entry.1.name.name at routine
  rw [routine]
  rfl

end Members

/-! ## What is taken from declarations -/

/-- Between two drafts, these routines were reserved and these findings noted, and nothing else
happened. -/
structure Draft.Takes (routines : List Routine) (noted : List (Diagnostic Span))
    (before after : Draft) : Prop where
  routines : after.routines.toList = before.routines.toList ++ routines
  findings : after.findings = noted ++ before.findings
  imports : after.imports = before.imports
  lambdas : after.lambdas = before.lambdas

namespace Draft

variable {before middle after : Draft} {routines others : List Routine}
  {noted more : List (Diagnostic Span)}

theorem Takes.refl (draft : Draft) : draft.Takes [] [] draft :=
  ⟨(List.append_nil _).symm, rfl, rfl, rfl⟩

theorem Takes.trans (first : before.Takes routines noted middle)
    (second : middle.Takes others more after) :
    before.Takes (routines ++ others) (more ++ noted) after :=
  ⟨by rw [second.routines, first.routines, List.append_assoc],
    by rw [second.findings, first.findings, List.append_assoc],
    second.imports.trans first.imports, second.lambdas.trans first.lambdas⟩

theorem Takes.size (takes : before.Takes routines noted after) :
    after.routines.size = before.routines.size + routines.length := by
  rw [← Array.length_toList, takes.routines, List.length_append, Array.length_toList]

theorem Detached.takes {Value : Type} {action : Drafting Value} (detached : Detached action)
    (draft : Draft) : draft.Takes [] (action .empty).2.findings (action draft).2 := by
  rw [detached.apply draft]
  exact ⟨(List.append_nil _).symm, rfl, rfl, rfl⟩

end Draft

section Functions

variable {resolve : TypeExpression → Drafting Ty} (resolves : ∀ written, Detached (resolve written))

include resolves

/-- Functions with distinct names are all accepted, and get routines in order. -/
theorem acceptFunctions_eq (owner : TypeIndex) (ownerName : String) :
    (functions : List FunctionDeclaration) → (accepted : List MethodInfo) → (draft : Draft) →
    (accepted.map MethodInfo.name ++ functions.map fun function ↦ function.name.name).Nodup →
    (acceptFunctions resolve owner ownerName accepted functions draft).1
        = accepted ++ numbered resolve functions draft.routines.size ∧
      draft.Takes ((numbered resolve functions draft.routines.size).map fun method ↦
          routineOf owner method.declaration method.parameters)
        (functions.map (signatureNotes resolve)).reverse.flatten
        (acceptFunctions resolve owner ownerName accepted functions draft).2
  | [], accepted, draft, _ => ⟨(List.append_nil accepted).symm, .refl draft⟩
  | function :: rest, accepted, draft, distinct => by
      let first := signed resolve function draft.routines.size
      let noted : Draft :=
        { draft with findings := signatureNotes resolve function ++ draft.findings }
      let routine := routineOf owner function first.parameters
      let reserved := (Draft.reserve routine noted).2
      have fresh : accepted.any (fun earlier ↦ earlier.name = function.name.name) = false := by
        rw [List.any_eq_false]
        intro earlier inside same
        exact (List.nodup_append.mp distinct).2.2 _ (List.mem_map_of_mem inside) _
          List.mem_cons_self (of_decide_eq_true same)
      have step : acceptFunctions resolve owner ownerName accepted (function :: rest) draft
          = acceptFunctions resolve owner ownerName (accepted ++ [first]) rest reserved := by
        have signature := (detached_signatureOf resolves function).apply draft
        simp only [acceptFunctions, fresh, Bool.false_eq_true, if_false]
        change acceptFunctions resolve owner ownerName (accepted ++ [⟨function.name.name,
          (signatureOf resolve function draft).2.routines.size,
          (signatureOf resolve function draft).1.1, (signatureOf resolve function draft).1.2,
          function⟩]) rest (Draft.reserve (routineOf owner function
            (signatureOf resolve function draft).1.1) (signatureOf resolve function draft).2).2 = _
        rw [signature]
        rfl
      have distinct' : ((accepted ++ [first]).map MethodInfo.name
          ++ rest.map fun function ↦ function.name.name).Nodup := by
        rw [List.map_append, List.append_assoc]
        exact distinct
      obtain ⟨others, takes⟩ :=
        acceptFunctions_eq owner ownerName rest (accepted ++ [first]) reserved distinct'
      have here : draft.Takes [routine] (signatureNotes resolve function) reserved :=
        ⟨Array.toList_push, rfl, rfl, rfl⟩
      have next : numbered resolve (function :: rest) draft.routines.size
          = first :: numbered resolve rest reserved.routines.size := by
        change _ = first :: numbered resolve rest (noted.routines.push routine).size
        rw [Array.size_push]
        rfl
      rw [step, next]
      refine ⟨others.trans (List.append_assoc _ _ _), ?_⟩
      have both := here.trans takes
      rwa [List.map_cons, List.map_cons, List.reverse_cons, List.flatten_append,
        List.flatten_singleton]

end Functions

/-! ## Types in the order of the text -/

section Types

variable (resolve : String → TypeExpression → Drafting Ty)

/-- The members of declarations, whose functions have routines in order. -/
def infosFrom : List TypeDeclaration → RoutineIndex → List TypeInfo
  | [], _ => []
  | declaration :: rest, first =>
      ⟨nameOf declaration,
        (acceptFields (resolve declaration.namespaceName) [] declaration.fields .empty).1,
        numbered (resolve declaration.namespaceName) declaration.functions first⟩
      :: infosFrom rest (first + declaration.functions.length)

/-- What is found in the signatures of a type. -/
def declarationNotes (declaration : TypeDeclaration) : List (Diagnostic Span) :=
  (declaration.functions.map (signatureNotes (resolve declaration.namespaceName))).reverse.flatten
    ++ (acceptFields (resolve declaration.namespaceName) [] declaration.fields .empty).2.findings

/-- The members of a type whose functions have routines by their names. -/
def infoAt (place : TypeName → String → RoutineIndex) (declaration : TypeDeclaration) : TypeInfo :=
  ⟨nameOf declaration,
    (acceptFields (resolve declaration.namespaceName) [] declaration.fields .empty).1,
    declaration.functions.map fun function ↦ signed (resolve declaration.namespaceName) function
      (place (nameOf declaration) function.name.name)⟩

variable {resolve}

theorem infosFrom_names : (declarations : List TypeDeclaration) → (first : RoutineIndex) →
    (infosFrom resolve declarations first).map TypeInfo.name = declarations.map nameOf
  | [], _ => rfl
  | _ :: rest, _ => congrArg (_ :: ·) (infosFrom_names rest _)

theorem infosFrom_methods {info : TypeInfo} : (declarations : List TypeDeclaration) →
    (first : RoutineIndex) → info ∈ infosFrom resolve declarations first →
    ∃ declaration ∈ declarations, info.methods.map MethodInfo.name
      = declaration.functions.map fun function ↦ function.name.name
  | declaration :: rest, first, inside => by
      obtain rfl | inside := List.mem_cons.mp inside
      · exact ⟨declaration, List.mem_cons_self, numbered_names _ _⟩
      · obtain ⟨other, listed, same⟩ := infosFrom_methods rest _ inside
        exact ⟨other, List.mem_cons_of_mem _ listed, same⟩

/-- Where the routine of each function is known by the names of the function and its type, the
numbers do not matter. -/
theorem infosFrom_eq {place : TypeName → String → RoutineIndex} :
    (declarations : List TypeDeclaration) → (first : RoutineIndex) →
    (∀ info ∈ infosFrom resolve declarations first, ∀ method ∈ info.methods,
      method.routine = place info.name method.name) →
    infosFrom resolve declarations first = declarations.map (infoAt resolve place)
  | [], _, _ => rfl
  | declaration :: rest, first, placed => by
      obtain ⟨here, others⟩ := List.forall_mem_cons.mp placed
      have methods := numbered_eq declaration.functions first here
      rw [List.map_cons, infosFrom, infosFrom_eq rest _ others, methods]
      rfl

/-- The routines of the functions of types are in order. -/
theorem infosFrom_routines : (declarations : List TypeDeclaration) → (first : RoutineIndex) →
    routinesOf (infosFrom resolve declarations first)
      = List.range' first (routinesOf (infosFrom resolve declarations first)).length
  | [], _ => rfl
  | declaration :: rest, first => by
      have others := infosFrom_routines rest (first + declaration.functions.length)
      rw [infosFrom, routinesOf, List.flatMap_cons, numbered_routines, ← routinesOf,
        List.length_append, List.length_range', ← List.range'_append_1, ← others]

/-! ### Reserved routines -/

/-- The functions among parts, with the positions of their types. -/
def functionsOf (parts : List Part) : List (TypeIndex × MethodInfo) :=
  parts.flatMap fun part ↦ (part.member.map fun method ↦ (part.owner, method)).toList

/-- The routine that is reserved for a function. -/
def reservedFor (function : TypeIndex × MethodInfo) : Routine :=
  routineOf function.1 function.2.declaration function.2.parameters

theorem functionsOf_cons (owner : TypeIndex) (info : TypeInfo) (rest : List TypeInfo) :
    functionsOf (partsFrom owner (info :: rest))
      = info.methods.map (Prod.mk owner) ++ functionsOf (partsFrom (owner + 1) rest) := by
  have here : functionsOf (partsOf owner info) = info.methods.map (Prod.mk owner) := by
    rw [functionsOf, partsOf, List.flatMap_cons, List.flatMap_map]
    exact List.map_eq_flatMap.symm
  rw [partsFrom, functionsOf, List.flatMap_append, ← functionsOf, here]
  rfl

theorem functionsOf_routines : (types : List TypeInfo) → (owner : TypeIndex) →
    (functionsOf (partsFrom owner types)).map (fun function ↦ function.2.routine)
      = routinesOf types
  | [], _ => rfl
  | info :: rest, owner => by
      rw [functionsOf_cons, List.map_append, List.map_map, functionsOf_routines rest (owner + 1)]
      rfl

theorem functionsOf_filled (parts : List Part) :
    parts.flatMap Part.filled = (functionsOf parts).map fun function ↦ function.2.routine := by
  rw [functionsOf, List.map_flatMap]
  congr 1
  funext part
  cases own : part.member with
  | none => rw [Part.filled, Part.reserved, own]; rfl
  | some method => rw [Part.filled, Part.reserved, own]; rfl

end Types

/-- The members of declarations are all accepted if no function is declared twice. -/
theorem acceptMembers_eq (references : ReferenceSet) (names : List TypeName) :
    (declarations : List TypeDeclaration) → (index : TypeIndex) → (draft : Draft) →
    (∀ declaration ∈ declarations,
      (declaration.functions.map fun function ↦ function.name.name).Nodup) →
    let infos := infosFrom (resolveType references names) declarations draft.routines.size
    (acceptMembers references names index declarations draft).1 = infos ∧
      draft.Takes ((functionsOf (partsFrom index infos)).map reservedFor)
        (declarations.map (declarationNotes (resolveType references names))).reverse.flatten
        (acceptMembers references names index declarations draft).2
  | [], _, draft, _ => ⟨rfl, .refl draft⟩
  | declaration :: rest, index, draft, distinct => by
      obtain ⟨here, others⟩ := List.forall_mem_cons.mp distinct
      let resolve := resolveType references names declaration.namespaceName
      have resolves (written : TypeExpression) : Detached (resolve written) :=
        detached_resolveType references names declaration.namespaceName written
      let fields := acceptFields resolve [] declaration.fields draft
      let methods := acceptFunctions resolve index (nameOf declaration).full []
        declaration.functions fields.2
      have fieldsTaken : draft.Takes []
          (acceptFields resolve [] declaration.fields .empty).2.findings fields.2 := (detached_acceptFields resolves declaration.fields []).takes draft
      have size : fields.2.routines.size = draft.routines.size := fieldsTaken.size
      obtain ⟨accepted, methodsTaken⟩ := acceptFunctions_eq resolves index
        (nameOf declaration).full declaration.functions [] fields.2 here
      rw [size, List.nil_append] at accepted
      rw [size] at methodsTaken
      have taken := fieldsTaken.trans methodsTaken
      have size' : methods.2.routines.size
          = draft.routines.size + declaration.functions.length := by
        have routines : (numbered resolve declaration.functions draft.routines.size).map
            MethodInfo.routine = _ := numbered_routines _ _
        have length := congrArg List.length routines
        rw [List.length_map, List.length_range'] at length
        rw [taken.size, List.nil_append, List.length_map, length]
      obtain ⟨infos, rest'⟩ := acceptMembers_eq references names rest (index + 1) methods.2 others
      rw [size'] at infos rest'
      have first : fields.1 = (acceptFields resolve [] declaration.fields .empty).1 := by
        change (acceptFields resolve [] declaration.fields draft).1 = _
        rw [(detached_acceptFields resolves declaration.fields []).apply draft]
      have result : (acceptMembers references names index (declaration :: rest) draft).1
          = ⟨nameOf declaration, fields.1, methods.1⟩
            :: (acceptMembers references names (index + 1) rest methods.2).1 := rfl
      refine ⟨?_, ?_⟩
      · rw [result, infos, accepted, first]
        rfl
      · have all := taken.trans rest'
        rw [infosFrom, functionsOf_cons, List.map_append, List.map_map, List.map_cons,
          List.reverse_cons, List.flatten_append, List.flatten_singleton]
        exact all

/-- Types with distinct full names are all accepted. -/
theorem acceptTypes_eq : (declarations accepted : List TypeDeclaration) → (draft : Draft) →
    (accepted.map (fun declaration ↦ (nameOf declaration).full)
      ++ declarations.map fun declaration ↦ (nameOf declaration).full).Nodup →
    acceptTypes accepted declarations draft = (declarations.reverse ++ accepted, draft)
  | [], _, _, _ => rfl
  | declaration :: rest, accepted, draft, distinct => by
      have fresh : accepted.any (fun earlier ↦
          (nameOf earlier).full = (nameOf declaration).full) = false := by
        rw [List.any_eq_false]
        intro earlier inside same
        exact (List.nodup_append.mp distinct).2.2 _ (List.mem_map_of_mem inside) _
          List.mem_cons_self (of_decide_eq_true same)
      have others := acceptTypes_eq rest (declaration :: accepted) draft
        (List.perm_middle.nodup_iff.mp distinct)
      simp only [acceptTypes, fresh, Bool.false_eq_true, if_false]
      rw [List.reverse_cons, List.append_assoc]
      exact others

end GuestScript.Compile
