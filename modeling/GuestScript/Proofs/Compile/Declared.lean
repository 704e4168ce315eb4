import GuestScript.Proofs.Compile.WrittenTypes
import GuestScript.Proofs.Syntax.Chains
import GuestScript.Compile.Unit
import Mathlib.Data.Finset.Card
import Mathlib.Data.List.Nodup

/-!
# What is declared

`Declared types draft` says what holds of the types of a file before any body is compiled: full names
are distinct, every type in a signature is closed, and each function has a routine of its own that
is reserved in the draft. It holds of what `declare` gives unless a mistake was reported.
-/

namespace GuestScript.Compile

open Bytecode (Routine RoutineIndex TypeIndex)
open Syntax

/-! ## Actions on drafts -/

namespace Draft

variable {Value Other : Type}

/-- An action on drafts only adds, and numbers no lambda. -/
def Adds (action : Drafting Value) : Prop :=
  ∀ draft : Draft, draft.Extends (action draft).2 ∧ (action draft).2.lambdas = draft.lambdas

namespace Adds

theorem pure (value : Value) : Adds (Pure.pure value) :=
  fun draft ↦ ⟨.refl draft, rfl⟩

theorem bind {action : Drafting Value} {next : Value → Drafting Other} (first : Adds action)
    (second : ∀ value, Adds (next value)) : Adds (action >>= next) := by
  intro draft
  obtain ⟨grown, same⟩ := first draft
  obtain ⟨grown', same'⟩ := second (action draft).1 (action draft).2
  exact ⟨grown.trans grown', same'.trans same⟩

theorem note (finding : Diagnostic Span) : Adds (Draft.note finding) :=
  fun draft ↦ ⟨extends_note finding draft, rfl⟩

theorem reserve (routine : Routine) : Adds (Draft.reserve routine) :=
  fun draft ↦ ⟨extends_reserve routine draft, rfl⟩

/-- If no mistake is found in the end, none has been found before. -/
theorem quiet_of_bind {action : Drafting Value} {next : Value → Drafting Other} {draft : Draft}
    (second : ∀ value, Adds (next value)) (quiet : ((action >>= next) draft).2.Quiet) :
    (action draft).2.Quiet :=
  quiet.of_extends (second _ _).1

/-- After a mistake has been reported, what follows does not undo it. -/
theorem not_quiet_report {next : Unit → Drafting Other} {code : Code} {message : String}
    {span : Span} {draft : Draft} (second : ∀ value, Adds (next value)) :
    ¬ ((Draft.report code message span >>= next) draft).2.Quiet :=
  fun quiet ↦ Draft.not_quiet_report code message span draft (quiet_of_bind second quiet)

end Adds

/-- An action on drafts leaves everything but the findings as it is. -/
def Leaves (action : Drafting Value) : Prop :=
  ∀ draft : Draft, draft.Notes (action draft).2

namespace Leaves

theorem pure (value : Value) : Leaves (Pure.pure value) :=
  fun draft ↦ .refl draft

theorem bind {action : Drafting Value} {next : Value → Drafting Other} (first : Leaves action)
    (second : ∀ value, Leaves (next value)) : Leaves (action >>= next) :=
  fun draft ↦ (first draft).trans (second _ _)

theorem note (finding : Diagnostic Span) : Leaves (Draft.note finding) :=
  fun draft ↦ .note finding draft

theorem mapM {action : Value → Drafting Other} (each : ∀ value, Leaves (action value)) :
    (values : List Value) → Leaves (values.mapM action)
  | [] => by
      rw [List.mapM_nil]
      exact pure []
  | first :: rest => by
      rw [List.mapM_cons]
      exact bind (each first) fun _ ↦ bind (mapM each rest) fun _ ↦ pure _

theorem adds {action : Drafting Value} (leaves : Leaves action) : Adds action :=
  fun draft ↦ ⟨(leaves draft).extends', (leaves draft).lambdas⟩

end Leaves

end Draft

open Draft (Adds Leaves)

section Growth

variable {resolve : TypeExpression → Drafting Ty}

theorem leaves_resolveType (references : ReferenceSet) (names : List TypeName)
    (namespaceName : String) (written : TypeExpression) :
    Leaves (resolveType references names namespaceName written) :=
  fun draft ↦ Lowering.notes_resolveType references names namespaceName written draft

theorem leaves_acceptTypes : (declarations accepted : List TypeDeclaration) →
    Leaves (acceptTypes accepted declarations)
  | [], _ => .pure _
  | declaration :: rest, accepted => by
      simp only [acceptTypes]
      split
      · exact .bind (.note _) fun _ ↦ leaves_acceptTypes rest accepted
      · exact leaves_acceptTypes rest _

theorem leaves_acceptFields (resolves : ∀ written, Leaves (resolve written)) :
    (fields : List FieldDeclaration) → (accepted : List FieldInfo) →
    Leaves (acceptFields resolve accepted fields)
  | [], _ => .pure _
  | field :: rest, accepted => by
      simp only [acceptFields]
      split
      · exact .bind (.note _) fun _ ↦ leaves_acceptFields resolves rest accepted
      · exact .bind (resolves _) fun _ ↦ leaves_acceptFields resolves rest _

theorem leaves_signatureOf (resolves : ∀ written, Leaves (resolve written))
    (function : FunctionDeclaration) : Leaves (signatureOf resolve function) := by
  refine .bind (.mapM (fun _ ↦ resolves _) _) fun parameters ↦ ?_
  cases function.result with
  | some result => exact .bind (resolves result) fun _ ↦ .pure _
  | none => exact .pure _

theorem adds_acceptFunctions (resolves : ∀ written, Leaves (resolve written)) (owner : TypeIndex)
    (ownerName : String) : (functions : List FunctionDeclaration) → (accepted : List MethodInfo) →
    Adds (acceptFunctions resolve owner ownerName accepted functions)
  | [], accepted => .pure accepted
  | function :: rest, accepted => by
      simp only [acceptFunctions]
      split
      · exact .bind (.note _) fun _ ↦ adds_acceptFunctions resolves owner ownerName rest accepted
      · exact .bind (leaves_signatureOf resolves function).adds fun _ ↦ .bind (.reserve _) fun _ ↦
          adds_acceptFunctions resolves owner ownerName rest _

theorem adds_acceptMembers (references : ReferenceSet) (names : List TypeName) :
    (declarations : List TypeDeclaration) → (owner : TypeIndex) →
    Adds (acceptMembers references names owner declarations)
  | [], _ => .pure []
  | _ :: rest, _ =>
      .bind (leaves_acceptFields (leaves_resolveType references names _) _ _).adds fun _ ↦
        .bind (adds_acceptFunctions (leaves_resolveType references names _) _ _ _ _) fun _ ↦
          .bind (adds_acceptMembers references names rest _) fun _ ↦ .pure _

end Growth

/-! ## Signatures and fields -/

/-- The type of a field is closed, and the expression for its first value is chained. -/
structure FieldInfo.IsProper (field : FieldInfo) : Prop where
  closed : field.type.IsClosed
  chained : ∀ value ∈ field.value, value.isChained = true

/-- A function has a signature of closed types, and its routine is reserved. -/
structure MethodInfo.IsReserved (draft : Draft) (owner : TypeIndex) (method : MethodInfo) :
    Prop where
  routine : draft.routines[method.routine]?
    = some (routineOf owner method.declaration method.parameters)
  name : method.name = method.declaration.name.name
  count : method.declaration.parameters.length = method.parameters.length
  parameters : ∀ wanted ∈ method.parameters, wanted.IsClosed
  result : method.result.IsClosed
  chained : method.declaration.isChained = true

/-- The functions of a type have different names, and routines of their own from a position on. -/
structure MethodsReserved (draft : Draft) (owner : TypeIndex) (first : RoutineIndex)
    (methods : List MethodInfo) : Prop where
  each : ∀ method ∈ methods, method.IsReserved draft owner
  names : (methods.map MethodInfo.name).Nodup
  routines : (methods.map MethodInfo.routine).Nodup
  later : ∀ method ∈ methods, first ≤ method.routine

theorem MethodInfo.IsReserved.extends {before after : Draft} {owner : TypeIndex}
    {method : MethodInfo} (reserved : method.IsReserved before owner)
    (grown : before.Extends after) : method.IsReserved after owner := by
  have inside := (Array.getElem?_eq_some_iff.mp reserved.routine).1
  exact { reserved with routine := (grown.routines inside).trans reserved.routine }

theorem MethodInfo.IsReserved.inside {draft : Draft} {owner : TypeIndex} {method : MethodInfo}
    (reserved : method.IsReserved draft owner) : method.routine < draft.routines.size :=
  (Array.getElem?_eq_some_iff.mp reserved.routine).1

theorem MethodsReserved.extends {before after : Draft} {owner : TypeIndex} {first : RoutineIndex}
    {methods : List MethodInfo} (reserved : MethodsReserved before owner first methods)
    (grown : before.Extends after) : MethodsReserved after owner first methods :=
  { reserved with each := fun method inside ↦ (reserved.each method inside).extends grown }

/-- A function of a new name joins with a routine that is new. -/
theorem MethodsReserved.append {before after : Draft} {owner : TypeIndex} {first : RoutineIndex}
    {methods : List MethodInfo} {method : MethodInfo}
    (reserved : MethodsReserved before owner first methods) (grown : before.Extends after)
    (one : method.IsReserved after owner) (fresh : ∀ earlier ∈ methods, earlier.name ≠ method.name)
    (new : before.routines.size ≤ method.routine) (later : first ≤ before.routines.size) :
    MethodsReserved after owner first (methods ++ [method]) := by
  have last {claim : MethodInfo → Prop} (earlier : ∀ other ∈ methods, claim other)
      (here : claim method) : ∀ other ∈ methods ++ [method], claim other :=
    List.forall_mem_append.mpr ⟨earlier, List.forall_mem_singleton.mpr here⟩
  refine ⟨last (reserved.extends grown).each one, ?_, ?_,
    last reserved.later (Nat.le_trans later new)⟩
  · rw [List.map_append, List.map_singleton, List.nodup_append]
    refine ⟨reserved.names, List.nodup_singleton _, ?_⟩
    intro name named other same
    obtain ⟨earlier, inside, rfl⟩ := List.mem_map.mp named
    exact (List.mem_singleton.mp same) ▸ fresh earlier inside
  · rw [List.map_append, List.map_singleton, List.nodup_append]
    refine ⟨reserved.routines, List.nodup_singleton _, ?_⟩
    intro routine taken other same
    obtain ⟨earlier, inside, rfl⟩ := List.mem_map.mp taken
    rw [List.mem_singleton.mp same]
    exact Nat.ne_of_lt (Nat.lt_of_lt_of_le (reserved.each earlier inside).inside new)

section

variable {references : ReferenceSet} {names : List TypeName} {namespaceName : String}

theorem isClosed_resolveType {written : TypeExpression} {draft : Draft}
    (quiet : (resolveType references names namespaceName written draft).2.Quiet) :
    (resolveType references names namespaceName written draft).1.IsClosed := by
  rw [resolveType_fst]
  exact isClosed_meantType references names namespaceName written draft quiet

theorem acceptFields_proper : (fields : List FieldDeclaration) → (accepted : List FieldInfo) →
    (draft : Draft) → (∀ field ∈ fields, field.isChained = true) →
    (∀ field ∈ accepted, field.IsProper) →
    (acceptFields (resolveType references names namespaceName) accepted fields draft).2.Quiet →
    ∀ field ∈ (acceptFields (resolveType references names namespaceName) accepted fields draft).1,
      field.IsProper
  | [], _, _, _, proper, _ => proper
  | field :: rest, accepted, draft, chained, proper, quiet => by
      have resolves := leaves_resolveType references names namespaceName
      have chained' : ∀ field ∈ rest, field.isChained = true := fun field inside ↦
        chained field (List.mem_cons_of_mem _ inside)
      rw [acceptFields] at quiet ⊢
      split at quiet
      · exact absurd quiet (Adds.not_quiet_report fun _ ↦
          (leaves_acceptFields resolves rest accepted).adds)
      · next fresh =>
          rw [if_neg fresh]
          refine acceptFields_proper rest _ _ chained' ?_ quiet
          intro other inside
          obtain inside | rfl := List.mem_append.mp inside |>.imp_right List.mem_singleton.mp
          · exact proper other inside
          · refine ⟨isClosed_resolveType ?_,
              (Option.all_eq_true _ _).mp (chained field List.mem_cons_self)⟩
            exact Adds.quiet_of_bind
              (fun _ ↦ (leaves_acceptFields resolves rest _).adds) quiet

theorem mapM_resolveType : (parameters : List Parameter) → (draft : Draft) →
    (parameters.mapM (fun parameter ↦ resolveType references names namespaceName parameter.type)
      draft).2.Quiet →
    (parameters.mapM (fun parameter ↦ resolveType references names namespaceName parameter.type)
      draft).1.length = parameters.length ∧
    ∀ type ∈ (parameters.mapM
      (fun parameter ↦ resolveType references names namespaceName parameter.type) draft).1,
      type.IsClosed
  | [], _, _ => ⟨rfl, nofun⟩
  | parameter :: rest, draft, quiet => by
      rw [List.mapM_cons] at quiet ⊢
      let resolve := resolveType references names namespaceName
      have grown := (Leaves.mapM (fun parameter : Parameter ↦
        leaves_resolveType references names namespaceName parameter.type) rest
        (resolve parameter.type draft).2).extends'
      obtain ⟨length, closed⟩ := mapM_resolveType rest (resolve parameter.type draft).2 quiet
      refine ⟨congrArg Nat.succ length, ?_⟩
      intro type inside
      obtain rfl | inside := List.mem_cons.mp inside
      · exact isClosed_resolveType (quiet.of_extends grown)
      · exact closed type inside

/-- The types of the signature of a function are closed unless a mistake is reported. -/
theorem signatureOf_closed {function : FunctionDeclaration} {draft : Draft}
    (quiet : (signatureOf (resolveType references names namespaceName) function draft).2.Quiet) :
    (signatureOf (resolveType references names namespaceName) function draft).1.1.length
        = function.parameters.length ∧
      (∀ type ∈ (signatureOf (resolveType references names namespaceName) function draft).1.1,
        type.IsClosed) ∧
      (signatureOf (resolveType references names namespaceName) function draft).1.2.IsClosed := by
  have resolves := leaves_resolveType references names namespaceName
  simp only [signatureOf] at quiet ⊢
  cases same : function.result with
  | none =>
      rw [same] at quiet
      obtain ⟨length, closed⟩ := mapM_resolveType function.parameters draft quiet
      exact ⟨length, closed, rfl⟩
  | some result =>
      rw [same] at quiet
      have grown := (resolves result (function.parameters.mapM
        (fun parameter ↦ resolveType references names namespaceName parameter.type)
        draft).2).extends'
      obtain ⟨length, closed⟩ := mapM_resolveType function.parameters draft (quiet.of_extends grown)
      exact ⟨length, closed, isClosed_resolveType quiet⟩

/-- The functions of a type are accepted with routines of their own. -/
theorem acceptFunctions_reserved {owner : TypeIndex} {ownerName : String} {first : RoutineIndex} :
    (functions : List FunctionDeclaration) → (accepted : List MethodInfo) → (draft : Draft) →
    (∀ function ∈ functions, function.isChained = true) →
    MethodsReserved draft owner first accepted → first ≤ draft.routines.size →
    (acceptFunctions (resolveType references names namespaceName) owner ownerName accepted functions
      draft).2.Quiet →
    MethodsReserved (acceptFunctions (resolveType references names namespaceName) owner ownerName
        accepted functions draft).2 owner first
      (acceptFunctions (resolveType references names namespaceName) owner ownerName accepted
        functions draft).1
  | [], _, _, _, reserved, _, _ => reserved
  | function :: rest, accepted, draft, chained, reserved, later, quiet => by
      have resolves := leaves_resolveType references names namespaceName
      have chained' : ∀ function ∈ rest, function.isChained = true := fun function inside ↦
        chained function (List.mem_cons_of_mem _ inside)
      rw [acceptFunctions] at quiet ⊢
      split at quiet
      · exact absurd quiet
          (Adds.not_quiet_report fun _ ↦ adds_acceptFunctions resolves owner ownerName rest accepted)
      · next fresh =>
          rw [if_neg fresh]
          -- the function takes the next routine, behind all that earlier ones have taken
          let signed := signatureOf (resolveType references names namespaceName) function draft
          let routine := routineOf owner function signed.1.1
          let after := (Draft.reserve routine signed.2).2
          let method : MethodInfo := ⟨function.name.name, signed.2.routines.size, signed.1.1,
            signed.1.2, function⟩
          have grown : draft.Extends signed.2 := (leaves_signatureOf resolves function draft).extends'
          have grown' : signed.2.Extends after := Draft.extends_reserve routine signed.2
          have quiet' : signed.2.Quiet := Adds.quiet_of_bind (fun _ ↦ .bind (.reserve _) fun _ ↦
            adds_acceptFunctions resolves owner ownerName rest _) quiet
          obtain ⟨length, closed, closed'⟩ := signatureOf_closed quiet'
          have one : method.IsReserved after owner :=
            { routine := Array.getElem?_push_size
              name := rfl
              count := length.symm
              parameters := closed
              result := closed'
              chained := chained function List.mem_cons_self }
          refine acceptFunctions_reserved rest (accepted ++ [method]) after chained' ?_ ?_ quiet
          · refine reserved.append (grown.trans grown') one ?_ grown.size later
            intro earlier inside same
            exact fresh (List.any_eq_true.mpr ⟨earlier, inside, decide_eq_true same⟩)
          · exact Nat.le_trans later (Nat.le_trans grown.size grown'.size)

end

/-! ## Types -/

/-- The routines of the functions of types. -/
def routinesOf (types : List TypeInfo) : List RoutineIndex :=
  types.flatMap fun info ↦ info.methods.map MethodInfo.routine

/-- The members of a type are in order, and the routines of its functions are reserved. -/
structure TypeInfo.IsReserved (draft : Draft) (owner : TypeIndex) (info : TypeInfo) : Prop where
  fields : ∀ field ∈ info.fields, field.IsProper
  methods : MethodsReserved draft owner 0 info.methods

/-- Types from a position on, whose functions have routines from a position on. -/
structure TypesReserved (draft : Draft) (owner : TypeIndex) (first : RoutineIndex)
    (types : List TypeInfo) : Prop where
  each : ∀ {position : Nat} {info : TypeInfo}, types[position]? = some info →
    info.IsReserved draft (owner + position)
  routines : (routinesOf types).Nodup
  later : ∀ routine ∈ routinesOf types, first ≤ routine

theorem MethodsReserved.weaken {draft : Draft} {owner : TypeIndex} {first : RoutineIndex}
    {methods : List MethodInfo} (reserved : MethodsReserved draft owner first methods) :
    MethodsReserved draft owner 0 methods :=
  { reserved with later := fun _ _ ↦ Nat.zero_le _ }

/-- A type comes before others whose functions have later routines. -/
theorem TypesReserved.cons {middle after : Draft} {owner : TypeIndex} {first : RoutineIndex}
    {info : TypeInfo} {types : List TypeInfo} (fields : ∀ field ∈ info.fields, field.IsProper)
    (methods : MethodsReserved middle owner first info.methods) (grown : middle.Extends after)
    (rest : TypesReserved after (owner + 1) middle.routines.size types)
    (later : first ≤ middle.routines.size) : TypesReserved after owner first (info :: types) := by
  refine ⟨?_, ?_, ?_⟩
  · intro position other found
    cases position with
    | zero =>
        obtain rfl := Option.some.inj found
        exact ⟨fields, (methods.extends grown).weaken⟩
    | succ position =>
        rw [← Nat.add_assoc, Nat.add_right_comm]
        exact rest.each found
  · refine List.nodup_append.mpr ⟨methods.routines, rest.routines, ?_⟩
    intro routine here other there same
    obtain ⟨method, inside, rfl⟩ := List.mem_map.mp here
    have before := (methods.each method inside).inside
    exact Nat.ne_of_lt (Nat.lt_of_lt_of_le before (rest.later other there)) same
  · intro routine taken
    obtain here | there := List.mem_append.mp taken
    · obtain ⟨method, inside, rfl⟩ := List.mem_map.mp here
      exact methods.later method inside
    · exact Nat.le_trans later (rest.later routine there)

section

variable {references : ReferenceSet} {names : List TypeName}

/-- The members of types are in order, and different functions have different routines. -/
theorem acceptMembers_reserved : (declarations : List TypeDeclaration) → (owner : TypeIndex) →
    (draft : Draft) → (∀ declaration ∈ declarations, declaration.isChained = true) →
    (acceptMembers references names owner declarations draft).2.Quiet →
    TypesReserved (acceptMembers references names owner declarations draft).2 owner
        draft.routines.size (acceptMembers references names owner declarations draft).1 ∧
      (acceptMembers references names owner declarations draft).1.map TypeInfo.name
        = declarations.map nameOf
  | [], _, _, _, _ => ⟨⟨nofun, List.nodup_nil, nofun⟩, rfl⟩
  | declaration :: rest, owner, draft, chained, quiet => by
      have resolves := leaves_resolveType references names (nameOf declaration).namespaceName
      have chained' : ∀ declaration ∈ rest, declaration.isChained = true :=
        fun declaration inside ↦ chained declaration (List.mem_cons_of_mem _ inside)
      have here := chained declaration List.mem_cons_self
      rw [TypeDeclaration.isChained, Bool.and_eq_true, List.all_eq_true, List.all_eq_true] at here
      let resolve := resolveType references names (nameOf declaration).namespaceName
      let fields := acceptFields resolve [] declaration.fields draft
      let methods := acceptFunctions resolve owner (nameOf declaration).full []
        declaration.functions fields.2
      have grown : draft.Extends fields.2 := (leaves_acceptFields resolves _ _ draft).extends'
      have grown' : fields.2.Extends methods.2 := (adds_acceptFunctions resolves _ _ _ _ fields.2).1
      have grown'' := (adds_acceptMembers references names rest (owner + 1) methods.2).1
      -- findings are only added, so no error at the end means none on the way
      have quiet'' : (acceptMembers references names (owner + 1) rest methods.2).2.Quiet := quiet
      have quiet' : methods.2.Quiet := quiet''.of_extends grown''
      obtain ⟨others, named⟩ := acceptMembers_reserved rest (owner + 1) methods.2 chained' quiet''
      have proper := acceptFields_proper declaration.fields [] draft here.1 nofun
        (quiet'.of_extends grown')
      have none : MethodsReserved fields.2 owner draft.routines.size [] :=
        ⟨nofun, List.nodup_nil, List.nodup_nil, nofun⟩
      have reserved := acceptFunctions_reserved declaration.functions [] fields.2 here.2 none
        grown.size quiet'
      exact ⟨.cons proper reserved grown'' others (Nat.le_trans grown.size grown'.size),
        congrArg (nameOf declaration :: ·) named⟩

end

/-- The accepted types have different names, and are declared in the file. -/
theorem acceptTypes_distinct : (declarations : List TypeDeclaration) →
    (accepted : List TypeDeclaration) → (draft : Draft) →
    (accepted.map fun declaration ↦ (nameOf declaration).full).Nodup →
    ((acceptTypes accepted declarations draft).1.map fun declaration ↦
        (nameOf declaration).full).Nodup ∧
      ∀ declaration ∈ (acceptTypes accepted declarations draft).1,
        declaration ∈ accepted ∨ declaration ∈ declarations
  | [], _, _, distinct => ⟨distinct, fun _ inside ↦ .inl inside⟩
  | declaration :: rest, accepted, draft, distinct => by
      rw [acceptTypes]
      split
      · have others := acceptTypes_distinct rest accepted
          (Draft.report .duplicateDefinition ("type `" ++ (nameOf declaration).full
            ++ "` is defined more than once") declaration.name.span draft).2 distinct
        exact ⟨others.1, fun other inside ↦ (others.2 other inside).imp_right
          (List.mem_cons_of_mem _)⟩
      · next fresh =>
          have distinct' : ((declaration :: accepted).map fun declaration ↦
              (nameOf declaration).full).Nodup := by
            refine List.nodup_cons.mpr ⟨fun inside ↦ ?_, distinct⟩
            obtain ⟨earlier, inside, same⟩ := List.mem_map.mp inside
            exact fresh (List.any_eq_true.mpr ⟨earlier, inside, decide_eq_true same⟩)
          have others := acceptTypes_distinct rest (declaration :: accepted) draft distinct'
          refine ⟨others.1, fun other inside ↦ ?_⟩
          obtain inside | inside := others.2 other inside
          · obtain rfl | inside := List.mem_cons.mp inside
            · exact .inr List.mem_cons_self
            · exact .inl inside
          · exact .inr (List.mem_cons_of_mem _ inside)

/-! ## The number of routines -/

section Routines

variable {resolve : TypeExpression → Drafting Ty}

/-- Each accepted function reserves a routine, and nothing else does. -/
theorem size_acceptFunctions (resolves : ∀ written, Leaves (resolve written)) (owner : TypeIndex)
    (ownerName : String) : (functions : List FunctionDeclaration) → (accepted : List MethodInfo) →
    (draft : Draft) →
    (acceptFunctions resolve owner ownerName accepted functions draft).2.routines.size
        + accepted.length
      = draft.routines.size
        + (acceptFunctions resolve owner ownerName accepted functions draft).1.length
  | [], _, _ => rfl
  | function :: rest, accepted, draft => by
      simp only [acceptFunctions]
      split
      · exact size_acceptFunctions resolves owner ownerName rest accepted _
      · let signed := signatureOf resolve function draft
        let reserved := Draft.reserve (routineOf owner function signed.1.1) signed.2
        let method : MethodInfo :=
          ⟨function.name.name, reserved.1, signed.1.1, signed.1.2, function⟩
        have same : signed.2.routines = draft.routines :=
          (leaves_signatureOf resolves function draft).routines
        have one : reserved.2.routines.size = draft.routines.size + 1 :=
          (Array.size_push _).trans (congrArg (·.size + 1) same)
        have others := size_acceptFunctions resolves owner ownerName rest (accepted ++ [method])
          reserved.2
        rw [List.length_append, List.length_singleton, one] at others
        change (acceptFunctions resolve owner ownerName (accepted ++ [method]) rest
          reserved.2).2.routines.size + accepted.length = draft.routines.size
            + (acceptFunctions resolve owner ownerName (accepted ++ [method]) rest
              reserved.2).1.length
        omega

/-- Accepting types reserves one routine for each function. -/
theorem size_acceptMembers (references : ReferenceSet) (names : List TypeName) :
    (declarations : List TypeDeclaration) → (owner : TypeIndex) → (draft : Draft) →
    (acceptMembers references names owner declarations draft).2.routines.size
      = draft.routines.size
        + (routinesOf (acceptMembers references names owner declarations draft).1).length
  | [], _, _ => rfl
  | declaration :: rest, owner, draft => by
      let name := nameOf declaration
      let resolve := resolveType references names name.namespaceName
      have resolves (written : TypeExpression) : Leaves (resolve written) :=
        leaves_resolveType references names name.namespaceName written
      let fields := acceptFields resolve [] declaration.fields draft
      let methods := acceptFunctions resolve owner name.full [] declaration.functions fields.2
      have same : fields.2.routines = draft.routines :=
        (leaves_acceptFields resolves declaration.fields [] draft).routines
      have here : methods.2.routines.size + 0 = fields.2.routines.size + methods.1.length :=
        size_acceptFunctions resolves owner name.full declaration.functions [] fields.2
      have others := size_acceptMembers references names rest (owner + 1) methods.2
      change (acceptMembers references names (owner + 1) rest methods.2).2.routines.size
        = draft.routines.size + (methods.1.map MethodInfo.routine
          ++ routinesOf (acceptMembers references names (owner + 1) rest methods.2).1).length
      rw [others, List.length_append, List.length_map, ← congrArg Array.size same]
      omega

end Routines

/-- Types as they are declared before any body is compiled, when no other routine is reserved. -/
structure Declared (types : List TypeInfo) (draft : Draft) : Prop where
  reserved : TypesReserved draft 0 0 types
  names : (types.map fun info ↦ info.name.full).Nodup
  lambdas : draft.lambdas = 0
  size : draft.routines.size = (routinesOf types).length

/-- Every routine that is reserved is that of a function. -/
theorem Declared.mem_routinesOf {types : List TypeInfo} {draft : Draft}
    (declared : Declared types draft) (older : ∀ index ∈ routinesOf types,
      index < draft.routines.size) {index : RoutineIndex} (inside : index < draft.routines.size) :
    index ∈ routinesOf types := by
  -- as many different routines as there are positions take every position
  have subset : (routinesOf types).toFinset ⊆ Finset.range draft.routines.size := by
    intro other taken
    exact Finset.mem_range.mpr (older other (List.mem_toFinset.mp taken))
  have card : (Finset.range draft.routines.size).card ≤ (routinesOf types).toFinset.card := by
    rw [Finset.card_range, List.toFinset_card_of_nodup declared.reserved.routines, declared.size]
  rw [← List.mem_toFinset, Finset.eq_of_subset_of_card_le subset card]
  exact Finset.mem_range.mpr inside

/-- What a file declares is in order unless a mistake is reported. -/
theorem declared_of_quiet {references : ReferenceSet} {file : File}
    (chained : file.isChained = true) (quiet : (declare references file .empty).2.Quiet) :
    Declared (declare references file .empty).1 (declare references file .empty).2 := by
  let accepted := acceptTypes [] file.types .empty
  let declarations := accepted.1.reverse
  obtain ⟨distinct, declared⟩ := acceptTypes_distinct file.types [] .empty List.nodup_nil
  have chained' : ∀ declaration ∈ declarations, declaration.isChained = true := by
    intro declaration inside
    obtain none | inside := declared declaration (List.mem_reverse.mp inside)
    · exact absurd none List.not_mem_nil
    · exact List.all_eq_true.mp chained declaration inside
  obtain ⟨reserved, named⟩ := acceptMembers_reserved declarations 0 accepted.2 chained' quiet
  refine ⟨{ reserved with later := fun _ _ ↦ Nat.zero_le _ }, ?_, ?_, ?_⟩
  · change ((acceptMembers references (declarations.map nameOf) 0 declarations accepted.2).1.map
      (TypeName.full ∘ TypeInfo.name)).Nodup
    rw [← List.map_map, named, List.map_map]
    exact (List.map_reverse ▸ List.nodup_reverse.mpr distinct)
  · exact (adds_acceptMembers references _ declarations 0 accepted.2).2.trans
      (leaves_acceptTypes file.types [] .empty).lambdas
  · have size := size_acceptMembers references (declarations.map nameOf) declarations 0 accepted.2
    have none : accepted.2.routines = #[] := (leaves_acceptTypes file.types [] .empty).routines
    rw [none] at size
    exact size.trans (Nat.zero_add _)

end GuestScript.Compile
