import GuestScript.Meaning.Evaluation
import GuestScript.Proofs.Compile.Declared

/-!
# Reserved routines

Before any body is compiled, each accepted function reserves the next routine, whether or not there is a
mistake in the file. So the routines of the functions are the first ones, in the order of the text, which
is `routinesOf_declare`, and each has the owner and the visibility of its function, which is
`reserved_declare`.
-/

namespace GuestScript.Compile

open Bytecode (Routine RoutineIndex TypeIndex)
open Draft (Leaves)
open Meaning (typesOf)
open Syntax

/-- The routine of a function is reserved in a draft. -/
def Draft.Holds (draft : Draft) (owner : TypeIndex) (method : MethodInfo) : Prop :=
  draft.routines[method.routine]? = some (routineOf owner method.declaration method.parameters)

theorem Draft.Holds.extends {before after : Draft} {owner : TypeIndex} {method : MethodInfo}
    (held : before.Holds owner method) (grown : before.Extends after) : after.Holds owner method :=
  (grown.routines (Array.getElem?_eq_some_iff.mp held).1).trans held

/-! ## Functions -/

section Functions

variable {resolve : TypeExpression → Drafting Ty} (resolves : ∀ written, Leaves (resolve written))
  (owner : TypeIndex) (ownerName : String)

include resolves

/-- Accepted functions have the routines that come next. -/
theorem routines_acceptFunctions : (functions : List FunctionDeclaration) →
    (accepted : List MethodInfo) → (draft : Draft) →
    ∃ added, (acceptFunctions resolve owner ownerName accepted functions draft).1
        = accepted ++ added ∧
      added.map MethodInfo.routine = List.range' draft.routines.size added.length
  | [], accepted, _ => ⟨[], (List.append_nil accepted).symm, rfl⟩
  | function :: rest, accepted, draft => by
      simp only [acceptFunctions]
      split
      · exact routines_acceptFunctions rest accepted _
      · let signed := signatureOf resolve function draft
        let reserved := Draft.reserve (routineOf owner function signed.1.1) signed.2
        let method : MethodInfo :=
          ⟨function.name.name, signed.2.routines.size, signed.1.1, signed.1.2, function⟩
        have same : signed.2.routines = draft.routines :=
          (leaves_signatureOf resolves function draft).routines
        have size : reserved.2.routines.size = draft.routines.size + 1 :=
          (Array.size_push _).trans (congrArg (·.size + 1) same)
        obtain ⟨added, accepts, routines⟩ :=
          routines_acceptFunctions rest (accepted ++ [method]) reserved.2
        refine ⟨method :: added, accepts.trans (List.append_assoc _ _ _), ?_⟩
        rw [List.map_cons, routines, size, List.length_cons, List.range'_succ]
        exact congrArg (· :: _) (congrArg Array.size same)

/-- The routines of accepted functions are reserved. -/
theorem holds_acceptFunctions : (functions : List FunctionDeclaration) →
    (accepted : List MethodInfo) → (draft : Draft) →
    (∀ method ∈ accepted, draft.Holds owner method) →
    ∀ method ∈ (acceptFunctions resolve owner ownerName accepted functions draft).1,
      (acceptFunctions resolve owner ownerName accepted functions draft).2.Holds owner method
  | [], _, _, held => held
  | function :: rest, accepted, draft, held => by
      simp only [acceptFunctions]
      split
      · exact holds_acceptFunctions rest accepted _ held
      · let signed := signatureOf resolve function draft
        let reserved := Draft.reserve (routineOf owner function signed.1.1) signed.2
        have grown : draft.Extends reserved.2 :=
          (leaves_signatureOf resolves function draft).extends'.trans (Draft.extends_reserve _ _)
        refine holds_acceptFunctions rest _ reserved.2 (List.forall_mem_append.mpr ⟨?_, ?_⟩)
        · exact fun method inside ↦ (held method inside).extends grown
        · exact List.forall_mem_singleton.mpr Array.getElem?_push_size

end Functions

/-! ## Types -/

section Types

variable (references : ReferenceSet) (names : List TypeName)

/-- The functions of types have the routines that come next. -/
theorem routinesOf_acceptMembers : (declarations : List TypeDeclaration) → (owner : TypeIndex) →
    (draft : Draft) →
    routinesOf (acceptMembers references names owner declarations draft).1
      = List.range' draft.routines.size
          (routinesOf (acceptMembers references names owner declarations draft).1).length
  | [], _, _ => rfl
  | declaration :: rest, owner, draft => by
      let name := nameOf declaration
      let resolve := resolveType references names name.namespaceName
      have resolves (written : TypeExpression) : Leaves (resolve written) :=
        leaves_resolveType references names name.namespaceName written
      let fields := acceptFields resolve [] declaration.fields draft
      let methods := acceptFunctions resolve owner name.full [] declaration.functions fields.2
      have same : fields.2.routines = draft.routines :=
        (leaves_acceptFields resolves declaration.fields [] draft).routines
      have size : methods.2.routines.size + 0 = fields.2.routines.size + methods.1.length :=
        size_acceptFunctions resolves owner name.full declaration.functions [] fields.2
      obtain ⟨added, accepts, routines⟩ :=
        routines_acceptFunctions resolves owner name.full declaration.functions [] fields.2
      have accepts : methods.1 = added := accepts
      have others := routinesOf_acceptMembers rest (owner + 1) methods.2
      change methods.1.map MethodInfo.routine ++ routinesOf _
        = List.range' draft.routines.size
            (methods.1.map MethodInfo.routine ++ routinesOf _).length
      rw [Nat.add_zero, accepts, same] at size
      rw [same] at routines
      rw [size] at others
      rw [List.length_append, List.length_map, accepts, routines, others,
        List.length_range', List.range'_append_1]

/-- The routines of the functions of types are reserved. -/
theorem holds_acceptMembers : (declarations : List TypeDeclaration) → (owner : TypeIndex) →
    (draft : Draft) → ∀ {position : Nat} {info : TypeInfo},
    (acceptMembers references names owner declarations draft).1[position]? = some info →
    ∀ method ∈ info.methods,
      (acceptMembers references names owner declarations draft).2.Holds (owner + position) method
  | [], _, _, _, _, found => absurd found nofun
  | declaration :: rest, owner, draft, position, info, found => by
      intro method inside
      let name := nameOf declaration
      let resolve := resolveType references names name.namespaceName
      have resolves (written : TypeExpression) : Leaves (resolve written) :=
        leaves_resolveType references names name.namespaceName written
      let fields := acceptFields resolve [] declaration.fields draft
      let methods := acceptFunctions resolve owner name.full [] declaration.functions fields.2
      cases position with
      | zero =>
          obtain rfl := Option.some.inj found
          exact (holds_acceptFunctions resolves owner name.full declaration.functions [] fields.2
            nofun method inside).extends (adds_acceptMembers references names rest _ methods.2).1
      | succ position =>
          rw [← Nat.add_assoc, Nat.add_right_comm]
          exact holds_acceptMembers rest (owner + 1) methods.2 found method inside

end Types

variable {references : ReferenceSet} {file : File}

/-- The routines of the functions of a file are the first ones, in the order of the text. -/
theorem routinesOf_declare (references : ReferenceSet) (file : File) :
    routinesOf (typesOf references file)
      = List.range (declare references file .empty).2.routines.size := by
  let accepted := acceptTypes [] file.types .empty
  let declarations := accepted.1.reverse
  have none : accepted.2.routines = #[] := (leaves_acceptTypes file.types [] .empty).routines
  have routines := routinesOf_acceptMembers references (declarations.map nameOf) declarations 0
    accepted.2
  have size := size_acceptMembers references (declarations.map nameOf) declarations 0 accepted.2
  rw [none, Array.size_empty] at routines size
  rw [Nat.zero_add] at size
  rw [List.range_eq_range']
  change routinesOf (acceptMembers references (declarations.map nameOf) 0 declarations accepted.2).1
    = List.range' 0 (acceptMembers references (declarations.map nameOf) 0 declarations
        accepted.2).2.routines.size
  rw [size]
  exact routines

/-- The routine of a function has the owner and the visibility of the function from the start. -/
theorem reserved_declare {owner : TypeIndex} {info : TypeInfo} {method : MethodInfo}
    (here : (typesOf references file)[owner]? = some info) (inside : method ∈ info.methods) :
    (declare references file .empty).2.Holds owner method := by
  let accepted := acceptTypes [] file.types .empty
  have held := holds_acceptMembers references (accepted.1.reverse.map nameOf) accepted.1.reverse 0
    accepted.2 here method inside
  rwa [Nat.zero_add] at held

/-- A routine that is reserved is that of a function. -/
theorem mem_routinesOf_iff {index : RoutineIndex} :
    index ∈ routinesOf (typesOf references file) ↔
      index < (declare references file .empty).2.routines.size := by
  rw [routinesOf_declare, List.mem_range]

end GuestScript.Compile
