import GuestScript.Meaning.Evaluation
import GuestScript.Proofs.Compile.Declared
import GuestScript.Proofs.Syntax.WhileFree

/-!
# Where members come from

Every type that a file declares is written in it, with its functions and with the expressions for the
first values of its fields. So what holds of all that is written in a file holds of what is declared:
`whileFree_typesOf` says it of being free of `while`.
-/

namespace GuestScript.Compile

open Bytecode (TypeIndex)
open Syntax

/-- The members of a type are written in a declaration. -/
structure TypeInfo.IsFrom (info : TypeInfo) (declaration : TypeDeclaration) : Prop where
  fields : ∀ field ∈ info.fields, ∃ written ∈ declaration.fields, field.value = written.value
  methods : ∀ method ∈ info.methods, method.declaration ∈ declaration.functions

section

variable {resolve : TypeExpression → Drafting Ty}

/-- A field that is accepted has been accepted before or is written. -/
theorem mem_acceptFields {field : FieldInfo} : (fields : List FieldDeclaration) →
    (accepted : List FieldInfo) → (draft : Draft) →
    field ∈ (acceptFields resolve accepted fields draft).1 →
    field ∈ accepted ∨ ∃ written ∈ fields, field.value = written.value
  | [], _, _, inside => .inl inside
  | written :: rest, accepted, draft, inside => by
      have later : (∃ other ∈ rest, field.value = other.value) →
          ∃ other ∈ written :: rest, field.value = other.value :=
        fun ⟨other, member, same⟩ ↦ ⟨other, List.mem_cons_of_mem _ member, same⟩
      rw [acceptFields] at inside
      split at inside
      · exact (mem_acceptFields rest accepted _ inside).imp_right later
      · obtain inside | inside := mem_acceptFields rest _ _ inside
        · refine (List.mem_append.mp inside).imp_right fun inside ↦ ?_
          obtain rfl := List.mem_singleton.mp inside
          exact ⟨written, List.mem_cons_self, rfl⟩
        · exact .inr (later inside)

/-- A function that is accepted has been accepted before or is written. -/
theorem mem_acceptFunctions {owner : TypeIndex} {ownerName : String} {method : MethodInfo} :
    (functions : List FunctionDeclaration) → (accepted : List MethodInfo) → (draft : Draft) →
    method ∈ (acceptFunctions resolve owner ownerName accepted functions draft).1 →
    method ∈ accepted ∨ method.declaration ∈ functions
  | [], _, _, inside => .inl inside
  | written :: rest, accepted, draft, inside => by
      rw [acceptFunctions] at inside
      split at inside
      · exact (mem_acceptFunctions rest accepted _ inside).imp_right (List.mem_cons_of_mem _)
      · obtain inside | inside := mem_acceptFunctions rest _ _ inside
        · refine (List.mem_append.mp inside).imp_right fun inside ↦ ?_
          obtain rfl := List.mem_singleton.mp inside
          exact List.mem_cons_self
        · exact .inr (List.mem_cons_of_mem _ inside)

end

/-- The members of a type that is accepted are written in its declaration. -/
theorem mem_acceptMembers {references : ReferenceSet} {names : List TypeName} {info : TypeInfo} :
    (declarations : List TypeDeclaration) → (owner : TypeIndex) → (draft : Draft) →
    info ∈ (acceptMembers references names owner declarations draft).1 →
    ∃ declaration ∈ declarations, info.IsFrom declaration
  | [], _, _, inside => absurd inside List.not_mem_nil
  | declaration :: rest, owner, draft, inside => by
      obtain rfl | inside := List.mem_cons.mp inside
      · refine ⟨declaration, List.mem_cons_self, fun field inside ↦ ?_, fun method inside ↦ ?_⟩
        · exact (mem_acceptFields declaration.fields [] _ inside).resolve_left List.not_mem_nil
        · exact (mem_acceptFunctions declaration.functions [] _ inside).resolve_left
            List.not_mem_nil
      · obtain ⟨other, member, origin⟩ := mem_acceptMembers rest (owner + 1) _ inside
        exact ⟨other, List.mem_cons_of_mem _ member, origin⟩

/-- A type of a file is declared in it. -/
theorem mem_typesOf {references : ReferenceSet} {file : File} {info : TypeInfo}
    (inside : info ∈ Meaning.typesOf references file) :
    ∃ declaration ∈ file.types, info.IsFrom declaration := by
  obtain ⟨declaration, member, origin⟩ := mem_acceptMembers _ 0 _ inside
  obtain ⟨-, written⟩ := acceptTypes_distinct file.types [] .empty List.nodup_nil
  refine ⟨declaration, ?_, origin⟩
  exact (written declaration (List.mem_reverse.mp member)).resolve_left List.not_mem_nil

/-- There is no `while` in the functions and in the fields of a type. -/
structure TypeInfo.IsWhileFree (info : TypeInfo) : Prop where
  fields : ∀ field ∈ info.fields, ∀ value ∈ field.value, value.isWhileFree = true
  methods : ∀ method ∈ info.methods, method.declaration.body.isWhileFree = true

/-- There is no `while` in what is declared in a file without it. -/
theorem whileFree_typesOf {references : ReferenceSet} {file : File}
    (free : file.isWhileFree = true) {info : TypeInfo}
    (inside : info ∈ Meaning.typesOf references file) : info.IsWhileFree := by
  obtain ⟨declaration, member, origin⟩ := mem_typesOf inside
  have here := List.all_eq_true.mp free declaration member
  rw [TypeDeclaration.isWhileFree, Bool.and_eq_true, List.all_eq_true, List.all_eq_true] at here
  obtain ⟨fields, functions⟩ := here
  refine ⟨fun field inside value given ↦ ?_, fun method inside ↦ ?_⟩
  · obtain ⟨written, member, same⟩ := origin.fields field inside
    rw [same] at given
    exact (Option.all_eq_true _ _).mp (fields written member) value given
  · exact functions _ (origin.methods method inside)

end GuestScript.Compile
