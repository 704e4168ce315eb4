import GuestScript.Proofs.Compile.Growth
import GuestScript.Proofs.Compile.WholeTypes

/-!
# What written types mean

The type that a written type is resolved to does not depend on what was compiled before, and it is
closed unless a mistake is reported.
-/

namespace GuestScript.Compile

open Meaning
open Syntax

variable (references : ReferenceSet) (names : List TypeName) (namespaceName : String)

mutual

theorem resolveType_fst : (written : TypeExpression) → (draft : Draft) →
    (resolveType references names namespaceName written draft).1
      = meantType references names namespaceName written
  | .int _, _ | .str _, _ | .bool _, _ | .unit _, _ => rfl
  | .dyn span, draft => by
      rw [resolveType, meantType]
      split <;> rfl
  | .array element _, draft => by
      rw [meantType, ← resolveType_fst element draft]
      rfl
  | .seq element _, draft => by
      rw [meantType, ← resolveType_fst element draft]
      rfl
  | .function parameters result _, draft => by
      rw [meantType, ← resolveTypes_fst parameters draft, ← resolveType_fst result
        (resolveTypes references names namespaceName parameters draft).2]
      rfl
  | .named name span, draft => by
      rw [resolveType, meantType]
      cases TypeName.find? names name namespaceName <;> rfl

theorem resolveTypes_fst : (written : List TypeExpression) → (draft : Draft) →
    (resolveTypes references names namespaceName written draft).1
      = meantTypes references names namespaceName written
  | [], _ => rfl
  | first :: rest, draft => by
      rw [meantTypes, ← resolveType_fst first draft, ← resolveTypes_fst rest
        (resolveType references names namespaceName first draft).2]
      rfl

end

mutual

/-- If no mistake is reported, the meant type is closed. -/
theorem isClosed_meantType : (written : TypeExpression) → (draft : Draft) →
    (resolveType references names namespaceName written draft).2.Quiet →
    (meantType references names namespaceName written).IsClosed
  | .int _, _, _ | .str _, _, _ | .bool _, _, _ | .unit _, _, _ => rfl
  | .dyn span, draft, quiet => by
      rw [resolveType] at quiet
      rw [meantType]
      split at quiet
      · next known => rw [if_pos known]; rfl
      · exact absurd quiet (Draft.not_quiet_report _ _ span draft)
  | .array element _, draft, quiet | .seq element _, draft, quiet => by
      rw [meantType, Ty.IsClosed, Ty.isWhole]
      exact isClosed_meantType element draft quiet
  | .function parameters result _, draft, quiet => by
      have grown := (Lowering.notes_resolveType references names namespaceName result
        (resolveTypes references names namespaceName parameters draft).2).extends'
      rw [meantType, Ty.IsClosed, Ty.isWhole, Bool.and_eq_true]
      exact ⟨areClosed_meantTypes parameters draft (quiet.of_extends grown),
        isClosed_meantType result _ quiet⟩
  | .named name span, draft, quiet => by
      rw [resolveType] at quiet
      rw [meantType]
      cases found : TypeName.find? names name namespaceName with
      | some index => rfl
      | none =>
          rw [found] at quiet
          exact absurd quiet (Draft.not_quiet_report _ _ span draft)

/-- If no mistake is reported, the meant types are closed. -/
theorem areClosed_meantTypes : (written : List TypeExpression) → (draft : Draft) →
    (resolveTypes references names namespaceName written draft).2.Quiet →
    Ty.areWhole false (meantTypes references names namespaceName written) = true
  | [], _, _ => rfl
  | first :: rest, draft, quiet => by
      have grown := (Lowering.notes_resolveTypes references names namespaceName rest
        (resolveType references names namespaceName first draft).2).extends'
      rw [meantTypes, Ty.areWhole, Bool.and_eq_true]
      exact ⟨isClosed_meantType first draft (quiet.of_extends grown),
        areClosed_meantTypes rest _ quiet⟩

end

end GuestScript.Compile
