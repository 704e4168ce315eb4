import Mathlib.Logic.Equiv.Basic
import Mathlib.Data.List.Nodup
import GuestScript.Bytecode.Image

/-!
# Images that differ in their numbers

An image speaks of its types, routines and imports by their positions, and the names of lambdas
have numbers in them. A `Renumbering` moves all of these positions and numbers, and
`Image.Renumbered` says that one image is another one under it: at the new position of everything
stands what stood at the old one, with the numbers in it changed in the same way.

Renumberings come from lists of labels. `exists_renumbering` is the one fact about them that is
needed: whatever labels two lists have in common, the position of each in the one can be moved to
its position in the other, by a permutation of all positions.
-/

namespace GuestScript.Bytecode

/-- Where types, routines and imports move, and how lambdas are numbered instead. -/
structure Renumbering where
  types : Equiv.Perm TypeIndex
  routines : Equiv.Perm RoutineIndex
  imports : Equiv.Perm ImportIndex
  lambdas : Equiv.Perm Nat

namespace Renumbering

variable (renumbering : Renumbering)

/-- An instruction under a renumbering. -/
def op : Op → Op
  | .makeClosure routine captures => .makeClosure (renumbering.routines routine) captures
  | .construct type => .construct (renumbering.types type)
  | .call routine count => .call (renumbering.routines routine) count
  | .callHost imported count => .callHost (renumbering.imports imported) count
  | other => other

/-- Code under a renumbering. -/
def code (code : List Op) : List Op :=
  code.map renumbering.op

@[simp]
theorem code_nil : renumbering.code [] = [] :=
  rfl

@[simp]
theorem code_cons (first : Op) (rest : List Op) :
    renumbering.code (first :: rest) = renumbering.op first :: renumbering.code rest :=
  rfl

@[simp]
theorem code_append (first second : List Op) :
    renumbering.code (first ++ second) = renumbering.code first ++ renumbering.code second :=
  List.map_append

@[simp]
theorem code_reverse (code : List Op) :
    renumbering.code code.reverse = (renumbering.code code).reverse :=
  List.map_reverse

@[simp]
theorem length_code (code : List Op) : (renumbering.code code).length = code.length :=
  List.length_map renumbering.op

/-- Going back undoes a renumbering. -/
def back : Renumbering :=
  ⟨renumbering.types.symm, renumbering.routines.symm, renumbering.imports.symm,
    renumbering.lambdas.symm⟩

@[simp]
theorem op_back (op : Op) : renumbering.op (renumbering.back.op op) = op := by
  cases op <;> simp only [Renumbering.op, back, Equiv.apply_symm_apply]

@[simp]
theorem code_back (code : List Op) : renumbering.code (renumbering.back.code code) = code := by
  simp [Renumbering.code, Function.comp_def]

end Renumbering

/-- The name of a lambda inside other lambdas, whose numbers come first, of a routine. -/
def lambdaName (routine : String) (numbers : List Nat) : String :=
  numbers.foldl (fun name number ↦ name ++ s!"$lambda{number}") routine

/-- One name is another one with its lambdas numbered differently. -/
def Renumbering.Renames (renumbering : Renumbering) (name name' : String) : Prop :=
  ∃ routine numbers, name = lambdaName routine numbers ∧
    name' = lambdaName routine (numbers.map renumbering.lambdas)

theorem Renumbering.renames_self (renumbering : Renumbering) (name : String) :
    renumbering.Renames name name :=
  ⟨name, [], rfl, rfl⟩

/-- A lambda inside a routine has a number of its own. -/
theorem Renumbering.Renames.inside {renumbering : Renumbering} {name name' : String}
    (renames : renumbering.Renames name name') (number : Nat) :
    renumbering.Renames (name ++ s!"$lambda{number}")
      (name' ++ s!"$lambda{renumbering.lambdas number}") := by
  obtain ⟨routine, numbers, rfl, rfl⟩ := renames
  refine ⟨routine, numbers ++ [number], ?_, ?_⟩
  · rw [lambdaName, lambdaName, List.foldl_append]
    rfl
  · rw [List.map_append, lambdaName, lambdaName, List.foldl_append]
    rfl

/-- One routine is another one under a renumbering. Only lambdas have another name. -/
structure Routine.Renumbered (renumbering : Renumbering) (routine routine' : Routine) : Prop where
  name : renumbering.Renames routine.name routine'.name
  named : (∀ captures, routine.binding ≠ .closure captures) → routine'.name = routine.name
  owner : routine'.owner = routine.owner.map renumbering.types
  visibility : routine'.visibility = routine.visibility
  binding : routine'.binding = routine.binding
  arity : routine'.arity = routine.arity
  locals : routine'.locals = routine.locals
  code : routine'.code.toList = renumbering.code routine.code.toList

/-- One type is another one under a renumbering, with its methods in any order. -/
structure TypeDefinition.Renumbered (renumbering : Renumbering) (type type' : TypeDefinition) :
    Prop where
  namespaceName : type'.namespaceName = type.namespaceName
  name : type'.name = type.name
  fields : type'.fields = type.fields
  initializer : type'.initializer = type.initializer.map renumbering.routines
  methods : type'.methods.Perm (type.methods.map renumbering.routines)

/-- One image is another one under a renumbering. -/
structure Image.Renumbered (renumbering : Renumbering) (image image' : Image) : Prop where
  name : image'.name = image.name
  imports : ∀ index, image'.imports[renumbering.imports index]? = image.imports[index]?
  types : ∀ index, Option.Rel (TypeDefinition.Renumbered renumbering) image.types[index]?
    image'.types[renumbering.types index]?
  routines : ∀ index, Option.Rel (Routine.Renumbered renumbering) image.routines[index]?
    image'.routines[renumbering.routines index]?
  entry : image'.entry = image.entry.map renumbering.routines

/-! ## Renumberings from labels -/

/-- What is paired without ambiguity can be moved by a permutation of all numbers: the pairs are
taken up one by one, in the order of what is moved. -/
theorem exists_perm (pairs : Nat → Nat → Prop) (bound : Nat)
    (bounded : ∀ {old new}, pairs old new → old < bound)
    (functional : ∀ {old new new'}, pairs old new → pairs old new' → new = new')
    (injective : ∀ {old old' new}, pairs old new → pairs old' new → old = old') :
    ∃ move : Equiv.Perm Nat, ∀ {old new}, pairs old new → move old = new := by
  suffices ∀ count, ∃ move : Equiv.Perm Nat,
      ∀ {old new}, old < count → pairs old new → move old = new by
    obtain ⟨move, moves⟩ := this bound
    exact ⟨move, fun paired ↦ moves (bounded paired) paired⟩
  intro count
  induction count with
  | zero => exact ⟨Equiv.refl Nat, fun impossible ↦ absurd impossible (Nat.not_lt_zero _)⟩
  | succ count ih =>
      obtain ⟨move, moves⟩ := ih
      by_cases taken : ∃ new, pairs count new
      · obtain ⟨target, paired⟩ := taken
        -- The number that was to go to the target goes where `count` went before. No earlier
        -- number is moved by this: none of them went to either place.
        refine ⟨move.trans (Equiv.swap (move count) target), fun {old new} below paired' ↦ ?_⟩
        obtain earlier | rfl := Nat.lt_succ_iff_lt_or_eq.mp below
        · have here := moves earlier paired'
          have apart : new ≠ target := fun same ↦
            absurd (injective paired' (same ▸ paired)) (Nat.ne_of_lt earlier)
          have moved : new ≠ move count := fun same ↦
            absurd (move.injective (here.trans same)) (Nat.ne_of_lt earlier)
          rw [Equiv.trans_apply, here, Equiv.swap_apply_of_ne_of_ne moved apart]
        · rw [Equiv.trans_apply, Equiv.swap_apply_left, functional paired paired']
      · refine ⟨move, fun {old new} below paired ↦ ?_⟩
        obtain earlier | rfl := Nat.lt_succ_iff_lt_or_eq.mp below
        · exact moves earlier paired
        · exact absurd ⟨new, paired⟩ taken

variable {Label : Type}

/-- A label that is there once stands at one position. -/
theorem position_unique {labels : List Label} (nodup : labels.Nodup) {label : Label}
    {index index' : Nat} (found : labels[index]? = some label)
    (found' : labels[index']? = some label) : index = index' := by
  have inside := (List.getElem?_eq_some_iff.mp found).1
  exact (List.getElem?_inj inside nodup).mp (found.trans found'.symm)

/-- The position of every label that two lists share can be moved from the one to the other. -/
theorem exists_renumbering {labels labels' : List Label} (nodup : labels.Nodup)
    (nodup' : labels'.Nodup) :
    ∃ move : Equiv.Perm Nat, ∀ {label : Label} {old new : Nat}, labels[old]? = some label →
      labels'[new]? = some label → move old = new := by
  obtain ⟨move, moves⟩ := exists_perm
    (fun old new ↦ ∃ label, labels[old]? = some label ∧ labels'[new]? = some label) labels.length
    (fun ⟨_, found, _⟩ ↦ (List.getElem?_eq_some_iff.mp found).1)
    (fun ⟨_, found, here⟩ ⟨_, found', there⟩ ↦ by
      cases found.symm.trans found'
      exact position_unique nodup' here there)
    (fun ⟨_, here, found⟩ ⟨_, there, found'⟩ ↦ by
      cases found.symm.trans found'
      exact position_unique nodup here there)
  exact ⟨move, fun found found' ↦ moves ⟨_, found, found'⟩⟩

/-- Where two lists have the same labels, what moves each of them also moves what is behind the one
list behind the other. -/
theorem getElem?_of_perm {labels labels' : List Label} (perm : labels'.Perm labels)
    {move : Equiv.Perm Nat} (moves : ∀ {label : Label} {old new : Nat},
      labels[old]? = some label → labels'[new]? = some label → move old = new) (index : Nat) :
    labels'[move index]? = labels[index]? := by
  cases found : labels[index]? with
  | some label =>
      obtain ⟨new, found'⟩ := List.mem_iff_getElem?.mp
        (perm.mem_iff.mpr (List.mem_of_getElem? found))
      rw [moves found found', found']
  | none =>
      by_contra present
      obtain ⟨label, found'⟩ := Option.ne_none_iff_exists'.mp present
      obtain ⟨old, here⟩ := List.mem_iff_getElem?.mp
        (perm.mem_iff.mp (List.mem_of_getElem? found'))
      -- The label stands somewhere in the first list, and has moved from there.
      cases move.injective (moves here found')
      exact Option.some_ne_none _ (here.symm.trans found)

end GuestScript.Bytecode
