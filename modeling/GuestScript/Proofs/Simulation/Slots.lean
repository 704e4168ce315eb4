import GuestScript.Proofs.Compile.Scopes
import GuestScript.Proofs.Meaning.Holders
import GuestScript.Proofs.Simulation.Meets

/-!
# Environments in slots

The machine keeps variables in the slots of a frame, where the evaluator has an environment. The
environment of a scope is read off the slots: `scope.values slots`. `Standing` says how they belong
together: different variables have different slots, all before the next free one, and the instance
that a body works on is where the evaluator finds it. `Keeps` says which slots a piece of code leaves
as they are: those before the next free one that belong to no variable in scope.
-/

namespace GuestScript.Meaning

open Machine
open Compile (Mentions.receiverName)

variable {program : Translated}

/-- The values of the slots of a frame. -/
abbrev Slots (program : Translated) := Array (Twin program)

/-- The value in a slot, for the evaluator. -/
def Slots.datum (slots : Slots program) (slot : Nat) : Datum :=
  meant (slots[slot]?.getD .unit)

/-- The environment of variables in slots. -/
def Scope.values (scope : Scope Nat) (slots : Slots program) : Environment :=
  scope.map (Variable.hold slots.datum)

/-- The instance that a body works on is in a slot: in one that belongs to no variable, or in that
of the oldest variable of its name. -/
inductive Receiver.IsAt (scope : Scope Nat) (next : Nat) (slots : Slots program) :
    Receiver → Option Nat → Prop where
  | absent : IsAt scope next slots .absent none
  | given {slot : Nat} {value : Twin program} :
      slot < next → (∀ held ∈ scope, held.holder ≠ slot) → slots[slot]? = some value →
      IsAt scope next slots (.given (meant value)) (some slot)
  | copied {held : Variable Nat} :
      scope.oldest? Mentions.receiverName = some held →
      IsAt scope next slots .copied (some held.holder)

/-- Variables have slots of their own before the next free one, and the instance that a body works
on is where the evaluator finds it. -/
structure Standing (size : Nat) (receiver : Receiver) (place : Option Nat) (scope : Scope Nat)
    (next : Nat) (slots : Slots program) : Prop where
  size : slots.size = size
  below : ∀ held ∈ scope, held.holder < next
  apart : (scope.map Variable.holder).Nodup
  receiver : receiver.IsAt scope next slots place

/-- Slots before the next free one that belong to no variable in scope are left as they are. -/
structure Keeps (scope : Scope Nat) (next : Nat) (before after : Slots program) : Prop where
  size : after.size = before.size
  slots : ∀ slot < next, (∀ held ∈ scope, held.holder ≠ slot) → after[slot]? = before[slot]?

variable {size next middle after : Nat} {receiver : Receiver} {place : Option Nat}
  {scope inner outer : Scope Nat} {slots others lasts : Slots program}

/-! ## Reading -/

@[simp]
theorem Scope.length_values : (scope.values slots).length = scope.length :=
  List.length_map _

theorem Scope.named?_values (name : String) :
    (scope.values slots).named? name = (scope.named? name).map (Variable.hold slots.datum) :=
  Scope.named?_hold _ scope name

@[simp]
theorem Scope.typing_values : Scope.typing (scope.values slots) = scope.typing :=
  Scope.typing_hold _ scope

/-- The evaluator finds the instance that a body works on in its slot. -/
theorem Standing.find?_values (standing : Standing size receiver place scope next slots) :
    receiver.find? (scope.values slots) = place.map slots.datum := by
  cases standing.receiver with
  | absent => rfl
  | given _ _ found =>
      rw [Receiver.find?, Option.map_some, Slots.datum, found]
      rfl
  | copied found =>
      rw [Receiver.find?, Scope.values, Scope.oldest?_hold, found]
      rfl

/-! ## Writing -/

theorem Slots.datum_setIfInBounds_self {slot : Nat} (inside : slot < slots.size)
    (value : Twin program) : Slots.datum (slots.setIfInBounds slot value) slot = meant value := by
  rw [Slots.datum, Array.getElem?_setIfInBounds_self_of_lt inside]
  rfl

theorem Slots.datum_setIfInBounds_ne {slot other : Nat} (different : slot ≠ other)
    (value : Twin program) :
    Slots.datum (slots.setIfInBounds slot value) other = slots.datum other := by
  rw [Slots.datum, Array.getElem?_setIfInBounds_ne different, Slots.datum]

/-- Variables keep their values when a slot is written that belongs to none of them. -/
theorem Scope.values_setIfInBounds {slot : Nat} (apart : ∀ held ∈ scope, held.holder ≠ slot)
    (value : Twin program) : scope.values (slots.setIfInBounds slot value) = scope.values slots := by
  refine List.map_congr_left fun held inside ↦ ?_
  rw [Variable.hold, Slots.datum_setIfInBounds_ne (apart held inside).symm, Variable.hold]

theorem Keeps.refl (slots : Slots program) : Keeps scope next slots slots :=
  ⟨rfl, fun _ _ _ ↦ rfl⟩

theorem Keeps.trans (first : Keeps scope next slots others) (second : Keeps scope next others lasts) :
    Keeps scope next slots lasts :=
  ⟨second.size.trans first.size, fun slot before apart ↦
    (second.slots slot before apart).trans (first.slots slot before apart)⟩

/-- What is kept in an inner scope is kept outside of it. -/
theorem Keeps.outside (keeps : Keeps inner middle slots others)
    (extended : scope.Extends next inner middle) : Keeps scope next slots others := by
  obtain ⟨⟨added, rfl, new⟩, later⟩ := extended
  refine ⟨keeps.size, fun slot before apart ↦ ?_⟩
  refine keeps.slots slot (Nat.lt_of_lt_of_le before later) (List.forall_mem_append.mpr ⟨?_, apart⟩)
  exact fun held inside ↦ Nat.ne_of_gt (Nat.lt_of_lt_of_le before (new held inside).1)

/-- Writing the slot of a variable, or one that is free, keeps the others. -/
theorem Keeps.setIfInBounds {slot : Nat} (allowed : next ≤ slot ∨ ∃ held ∈ scope, held.holder = slot)
    (value : Twin program) : Keeps scope next slots (slots.setIfInBounds slot value) := by
  refine ⟨Array.size_setIfInBounds, fun other before apart ↦ ?_⟩
  refine Array.getElem?_setIfInBounds_ne fun same ↦ ?_
  subst same
  obtain free | ⟨held, inside, same⟩ := allowed
  · exact absurd before (Nat.not_lt.mpr free)
  · exact apart held inside same

/-! ## Scopes that grow and shrink -/

/-- Leaving a scope forgets the variables that it has added. -/
theorem Scope.Extends.leaveScope (extended : scope.Extends next inner middle) :
    (Flow.next (inner.values slots)).leaveScope scope.length = .next (scope.values slots) := by
  obtain ⟨⟨added, rfl, -⟩, -⟩ := extended
  rw [Flow.leaveScope, Scope.length_values, List.length_append, Nat.add_sub_cancel]
  congr 1
  rw [Scope.values, List.map_append, List.drop_left' (List.length_map _), Scope.values]

namespace Standing

/-- A scope stands as before after code that keeps what belongs to none of its variables. -/
theorem keep (standing : Standing size receiver place scope next slots)
    (keeps : Keeps scope next slots others) (later : next ≤ middle) :
    Standing size receiver place scope middle others := by
  refine ⟨keeps.size.trans standing.size, fun held inside ↦
    Nat.lt_of_lt_of_le (standing.below held inside) later, standing.apart, ?_⟩
  cases standing.receiver with
  | absent => exact .absent
  | given before apart found =>
      exact .given (Nat.lt_of_lt_of_le before later) apart ((keeps.slots _ before apart).trans found)
  | copied found => exact .copied found

/-- A variable joins in a slot that is free. -/
theorem declare (standing : Standing size receiver place scope next slots) {held : Variable Nat}
    (free : next ≤ held.holder) (later : held.holder < middle) (value : Twin program) :
    Standing size receiver place (held :: scope) middle
      (slots.setIfInBounds held.holder value) := by
  have keeps : Keeps scope next slots (slots.setIfInBounds held.holder value) :=
    .setIfInBounds (.inl free) value
  have apart : ∀ other ∈ scope, other.holder ≠ held.holder := fun other inside ↦
    Nat.ne_of_lt (Nat.lt_of_lt_of_le (standing.below other inside) free)
  refine ⟨keeps.size.trans standing.size, ?_, ?_, ?_⟩
  · refine List.forall_mem_cons.mpr ⟨later, fun other inside ↦ ?_⟩
    exact Nat.lt_trans (Nat.lt_of_lt_of_le (standing.below other inside) free) later
  · refine List.nodup_cons.mpr ⟨fun same ↦ ?_, standing.apart⟩
    obtain ⟨other, inside, same⟩ := List.mem_map.mp same
    exact apart other inside same
  · cases standing.receiver with
    | absent => exact .absent
    | given before apart' found =>
        have different := Nat.ne_of_gt (Nat.lt_of_lt_of_le before free)
        refine .given (Nat.lt_trans (Nat.lt_of_lt_of_le before free) later)
          (List.forall_mem_cons.mpr ⟨different, apart'⟩) ?_
        exact (keeps.slots _ before apart').trans found
    -- the receiver of a lambda is its oldest variable of that name, so a newer one does not hide it
    | copied found =>
        refine .copied ?_
        rw [Scope.oldest?, List.reverse_cons, Scope.named?, List.find?_append]
        rw [Scope.oldest?, Scope.named?] at found
        rw [found]
        rfl

/-- The environment has the new variable with its value. -/
theorem values_declare (standing : Standing size receiver place scope next slots)
    {held : Variable Nat} (free : next ≤ held.holder) (inside : held.holder < slots.size)
    (value : Twin program) :
    Scope.values (held :: scope) (slots.setIfInBounds held.holder value)
      = ⟨held.name, held.type, meant value⟩ :: scope.values slots := by
  have apart : ∀ other ∈ scope, other.holder ≠ held.holder := fun other inside ↦
    Nat.ne_of_lt (Nat.lt_of_lt_of_le (standing.below other inside) free)
  rw [Scope.values, List.map_cons, Variable.hold, Slots.datum_setIfInBounds_self inside]
  exact congrArg (_ :: ·) (Scope.values_setIfInBounds apart value)

/-- Writing the slot of the newest variable of a name assigns to it. -/
theorem values_assign {name : String} {held : Variable Nat} (value : Twin program) :
    {scope : Scope Nat} → (scope.map Variable.holder).Nodup → scope.named? name = some held →
    held.holder < slots.size →
    assign name (meant value) (scope.values slots)
      = scope.values (slots.setIfInBounds held.holder value)
  | [], _, found, _ => absurd found nofun
  | first :: rest, apart, found, inside => by
      obtain ⟨new, apart'⟩ := List.nodup_cons.mp apart
      rw [Scope.named?, List.find?_cons] at found
      rw [Scope.values, Scope.values, List.map_cons, List.map_cons, assign, Variable.hold_name]
      split at found
      · next same =>
          obtain rfl := Option.some.inj found
          rw [if_pos (of_decide_eq_true same)]
          have others : ∀ other ∈ rest, other.holder ≠ first.holder := fun other member same ↦
            new (List.mem_map.mpr ⟨other, member, same⟩)
          have kept : Scope.values rest _ = Scope.values rest slots :=
            Scope.values_setIfInBounds others value
          rw [Scope.values, Scope.values] at kept
          rw [kept, Variable.hold, Variable.hold, Slots.datum_setIfInBounds_self inside]
      · next different =>
          have member : held ∈ rest := (Scope.mem_of_named? found).1
          have other : held.holder ≠ first.holder := fun same ↦
            new (List.mem_map.mpr ⟨held, member, same⟩)
          rw [if_neg (of_decide_eq_false different)]
          have assigned := values_assign value apart' found inside
          rw [Scope.values, Scope.values] at assigned
          rw [assigned, Variable.hold, Variable.hold, Slots.datum_setIfInBounds_ne other]

end Standing

end GuestScript.Meaning
