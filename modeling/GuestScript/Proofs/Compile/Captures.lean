import GuestScript.Meaning.Uses
import GuestScript.Proofs.Compile.Lambdas
import GuestScript.Proofs.Compile.Mentions
import GuestScript.Proofs.Meaning.Holders
import Mathlib.Data.List.Nodup

/-!
# The variables in the slots of a routine

The slots of a routine belong to variables of the text: those of a lambda first to the variables
outside that it copies, and then to its own. `Carries` says that code does with its slots what a
text does with the variables that they belong to, in the same order, and that it makes the closures
of the lambdas of the text from the slots of the variables that they copy, with a routine that
carries what is in the lambda.

`Reflects` says how the names in scope go together with the variables of the text while a body is
compiled. What a lambda needs is copied because the names that it may refer to are among those that
are mentioned in it: where it finds no copy of a mentioned name, the name means no variable outside.
-/

namespace GuestScript

/-- Whether an instruction does nothing with a slot and makes no closure. -/
def Bytecode.Op.isIndifferent : Bytecode.Op → Bool
  | .load _ | .store _ | .iterNext .. | .makeClosure .. => false
  | _ => true

namespace Meaning

open Bytecode (Op Routine RoutineIndex)
open Compile
open Machine (Program)
open Syntax

/-! ## What code does with variables -/

/-- The variables that the slots of a lambda belong to, which is made at this depth from copies of
some slots. -/
def capturing (held : Nat → Binder) (slots : List Nat) (depth : Nat) (slot : Nat) : Binder :=
  match slots[slot]? with
  | some outer => held outer
  | none => ⟨depth + 1, slot - slots.length⟩

/-- Code at a depth, whose slots belong to these variables, does this with them. -/
inductive Carries (program : Program) : Nat → (Nat → Binder) → List Op → List Use → Prop where
  | nothing {depth held code} :
      code.all Op.isIndifferent = true → Carries program depth held code []
  | read {depth held slot} : Carries program depth held [.load slot] [.read (held slot)]
  | write {depth held slot} : Carries program depth held [.store slot] [.write (held slot)]
  | advance {depth held slot exit} :
      Carries program depth held [.iterNext slot exit] [.advance (held slot)]
  | closure {depth held slots index parameters inside} {routine : Routine} :
      slots.Nodup →
      program.image.routines[index]? = some routine →
      routine.binding = .closure slots.length →
      routine.arity = slots.length + parameters →
      routine.arity ≤ routine.locals →
      Carries program (depth + 1) (capturing held slots depth) routine.code.toList inside →
      Carries program depth held (slots.map .load ++ [.makeClosure index slots.length])
        [.closure parameters inside]
  | append {depth held first second uses more} :
      Carries program depth held first uses → Carries program depth held second more →
      Carries program depth held (first ++ second) (uses ++ more)

section Carried

variable {program : Program} {depth : Nat} {held : Nat → Binder} {slots : List Nat}
  {code rest : List Op} {uses : List Use} {binder : Binder}

/-- What does nothing with variables may come behind. -/
theorem Carries.behind (carries : Carries program depth held code uses)
    (indifferent : rest.all Op.isIndifferent = true) :
    Carries program depth held (code ++ rest) uses := by
  have both := carries.append (.nothing indifferent)
  rwa [List.append_nil] at both

theorem capturing_of_copied {slot copied : Nat} (found : slots[slot]? = some copied) :
    capturing held slots depth slot = held copied := by
  rw [capturing, found]

theorem capturing_of_own {slot : Nat} (behind : slots.length ≤ slot) :
    capturing held slots depth slot = ⟨depth + 1, slot - slots.length⟩ := by
  rw [capturing, List.getElem?_eq_none behind]

/-- A slot of a lambda has a copy, or is behind the copies. -/
theorem copied_or_own (slots : List Nat) (slot : Nat) :
    (∃ copied, slots[slot]? = some copied) ∨ slots.length ≤ slot := by
  cases found : slots[slot]? with
  | some copied => exact .inl ⟨copied, rfl⟩
  | none => exact .inr (List.getElem?_eq_none_iff.mp found)

/-- A variable from outside of a lambda is in the slot of a copy. -/
theorem exists_copy_of_depth_le {slot : Nat}
    (outer : (capturing held slots depth slot).depth ≤ depth) :
    ∃ copied, slots[slot]? = some copied ∧ held copied = capturing held slots depth slot := by
  rcases copied_or_own slots slot with ⟨copied, found⟩ | own
  · exact ⟨copied, found, (capturing_of_copied found).symm⟩
  · rw [capturing_of_own own] at outer
    exact absurd outer (Nat.not_succ_le_self depth)

/-- Different slots belong to different variables, all from no deeper than the code. -/
structure Distinct (depth : Nat) (held : Nat → Binder) : Prop where
  injective : Function.Injective held
  depth : ∀ slot, (held slot).depth ≤ depth

/-- The slots of a function belong to variables of their own. -/
theorem Distinct.own : Distinct 0 (Binder.mk 0) :=
  ⟨fun _ _ same ↦ (Binder.mk.inj same).2, fun _ ↦ Nat.le_refl 0⟩

/-- What is copied is not one of the variables of the lambda itself. -/
theorem Distinct.copied_ne_own (distinct : Distinct depth held) (copied number : Nat) :
    held copied ≠ ⟨depth + 1, number⟩ := by
  intro same
  have outer := distinct.depth copied
  rw [same] at outer
  exact Nat.not_succ_le_self depth outer

/-- The slots of a lambda belong to different variables, if no slot is copied twice. -/
theorem Distinct.capturing (distinct : Distinct depth held) (once : slots.Nodup) :
    Distinct (depth + 1) (capturing held slots depth) := by
  constructor
  · intro first second same
    rcases copied_or_own slots first with ⟨copied, one⟩ | one <;>
      rcases copied_or_own slots second with ⟨copied', other⟩ | other
    · rw [capturing_of_copied one, capturing_of_copied other] at same
      obtain rfl := distinct.injective same
      exact once.getElem_inj_iff.mp ((List.getElem?_eq_some_iff.mp one).2.trans
        (List.getElem?_eq_some_iff.mp other).2.symm)
    · rw [capturing_of_copied one, capturing_of_own other] at same
      exact absurd same (distinct.copied_ne_own copied _)
    · rw [capturing_of_own one, capturing_of_copied other] at same
      exact absurd same.symm (distinct.copied_ne_own copied' _)
    · rw [capturing_of_own one, capturing_of_own other, Binder.mk.injEq] at same
      omega
  · intro slot
    rcases copied_or_own slots slot with ⟨copied, found⟩ | own
    · rw [capturing_of_copied found]
      exact Nat.le_succ_of_le (distinct.depth copied)
    · rw [capturing_of_own own]

end Carried

/-! ## Names in scope -/

/-- Names in scope mean variables of a text, as far as they are mentioned: what is found in a slot
is the variable that the slot belongs to, and a mentioned name that is not found means none. The
slots that are free go to the variables that the text binds next, and no two variables in scope
share a slot. -/
structure Reflects (mentioned : String → Prop) (held : Nat → Binder) (setting : Setting)
    (standpoint : Standpoint) (scope : Scope Nat) (names : Scope Binder) (next index : Nat) :
    Prop where
  sees : { setting.site with
    hasReceiver := standpoint.site.hasReceiver, result := standpoint.site.result }
      = standpoint.site
  found : ∀ {name : String} {present : Variable Nat}, scope.named? name = some present →
    ∃ bound, names.named? name = some bound ∧ bound.holder = held present.holder
  absent : ∀ {name : String}, mentioned name → scope.named? name = none → names.named? name = none
  receiver : ∀ {slot : Nat}, setting.receiver = some slot →
    standpoint.receiver = some (held slot)
  noReceiver : mentioned Mentions.receiverName → setting.receiver = none →
    standpoint.receiver = none
  free : ∀ more, held (next + more) = ⟨standpoint.depth, index + more⟩
  below : ∀ present ∈ scope, present.holder < next
  apart : (scope.map Variable.holder).Nodup
  receiverBelow : ∀ {slot : Nat}, setting.receiver = some slot → slot < next
  receiverApart : ∀ {slot : Nat}, setting.receiver = some slot →
    ∀ present ∈ scope, present.holder = slot → present.name = Mentions.receiverName

/-- No variable in scope has a name that is not found. -/
theorem Scope.named?_eq_none {Holder : Type} {scope : Scope Holder} {name : String} :
    scope.named? name = none ↔ ∀ held ∈ scope, held.name ≠ name := by
  simp only [Scope.named?, List.find?_eq_none, decide_eq_true_eq, ne_eq]

theorem Scope.named?_cons {Holder : Type} (held : Variable Holder) (scope : Scope Holder)
    (name : String) :
    Scope.named? (held :: scope) name
      = if held.name = name then some held else scope.named? name := by
  rw [Scope.named?, List.find?_cons]
  by_cases same : held.name = name
  · rw [decide_eq_true same, if_pos same]
  · rw [decide_eq_false same, if_neg same]
    rfl

namespace Reflects

variable {mentioned more : String → Prop} {held : Nat → Binder} {setting : Setting}
  {standpoint : Standpoint} {scope : Scope Nat} {names : Scope Binder} {next index : Nat}
  (reflects : Reflects mentioned held setting standpoint scope names next index)

include reflects

/-- The next free slot goes to the variable that is bound next. -/
theorem held_next : held next = ⟨standpoint.depth, index⟩ :=
  reflects.free 0

/-- Slots may be taken without a name. -/
theorem skip (count : Nat) :
    Reflects mentioned held setting standpoint scope names (next + count) (index + count) :=
  { reflects with
    free := fun more ↦ by rw [Nat.add_assoc, Nat.add_assoc, reflects.free]
    below := fun present inside ↦ Nat.lt_add_right count (reflects.below present inside)
    receiverBelow := fun taken ↦ Nat.lt_add_right count (reflects.receiverBelow taken) }

/-- A name becomes that of the variable that is bound next. -/
theorem bind {name : Identifier} {type : Ty}
    (covers : ∀ other, more other →
      mentioned other ∨ other = name.name ∧ other ≠ Mentions.receiverName) :
    Reflects more held setting standpoint (⟨name.name, type, next⟩ :: scope)
      (standpoint.bind index name names) (next + 1) (index + 1) := by
  have later := reflects.skip 1
  refine { later with
    found := fun {other present} found ↦ ?_
    absent := fun {other} needed absent ↦ ?_
    noReceiver := fun needed ↦ later.noReceiver ?_
    below := List.forall_mem_cons.mpr ⟨Nat.lt_succ_self next, later.below⟩
    apart := ?_
    receiverApart := fun taken ↦ ?_ }
  · rw [Scope.named?_cons] at found
    rw [Standpoint.bind, Scope.named?_cons]
    by_cases same : name.name = other
    · rw [if_pos same] at found ⊢
      cases found
      exact ⟨_, rfl, reflects.held_next.symm⟩
    · rw [if_neg same] at found ⊢
      exact reflects.found found
  · rw [Scope.named?_cons] at absent
    by_cases same : name.name = other
    · rw [if_pos same] at absent
      cases absent
    · rw [if_neg same] at absent
      rw [Standpoint.bind, Scope.named?_cons, if_neg same]
      rcases covers other needed with known | ⟨rfl, -⟩
      · exact reflects.absent known absent
      · exact absurd rfl same
  · exact (covers _ needed).resolve_right fun new ↦ new.2 rfl
  · refine List.nodup_cons.mpr ⟨fun taken ↦ ?_, reflects.apart⟩
    obtain ⟨present, inside, same⟩ := List.mem_map.mp taken
    exact absurd same (Nat.ne_of_lt (reflects.below present inside))
  · refine List.forall_mem_cons.mpr ⟨fun same ↦ ?_, reflects.receiverApart taken⟩
    exact absurd same (Nat.ne_of_gt (reflects.receiverBelow taken))

/-- A variable of the text is bound. -/
theorem declare (name : Identifier) (type : Ty) :
    Reflects mentioned held setting standpoint (⟨name.name, type, next⟩ :: scope)
      (standpoint.bind index name names) (next + 1) (index + 1) :=
  reflects.bind fun _ ↦ .inl

end Reflects

/-! ## Copies -/

section Copies

variable {ownerType : Ty} {receiver : Option Nat} {parameters : List Identifier} {scope : Scope Nat}
  {body : LambdaBody} {name : String} {copy : Variable Nat}

/-- A copy has the name under which it is taken. -/
theorem name_of_capture? (taken : capture? ownerType receiver parameters scope name = some copy) :
    copy.name = name := by
  rw [capture?] at taken
  split at taken
  · obtain ⟨_, -, rfl⟩ := Option.map_eq_some_iff.mp taken
    rfl
  · split at taken
    · cases taken
    · exact (Scope.mem_of_named? taken).2

/-- What a lambda copies is taken under a name that is mentioned in it. -/
theorem mem_captures :
    copy ∈ captures ownerType receiver parameters scope body ↔
      copy.name ∈ Mentions.inLambda [] body ∧
        capture? ownerType receiver parameters scope copy.name = some copy := by
  rw [captures, List.mem_filterMap]
  constructor
  · rintro ⟨name, mentioned, taken⟩
    rw [name_of_capture? taken]
    exact ⟨mentioned, taken⟩
  · rintro ⟨mentioned, taken⟩
    exact ⟨copy.name, mentioned, taken⟩

/-- The instance is copied from its slot. -/
theorem receiver_of_capture?
    (taken : capture? ownerType receiver parameters scope Mentions.receiverName = some copy) :
    receiver = some copy.holder := by
  rw [capture?, if_pos rfl, Option.map_eq_some_iff] at taken
  obtain ⟨slot, same, rfl⟩ := taken
  exact same

/-- Anything else is copied from where its name is found. -/
theorem named?_of_capture? (other : name ≠ Mentions.receiverName)
    (taken : capture? ownerType receiver parameters scope name = some copy) :
    scope.named? name = some copy := by
  rw [capture?, if_neg other] at taken
  split at taken
  · cases taken
  · exact taken

/-- The copies of a lambda come in the first of its slots. -/
theorem exists_copy_of_mem_inSlots {copies : Scope Nat} {present : Variable Nat}
    (inside : present ∈ inSlots (Scope.typing copies) 0) :
    ∃ copy, copies[present.holder]? = some copy ∧ present.name = copy.name := by
  obtain ⟨⟨typed, position⟩, placed, rfl⟩ := List.mem_map.mp inside
  rw [List.mem_reverse, List.mk_mem_zipIdx_iff_getElem?, Scope.typing, List.getElem?_map,
    Option.map_eq_some_iff] at placed
  obtain ⟨copy, found, rfl⟩ := placed
  exact ⟨copy, found, rfl⟩

/-- The slot of a copy belongs to the variable that is copied. -/
theorem capturing_copies {copies : Scope Nat} {held : Nat → Binder} {depth slot : Nat}
    (found : copies[slot]? = some copy) :
    capturing held (copies.map Variable.holder) depth slot = held copy.holder := by
  refine capturing_of_copied ?_
  rw [List.getElem?_map, found]
  rfl

/-- Where there is no slot under a name, there is no copy under it. -/
theorem name_ne_of_inSlots {copies : Scope Nat}
    (absent : (inSlots (Scope.typing copies) 0).named? name = none) (copied : copy ∈ copies) :
    copy.name ≠ name := by
  have typed : (copy.hold fun _ ↦ ()) ∈ Scope.typing copies := List.mem_map_of_mem copied
  rw [← List.mem_reverse, ← typing_inSlots _ 0, Scope.typing] at typed
  obtain ⟨present, inside, same⟩ := List.mem_map.mp typed
  have name := congrArg Variable.name same
  exact name ▸ Scope.named?_eq_none.mp absent present inside

/-- A lambda takes its copies and its arguments. -/
theorem arity_of_copies (site : Site) (routine : String) (number : Nat) (copies : Scope Nat)
    (parameters : List Identifier) (body : LambdaBody) (expected : Option Ty) :
    (lambdaCode site routine number (Scope.typing copies) parameters body expected).arity
      = copies.length + parameters.length := by
  have count := length_lambdaSignature parameters.length expected
  rw [Lambda.arity, lambdaCode]
  simp only [Scope.typing, declared, List.length_map, List.length_zip, count, Nat.min_self]

/-- The instance of a lambda is in the slot of the copy under its name. -/
theorem exists_copy_of_findIdx? {copies : Scope Nat} {slot : Nat}
    (placed : (Scope.typing copies).findIdx? (fun copy ↦ copy.name = name) = some slot) :
    ∃ copy, copies[slot]? = some copy ∧ copy.name = name := by
  obtain ⟨inside, named, -⟩ := List.findIdx?_eq_some_iff_getElem.mp placed
  have inside' : slot < copies.length := by rwa [Scope.typing, List.length_map] at inside
  simp only [Scope.typing, List.getElem_map, Variable.hold_name, decide_eq_true_eq] at named
  exact ⟨copies[slot], List.getElem?_eq_getElem inside', named⟩

end Copies

/-- Hiding the variables of a name hides no others. -/
theorem Scope.named?_filter {Holder : Type} (scope : Scope Holder) (hidden name : String) :
    Scope.named? (scope.filter fun held ↦ held.name ≠ hidden) name
      = if name = hidden then none else scope.named? name := by
  induction scope with
  | nil => split <;> rfl
  | cons first rest ih =>
      rw [List.filter_cons]
      by_cases kept : first.name = hidden
      · rw [if_neg (by simpa only [ne_eq, decide_not, Bool.not_eq_true', decide_eq_false_iff_not,
          not_not] using kept), ih, Scope.named?_cons]
        split
        · rfl
        · next other => rw [if_neg fun same ↦ other (same.symm.trans kept)]
      · rw [if_pos (decide_eq_true kept), Scope.named?_cons, Scope.named?_cons, ih]
        by_cases same : first.name = name
        · rw [if_pos same, if_pos same, if_neg fun hides ↦ kept (same.trans hides)]
        · rw [if_neg same, if_neg same]

/-- What a name means outside of a lambda. -/
theorem Standpoint.named?_outside (standpoint : Standpoint) (names : Scope Binder)
    (name : String) :
    (standpoint.outside names).named? name
      = if name = Mentions.receiverName then
          standpoint.receiver.map fun binder ↦ ⟨Mentions.receiverName, .dyn, binder⟩
        else names.named? name := by
  rw [outside]
  cases standpoint.receiver with
  | none => exact Scope.named?_filter names Mentions.receiverName name
  | some binder =>
      rw [Option.map_some, Option.toList_some, List.singleton_append, Scope.named?_cons,
        Scope.named?_filter]
      by_cases same : name = Mentions.receiverName
      · rw [if_pos same.symm, if_pos same]
      · rw [if_neg (Ne.symm same), if_neg same, if_neg same]

namespace Reflects

variable {mentioned : String → Prop} {held : Nat → Binder} {setting : Setting}
  {standpoint : Standpoint} {scope : Scope Nat} {names : Scope Binder} {next index : Nat}

/-- No slot is copied twice. -/
theorem nodup_captures
    (reflects : Reflects mentioned held setting standpoint scope names next index)
    (parameters : List Identifier) (body : LambdaBody) :
    ((captures setting.ownerType setting.receiver parameters scope body).map
      Variable.holder).Nodup := by
  have once := ((Mentions.collects_inLambda body).ordered List.Pairwise.nil).nodup
  rw [captures, List.map_filterMap]
  refine once.filterMap fun first second slot one other ↦ ?_
  obtain ⟨copy, taken, rfl⟩ := Option.map_eq_some_iff.mp one
  obtain ⟨copy', taken', same⟩ := Option.map_eq_some_iff.mp other
  by_cases first' : first = Mentions.receiverName
  · subst first'
    by_contra different
    have found := named?_of_capture? (Ne.symm different) taken'
    have name := reflects.receiverApart (receiver_of_capture? taken) copy'
      (Scope.mem_of_named? found).1 same
    exact different (name.symm.trans (name_of_capture? taken'))
  · have found := named?_of_capture? first' taken
    by_cases second' : second = Mentions.receiverName
    · subst second'
      have name := reflects.receiverApart (receiver_of_capture? taken') copy
        (Scope.mem_of_named? found).1 same.symm
      exact absurd ((name_of_capture? taken).symm.trans name) first'
    · have found' := named?_of_capture? second' taken'
      have equal := List.inj_on_of_nodup_map reflects.apart (Scope.mem_of_named? found).1
        (Scope.mem_of_named? found').1 same.symm
      rw [← name_of_capture? taken, equal, name_of_capture? taken']

variable {parameters : List Identifier} {body : LambdaBody} {number : Nat} {expected : Option Ty}
  {copies : Scope Nat}

/-- The slots with the copies of a lambda reflect the names outside of it, but for those that its
parameters take. -/
theorem inCopies (reflects : Reflects mentioned held setting standpoint scope names next index)
    (same : copies = captures setting.ownerType setting.receiver parameters scope body)
    (covers : ∀ name ∈ Mentions.inLambda [] body, mentioned name) :
    Reflects
      (fun name ↦ name ∈ Mentions.inLambda [] body ∧
        (name = Mentions.receiverName ∨ ∀ parameter ∈ parameters, parameter.name ≠ name))
      (capturing held (copies.map Variable.holder) standpoint.depth)
      (lambdaCode setting.site setting.routineName number (Scope.typing copies) parameters body
        expected).setting
      standpoint.inside (inSlots (Scope.typing copies) 0) (standpoint.outside names) copies.length
      0 := by
  have length : (copies.map Variable.holder).length = copies.length := List.length_map _
  -- the slot of a copy belongs to the variable that the name means outside
  have meant {present : Variable Nat} (inside : present ∈ inSlots (Scope.typing copies) 0) :
      ∃ bound, (standpoint.outside names).named? present.name = some bound ∧
        bound.holder = capturing held (copies.map Variable.holder) standpoint.depth
          present.holder := by
    obtain ⟨copy, found, name⟩ := exists_copy_of_mem_inSlots inside
    have copied := List.mem_of_getElem? found
    rw [same, mem_captures] at copied
    rw [Standpoint.named?_outside, capturing_copies found, name]
    by_cases isReceiver : copy.name = Mentions.receiverName
    · rw [if_pos isReceiver, reflects.receiver (receiver_of_capture? (isReceiver ▸ copied.2))]
      exact ⟨_, rfl, rfl⟩
    · rw [if_neg isReceiver]
      exact reflects.found (named?_of_capture? isReceiver copied.2)
  -- a mentioned name without a copy is not taken
  have untaken {name : String} (needed : name ∈ Mentions.inLambda [] body)
      (absent : ∀ copy ∈ copies, copy.name ≠ name) :
      capture? setting.ownerType setting.receiver parameters scope name = none := by
    rw [Option.eq_none_iff_forall_ne_some]
    intro copy taken
    have own := name_of_capture? taken
    refine absent copy ?_ own
    rw [same, mem_captures, own]
    exact ⟨needed, taken⟩
  have alone (needed : Mentions.receiverName ∈ Mentions.inLambda [] body)
      (absent : ∀ copy ∈ copies, copy.name ≠ Mentions.receiverName) :
      standpoint.receiver = none := by
    have none := untaken needed absent
    rw [capture?, if_pos rfl, Option.map_eq_none_iff] at none
    exact reflects.noReceiver (covers _ needed) none
  constructor
  case sees => exact reflects.sees
  case found =>
    intro name present found
    obtain ⟨inside, rfl⟩ := Scope.mem_of_named? found
    exact meant inside
  case absent =>
    rintro name ⟨needed, visible⟩ absent
    have absent : ∀ copy ∈ copies, copy.name ≠ name := fun _ ↦ name_ne_of_inSlots absent
    rw [Standpoint.named?_outside]
    by_cases isReceiver : name = Mentions.receiverName
    · subst isReceiver
      rw [if_pos rfl, alone needed absent, Option.map_none]
    · have none := untaken needed absent
      rw [capture?, if_neg isReceiver, if_neg] at none
      · rw [if_neg isReceiver]
        exact reflects.absent (covers _ needed) none
      · simpa only [List.any_eq_true, decide_eq_true_eq, not_exists, not_and] using
          visible.resolve_left isReceiver
  case receiver =>
    intro slot placed
    obtain ⟨copy, found, name⟩ := exists_copy_of_findIdx? placed
    have copied := List.mem_of_getElem? found
    rw [same, mem_captures, name] at copied
    rw [capturing_copies found]
    exact reflects.receiver (receiver_of_capture? copied.2)
  case noReceiver =>
    rintro ⟨needed, -⟩ none
    refine alone needed fun copy copied name ↦ ?_
    have typed : (copy.hold fun _ ↦ ()) ∈ Scope.typing copies := List.mem_map_of_mem copied
    have different := List.findIdx?_eq_none_iff.mp none _ typed
    exact absurd name (of_decide_eq_false different)
  case free =>
    intro more
    rw [capturing_of_own (by omega), length, Nat.add_sub_cancel_left, Nat.zero_add]
    rfl
  case below =>
    intro present inside
    have placed := (le_of_mem_inSlots inside).2
    rwa [Scope.typing, List.length_map, Nat.zero_add] at placed
  case apart =>
    rw [holders_inSlots]
    exact List.nodup_reverse.mpr List.nodup_range'
  case receiverBelow =>
    intro slot placed
    obtain ⟨copy, found, -⟩ := exists_copy_of_findIdx? placed
    exact (List.getElem?_eq_some_iff.mp found).1
  case receiverApart =>
    intro slot placed present inside holder
    obtain ⟨copy, found, name⟩ := exists_copy_of_findIdx? placed
    obtain ⟨copy', found', name'⟩ := exists_copy_of_mem_inSlots inside
    rw [holder, found] at found'
    obtain rfl := Option.some.inj found'
    exact name'.trans name

/-- Parameters become the variables that are bound next. -/
theorem bindAll {more : String → Prop} : (parameters : List Identifier) → (types : List Ty) →
    types.length = parameters.length → {mentioned : String → Prop} → {scope : Scope Nat} →
    {names : Scope Binder} → {next index : Nat} →
    Reflects mentioned held setting standpoint scope names next index →
    (∀ name, more name → mentioned name ∨
      name ≠ Mentions.receiverName ∧ ∃ parameter ∈ parameters, parameter.name = name) →
    Reflects more held setting standpoint (inSlots (declared parameters types) next ++ scope)
      (standpoint.bindAll index parameters names) (next + parameters.length)
      (index + parameters.length)
  | [], [], _, _, _, _, _, _, reflects, covers =>
      { reflects with
        absent := fun needed ↦ reflects.absent <| (covers _ needed).resolve_right
          fun ⟨_, _, inside, _⟩ ↦ absurd inside List.not_mem_nil
        noReceiver := fun needed ↦ reflects.noReceiver <| (covers _ needed).resolve_right
          fun ⟨other, _⟩ ↦ other rfl }
  | first :: rest, type :: types, length, mentioned, scope, names, next, index, reflects,
      covers => by
      have bound : Reflects
          (fun name ↦ mentioned name ∨ name = first.name ∧ name ≠ Mentions.receiverName) held
          setting standpoint (⟨first.name, type, next⟩ :: scope)
          (standpoint.bind index first names) (next + 1) (index + 1) :=
        reflects.bind fun _ given ↦ given
      have covers' (name : String) (needed : more name) :
          (mentioned name ∨ name = first.name ∧ name ≠ Mentions.receiverName) ∨
            name ≠ Mentions.receiverName ∧ ∃ parameter ∈ rest, parameter.name = name := by
        rcases covers name needed with known | ⟨other, parameter, inside, rfl⟩
        · exact .inl (.inl known)
        · rcases List.mem_cons.mp inside with rfl | inside
          · exact .inl (.inr ⟨rfl, other⟩)
          · exact .inr ⟨other, parameter, inside, rfl⟩
      have slots : inSlots (declared (first :: rest) (type :: types)) next ++ scope
          = inSlots (declared rest types) (next + 1) ++ ⟨first.name, type, next⟩ :: scope := by
        change inSlots (⟨first.name, type, ()⟩ :: declared rest types) next ++ scope = _
        rw [inSlots_cons, List.append_assoc]
        rfl
      rw [slots, List.length_cons, Nat.add_comm rest.length, ← Nat.add_assoc, ← Nat.add_assoc]
      exact bindAll rest types (Nat.succ.inj length) bound covers'

/-- The body of a lambda starts with names that mean variables of the text. -/
theorem inLambda (reflects : Reflects mentioned held setting standpoint scope names next index)
    (same : copies = captures setting.ownerType setting.receiver parameters scope body)
    (covers : ∀ name ∈ Mentions.inLambda [] body, mentioned name) :
    let code := lambdaCode setting.site setting.routineName number (Scope.typing copies) parameters
      body expected
    Reflects (· ∈ Mentions.inLambda [] body)
      (capturing held (copies.map Variable.holder) standpoint.depth) code.setting
      standpoint.inside code.scope
      (standpoint.inside.bindAll 0 parameters (standpoint.outside names)) code.arity
      parameters.length := by
  intro code
  have length := length_lambdaSignature parameters.length expected
  have first : Reflects
      (fun name ↦ name ∈ Mentions.inLambda [] body ∧
        (name = Mentions.receiverName ∨ ∀ parameter ∈ parameters, parameter.name ≠ name))
      (capturing held (copies.map Variable.holder) standpoint.depth) code.setting
      standpoint.inside (inSlots (Scope.typing copies) 0) (standpoint.outside names) copies.length
      0 := reflects.inCopies same covers
  -- a mentioned name is visible outside, or a parameter takes it
  have covers' (name : String) (needed : name ∈ Mentions.inLambda [] body) :
      (name ∈ Mentions.inLambda [] body ∧
        (name = Mentions.receiverName ∨ ∀ parameter ∈ parameters, parameter.name ≠ name)) ∨
      name ≠ Mentions.receiverName ∧ ∃ parameter ∈ parameters, parameter.name = name := by
    by_cases isReceiver : name = Mentions.receiverName
    · exact .inl ⟨needed, .inl isReceiver⟩
    · by_cases taken : ∃ parameter ∈ parameters, parameter.name = name
      · exact .inr ⟨isReceiver, taken⟩
      · exact .inl ⟨needed, .inr fun parameter inside own ↦ taken ⟨parameter, inside, own⟩⟩
  have scope : code.scope
      = inSlots (declared parameters (lambdaSignature parameters.length expected).1)
        copies.length ++ inSlots (Scope.typing copies) 0 := by
    rw [Lambda.scope, inSlots_append, Nat.zero_add]
    congr 1
    exact congrArg _ (List.length_map _)
  have all := bindAll parameters _ length first covers'
  rw [Nat.zero_add] at all
  rw [scope, arity_of_copies]
  exact all

end Reflects

end Meaning

end GuestScript
