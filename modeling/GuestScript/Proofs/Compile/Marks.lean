import GuestScript.Proofs.Compile.Growth
import Mathlib.Data.Multiset.AddSub

/-!
# Variables that code reads

Looking up a variable marks it as used, and the code made of it loads its slot. So the marks that an
action sets are told by the loads of its code, `marked`, as long as no two variables in scope have one
slot. Reading the receiver sets no mark, and a mark on a variable that is not of a `let` makes no
difference: `Body.locals` has all of those marked. The warnings about the variables in scope that have
not been marked yet are `due`: they will be given when the scopes end, unless code that is still to come
reads the variables.
-/

namespace GuestScript.Compile

open Bytecode (Op)
open Lowering

variable {code first second : List Op} {scopes : List (List Local)} {added : List Local}

/-! ## Code -/

/-- The instructions of code that load or store slots. -/
def slotOps (code : List Op) : List Op :=
  code.filter fun
    | .load _ | .store _ => true
    | _ => false

@[simp]
theorem slotOps_nil : slotOps [] = [] :=
  rfl

@[simp]
theorem slotOps_append (first second : List Op) :
    slotOps (first ++ second) = slotOps first ++ slotOps second :=
  List.filter_append first second

theorem load_mem_slotOps {slot : Nat} : .load slot ∈ slotOps code ↔ .load slot ∈ code := by
  simp [slotOps]

theorem store_mem_slotOps {slot : Nat} : .store slot ∈ slotOps code ↔ .store slot ∈ code := by
  simp [slotOps]

/-! ## Marks -/

/-- A variable as it is marked behind some code. -/
def Local.reading (code : List Op) (present : Local) : Local :=
  { present with used := present.used || decide (Op.load present.slot ∈ code) }

theorem Local.reading_append (present : Local) :
    (present.reading first).reading second = present.reading (first ++ second) := by
  have flags : ((present.used || decide (Op.load present.slot ∈ first))
        || decide (Op.load present.slot ∈ second))
      = (present.used || decide (Op.load present.slot ∈ first ++ second)) := by
    rw [Bool.eq_iff_iff]
    simp [or_assoc]
  exact congrArg (fun used ↦ { present with used }) flags

theorem Local.reading_of_apart {present : Local} (apart : Op.load present.slot ∉ code) :
    present.reading code = present := by
  simp [Local.reading, apart]

theorem Local.reading_nil (present : Local) : present.reading [] = present :=
  Local.reading_of_apart List.not_mem_nil

/-- A variable as far as warnings are concerned: one that is not of a `let` need not be read. -/
def Local.watched (present : Local) : Local :=
  { present with used := present.used || present.lint.isNone }

theorem Local.reading_watched (present : Local) :
    present.watched.reading code = (present.reading code).watched :=
  congrArg (fun used ↦ { present with used }) (Bool.or_right_comm _ _ _)

/-- Variables as they are marked behind some code. -/
def marked (code : List Op) (scopes : List (List Local)) : List (List Local) :=
  scopes.map (List.map (Local.reading code))

theorem marked_nil (scopes : List (List Local)) : marked [] scopes = scopes := by
  have same : Local.reading [] = id := funext Local.reading_nil
  rw [marked, same, List.map_id_fun]
  exact List.map_id scopes

theorem marked_marked : marked second (marked first scopes) = marked (first ++ second) scopes := by
  have same : Local.reading second ∘ Local.reading first = Local.reading (first ++ second) :=
    funext Local.reading_append
  rw [marked, marked, marked, List.map_map, ← same]
  congr 1
  exact funext fun scope ↦ List.map_map

theorem marked_flatten : (marked code scopes).flatten = scopes.flatten.map (Local.reading code) :=
  List.map_flatten.symm

/-- The slots of the variables in scope. -/
def slotsOf (scopes : List (List Local)) : List Nat :=
  scopes.flatten.map Local.slot

theorem slotsOf_marked : slotsOf (marked code scopes) = slotsOf scopes := by
  rw [slotsOf, marked_flatten, List.map_map]
  rfl

/-- Marking one variable leaves those with other slots as they are. -/
theorem map_reading_of_apart {scope : List Local} {slot : Nat} (apart : slot ∉ scope.map Local.slot) :
    scope.map (Local.reading [.load slot]) = scope := by
  have each : ∀ present ∈ scope, present.reading [.load slot] = id present := by
    refine fun present inside ↦ Local.reading_of_apart fun same ↦ apart ?_
    obtain rfl : present.slot = slot := Op.load.inj (List.mem_singleton.mp same)
    exact List.mem_map_of_mem inside
  rw [List.map_congr_left each, List.map_id]

theorem reading_self (present : Local) :
    present.reading [.load present.slot] = { present with used := true } := by
  simp [Local.reading]

/-- Looking into one scope finds a variable of it, and marks what reading it marks. -/
theorem markIn_eq {name : String} {scope : List Local} {found : Local}
    (distinct : (scope.map Local.slot).Nodup) (here : findIn name scope = some found) :
    found ∈ scope ∧ markIn name scope = scope.map (Local.reading [.load found.slot]) := by
  induction scope with
  | nil => exact absurd here nofun
  | cons present rest ih =>
      obtain ⟨apart, distinct⟩ := List.nodup_cons.mp distinct
      rw [findIn, List.find?_cons] at here
      by_cases named : present.name = name
      · simp only [named, decide_true, Option.some.injEq] at here
        subst here
        refine ⟨List.mem_cons_self, ?_⟩
        rw [markIn, if_pos named, List.map_cons, map_reading_of_apart apart, reading_self]
      · simp only [named, decide_false] at here
        obtain ⟨inside, marks⟩ := ih distinct here
        refine ⟨List.mem_cons_of_mem _ inside, ?_⟩
        rw [markIn, if_neg named, marks, List.map_cons, Local.reading_of_apart]
        intro same
        refine apart ?_
        rw [Op.load.inj (List.mem_singleton.mp same)]
        exact List.mem_map_of_mem inside

theorem marked_of_apart {slot : Nat} (apart : slot ∉ slotsOf scopes) :
    marked [.load slot] scopes = scopes := by
  have each : ∀ scope ∈ scopes, scope.map (Local.reading [.load slot]) = id scope := by
    refine fun scope inside ↦ map_reading_of_apart fun taken ↦ apart ?_
    obtain ⟨present, listed, same⟩ := List.mem_map.mp taken
    exact List.mem_map.mpr ⟨present, List.mem_flatten.mpr ⟨scope, inside, listed⟩, same⟩
  rw [marked, List.map_congr_left each, List.map_id]

/-- Reading variables that are marked already changes nothing. -/
theorem marked_of_used
    (read : ∀ present ∈ scopes.flatten, Op.load present.slot ∈ code → present.used = true) :
    marked code scopes = scopes := by
  have each : ∀ scope ∈ scopes, scope.map (Local.reading code) = id scope := by
    intro scope inside
    have same : ∀ present ∈ scope, present.reading code = id present := by
      intro present listed
      by_cases loaded : Op.load present.slot ∈ code
      · have used := read present (List.mem_flatten.mpr ⟨scope, inside, listed⟩) loaded
        exact congrArg (fun used ↦ { present with used })
          ((congrArg (· || _) used).trans used.symm)
      · exact Local.reading_of_apart loaded
    rw [List.map_congr_left same, List.map_id]
    rfl
  rw [marked, List.map_congr_left each, List.map_id]

/-- Looking for a variable finds one in scope, and marks what reading it marks. -/
theorem findAndMark_eq {name : String} {found : Local} {after : List (List Local)}
    (distinct : (slotsOf scopes).Nodup) (here : findAndMark name scopes = some (found, after)) :
    found ∈ scopes.flatten ∧ after = marked [.load found.slot] scopes := by
  induction scopes generalizing after with
  | nil => cases here
  | cons scope outer ih =>
      rw [slotsOf, List.flatten_cons, List.map_append] at distinct
      obtain ⟨own, others, apart⟩ := List.nodup_append.mp distinct
      rw [findAndMark] at here
      cases looked : findIn name scope with
      | some present =>
          simp only [looked, Option.some.injEq, Prod.mk.injEq] at here
          obtain ⟨rfl, rfl⟩ := here
          obtain ⟨inside, marks⟩ := markIn_eq own looked
          have outside : present.slot ∉ slotsOf outer := fun taken ↦
            apart _ (List.mem_map_of_mem inside) _ taken rfl
          refine ⟨List.mem_append_left _ inside, ?_⟩
          rw [marks]
          exact congrArg (_ :: ·) (marked_of_apart outside).symm
      | none =>
          simp only [looked] at here
          cases further : findAndMark name outer with
          | none =>
              rw [further] at here
              cases here
          | some result =>
              obtain ⟨present, rest⟩ := result
              simp only [further, Option.some.injEq, Prod.mk.injEq] at here
              obtain ⟨rfl, rfl⟩ := here
              obtain ⟨inside, marks⟩ := ih others further
              have outside : present.slot ∉ scope.map Local.slot := fun taken ↦
                apart _ taken _ (List.mem_map_of_mem inside) rfl
              refine ⟨List.mem_append_right _ inside, ?_⟩
              rw [marks]
              exact congrArg (· :: marked _ outer) (map_reading_of_apart outside).symm

/-! ## Scopes -/

/-- Scopes with more variables in the innermost one. -/
def widen (added : List Local) : List (List Local) → List (List Local)
  | [] => []
  | scope :: outer => (added ++ scope) :: outer

theorem widen_nil (scopes : List (List Local)) : widen [] scopes = scopes := by
  cases scopes <;> rfl

theorem widen_widen {more : List Local} :
    widen more (widen added scopes) = widen (more ++ added) scopes := by
  cases scopes with
  | nil => rfl
  | cons scope outer => exact congrArg (· :: outer) (List.append_assoc more added scope).symm

theorem marked_widen :
    marked code (widen added scopes)
      = widen (added.map (Local.reading code)) (marked code scopes) := by
  cases scopes with
  | nil => rfl
  | cons scope outer => exact congrArg (· :: marked code outer) List.map_append

theorem widen_flatten (some' : scopes ≠ []) :
    (widen added scopes).flatten = added ++ scopes.flatten := by
  obtain ⟨scope, outer, rfl⟩ := List.exists_cons_of_ne_nil some'
  exact List.append_assoc added scope outer.flatten

theorem widen_ne_nil (some' : scopes ≠ []) : widen added scopes ≠ [] := by
  obtain ⟨scope, outer, rfl⟩ := List.exists_cons_of_ne_nil some'
  exact List.cons_ne_nil _ _

theorem marked_ne_nil (some' : scopes ≠ []) : marked code scopes ≠ [] :=
  fun none ↦ some' (List.map_eq_nil_iff.mp none)

theorem slotsOf_widen (some' : scopes ≠ []) :
    slotsOf (widen added scopes) = added.map Local.slot ++ slotsOf scopes := by
  rw [slotsOf, widen_flatten some', List.map_append]
  rfl

/-- The variables in scope, as far as warnings are concerned. -/
def Body.locals (body : Body) : List (List Local) :=
  body.scopes.map (List.map Local.watched)

/-- What looking for a variable does to the variables in scope. -/
theorem locals_marked (scopes : List (List Local)) :
    (marked code scopes).map (List.map Local.watched)
      = marked code (scopes.map (List.map Local.watched)) := by
  have same : Local.watched ∘ Local.reading code = Local.reading code ∘ Local.watched :=
    funext fun present ↦ present.reading_watched.symm
  rw [marked, marked, List.map_map, List.map_map]
  congr 1
  refine funext fun scope ↦ ?_
  exact List.map_map.trans ((congrArg (List.map · scope) same).trans List.map_map.symm)

theorem locals_widen (scopes : List (List Local)) :
    (widen added scopes).map (List.map Local.watched)
      = widen (added.map Local.watched) (scopes.map (List.map Local.watched)) := by
  cases scopes with
  | nil => rfl
  | cons scope outer => exact congrArg (· :: _) List.map_append

theorem slotsOf_locals (body : Body) : slotsOf body.locals = slotsOf body.scopes := by
  rw [slotsOf, Body.locals, ← List.map_flatten, List.map_map]
  rfl

/-! ## Warnings -/

/-- The warnings about variables that have not been marked. -/
def dueFor (locals : List Local) : Multiset (Diagnostic Span) :=
  (locals.filterMap unusedWarning? : List (Diagnostic Span))

/-- The warnings that are due if nothing else is read in these scopes. -/
def due (scopes : List (List Local)) : Multiset (Diagnostic Span) :=
  dueFor scopes.flatten

theorem dueFor_append (first second : List Local) :
    dueFor (first ++ second) = dueFor first + dueFor second := by
  rw [dueFor, List.filterMap_append]
  exact (Multiset.coe_add _ _).symm

theorem due_widen (some' : scopes ≠ []) : due (widen added scopes) = dueFor added + due scopes := by
  rw [due, widen_flatten some', dueFor_append]
  rfl

theorem due_cons (scope : List Local) (outer : List (List Local)) :
    due (scope :: outer) = dueFor scope + due outer :=
  dueFor_append scope outer.flatten

/-- Nothing is due about variables that are marked. -/
theorem dueFor_eq_zero {locals : List Local} (read : ∀ present ∈ locals, present.used = true) :
    dueFor locals = 0 := by
  have none : locals.filterMap unusedWarning? = [] := by
    refine List.filterMap_eq_nil_iff.mpr fun present inside ↦ ?_
    rw [unusedWarning?, read present inside]
    cases present.lint <;> rfl
  rw [dueFor, none]
  rfl

theorem code_of_unusedWarning? {present : Local} {finding : Diagnostic Span}
    (given : unusedWarning? present = some finding) : finding.code = .unusedLocal := by
  unfold unusedWarning? at given
  split at given
  · exact absurd given nofun
  · split at given
    · exact absurd given nofun
    · exact Option.some.inj given ▸ rfl

/-- The warning about a variable does not depend on a mark that makes no difference. -/
theorem unusedWarning_watched (present : Local) :
    unusedWarning? present.watched = unusedWarning? present := by
  obtain ⟨name, slot, type, used, lint⟩ := present
  cases lint with
  | none => rfl
  | some span =>
      have same : (used || false) = used := Bool.or_false used
      exact congrArg (fun used ↦ unusedWarning? ⟨name, slot, type, used, some span⟩) same

theorem dueFor_watched (locals : List Local) : dueFor (locals.map Local.watched) = dueFor locals := by
  have same : unusedWarning? ∘ Local.watched = unusedWarning? := funext unusedWarning_watched
  rw [dueFor, List.filterMap_map, same]
  rfl

end GuestScript.Compile
