import GuestScript.Proofs.Compile.Balance
import GuestScript.Proofs.Compile.Wiring
import GuestScript.Proofs.Machine.WellFormed
import GuestScript.Proofs.Session.EntryRuns

/-!
# The slots of loops

A loop keeps its cursor in a slot that belongs to no variable. Every body takes slots one after the
other and never gives one back, so the slots of its loops are apart from those of its variables:
code that is `Apart` from some slots uses them for nothing but the cursors of loops. Therefore no
cursor ever gets among the values of a program, and all of these stay well formed.
-/

namespace GuestScript

open Compile
open Machine (IsTidy Program)
open Meaning
open Syntax

/-- The slots of the loops of a routine are behind its arguments, are never loaded, and are only
stored to right behind the start of a loop. -/
structure Bytecode.Routine.SealsLoops (routine : Bytecode.Routine) : Prop where
  arity : ∀ {slot : Nat}, routine.IsLoopSlot slot → routine.arity ≤ slot
  loads : ∀ {slot : Nat}, routine.IsLoopSlot slot → .load slot ∉ routine.code
  stores : ∀ {slot position : Nat}, routine.IsLoopSlot slot →
    routine.code[position]? = some (.store slot) →
    ∃ before, position = before + 1 ∧ routine.code[before]? = some .iterStart

namespace Meaning

open Bytecode (Op Routine RoutineIndex)

variable {program : Program} {hidden : Nat → Prop}

/-! ## Code apart from slots -/

/-- An instruction does nothing with hidden slots, and is no part of a loop. If it makes a closure,
then with as many values as the routine of the closure captures. -/
def IsApart (program : Program) (hidden : Nat → Prop) : Op → Prop
  | .load slot | .store slot => ¬ hidden slot
  | .makeClosure index count => ∃ target, program.image.routines[index]? = some target ∧
      target.binding = .closure count
  | .iterStart | .iterNext .. => False
  | _ => True

/-- Hidden slots are only used for the cursors of loops. -/
inductive Apart (program : Program) (hidden : Nat → Prop) : List Op → Prop where
  | nil : Apart program hidden []
  | op {op : Op} {code : List Op} : IsApart program hidden op → Apart program hidden code →
      Apart program hidden (op :: code)
  | loop {slot exit : Nat} {code : List Op} : hidden slot → Apart program hidden code →
      Apart program hidden (.iterStart :: .store slot :: .iterNext slot exit :: code)

namespace Apart

variable {code first second : List Op} {slot position : Nat}

theorem append (before : Apart program hidden first) (behind : Apart program hidden second) :
    Apart program hidden (first ++ second) := by
  induction before with
  | nil => exact behind
  | op apart _ ih => exact .op apart ih
  | loop slot _ ih => exact .loop slot ih

theorem single {op : Op} (apart : IsApart program hidden op := by exact trivial) :
    Apart program hidden [op] :=
  .op apart .nil

theorem load (free : ¬ hidden slot) : Apart program hidden [.load slot] :=
  .single free

/-- An instruction comes behind code. -/
theorem emit (before : Apart program hidden code) {op : Op}
    (apart : IsApart program hidden op := by exact trivial) : Apart program hidden (code ++ [op]) :=
  before.append (.single apart)

theorem loads {slots : List Nat} (each : ∀ slot ∈ slots, ¬ hidden slot) :
    Apart program hidden (slots.map .load) := by
  induction slots with
  | nil => exact .nil
  | cons slot rest ih =>
      obtain ⟨here, later⟩ := List.forall_mem_cons.mp each
      exact .op here (ih later)

/-- Hidden slots are never read. -/
theorem not_hidden_of_load (apart : Apart program hidden code) (inside : .load slot ∈ code) :
    ¬ hidden slot := by
  induction apart with
  | nil => cases inside
  | op apart _ ih =>
      rcases List.mem_cons.mp inside with rfl | inside
      · exact apart
      · exact ih inside
  | loop _ _ ih =>
      simp only [List.mem_cons, reduceCtorEq, false_or] at inside
      exact ih inside

theorem hidden_of_iterNext (apart : Apart program hidden code) {exit : Nat}
    (inside : .iterNext slot exit ∈ code) : hidden slot := by
  induction apart with
  | nil => cases inside
  | op apart _ ih =>
      rcases List.mem_cons.mp inside with rfl | inside
      · exact absurd apart id
      · exact ih inside
  | loop taken _ ih =>
      simp only [List.mem_cons, reduceCtorEq, false_or, Op.iterNext.injEq] at inside
      rcases inside with ⟨rfl, -⟩ | inside
      · exact taken
      · exact ih inside

theorem binding_of_makeClosure (apart : Apart program hidden code) {index : RoutineIndex}
    {count : Nat} (inside : .makeClosure index count ∈ code) :
    ∃ target, program.image.routines[index]? = some target ∧
      target.binding = .closure count := by
  induction apart with
  | nil => cases inside
  | op apart _ ih =>
      rcases List.mem_cons.mp inside with rfl | inside
      · exact apart
      · exact ih inside
  | loop _ _ ih =>
      simp only [List.mem_cons, reduceCtorEq, false_or] at inside
      exact ih inside

/-- A cursor goes straight to the slot of its loop. -/
theorem exists_store_of_iterStart (apart : Apart program hidden code)
    (found : code[position]? = some .iterStart) :
    ∃ slot exit, code[position + 1]? = some (.store slot) ∧ .iterNext slot exit ∈ code := by
  induction apart generalizing position with
  | nil => cases found
  | op apart _ ih =>
      cases position with
      | zero =>
          cases found
          exact absurd apart id
      | succ position =>
          obtain ⟨slot, exit, store, next⟩ := ih found
          exact ⟨slot, exit, store, List.mem_cons_of_mem _ next⟩
  | @loop slot exit code _ _ ih =>
      match position with
      | 0 => exact ⟨slot, exit, rfl, List.mem_cons_of_mem _ (List.mem_cons_of_mem _
          List.mem_cons_self)⟩
      | 1 | 2 => cases found
      | position + 3 =>
          obtain ⟨slot, exit, store, next⟩ := ih found
          exact ⟨slot, exit, store, List.mem_cons_of_mem _ (List.mem_cons_of_mem _
            (List.mem_cons_of_mem _ next))⟩

/-- Nothing but the start of a loop writes to a hidden slot. -/
theorem iterStart_of_store (apart : Apart program hidden code) (taken : hidden slot)
    (found : code[position]? = some (.store slot)) :
    ∃ before, position = before + 1 ∧ code[before]? = some .iterStart := by
  induction apart generalizing position with
  | nil => cases found
  | op apart _ ih =>
      cases position with
      | zero =>
          cases found
          exact absurd taken apart
      | succ position =>
          obtain ⟨before, rfl, start⟩ := ih found
          exact ⟨before + 1, rfl, start⟩
  | loop _ _ ih =>
      match position with
      | 0 | 2 => cases found
      | 1 => exact ⟨0, rfl, rfl⟩
      | position + 3 =>
          obtain ⟨before, rfl, start⟩ := ih found
          exact ⟨before + 3, rfl, start⟩

end Apart

/-! ## Expressions -/

/-- Neither the receiver nor a variable in scope is in a hidden slot. -/
structure Shields (hidden : Nat → Prop) (setting : Setting) (scope : Scope Nat) : Prop where
  receiver : ∀ slot ∈ setting.receiver, ¬ hidden slot
  holders : ∀ held ∈ scope, ¬ hidden held.holder

section Walk

variable {setting : Setting} {scope : Scope Nat}

/-- What a lambda copies is in no hidden slot. -/
theorem Shields.captures (shields : Shields hidden setting scope) {parameters : List Identifier}
    {body : LambdaBody} :
    ∀ copy ∈ captures setting.ownerType setting.receiver parameters scope body,
      ¬ hidden copy.holder := by
  intro copy inside
  obtain ⟨name, -, found⟩ := List.mem_filterMap.mp inside
  rw [capture?] at found
  split at found
  · obtain ⟨slot, receiver, rfl⟩ := Option.map_eq_some_iff.mp found
    exact shields.receiver slot receiver
  · split at found
    · cases found
    · exact shields.holders copy (Scope.mem_of_named? found).1

theorem Shields.named (shields : Shields hidden setting scope) {name : String}
    {held : Variable Nat} (found : scope.named? name = some held) : ¬ hidden held.holder :=
  shields.holders held (Scope.mem_of_named? found).1

mutual

/-- The code of an expression is apart from hidden slots. -/
theorem apart_expression (shields : Shields hidden setting scope) :
    (value : Expression) → {number start : Nat} → {expected : Option Ty} → {emitted : List Op} →
    ExpressionCode program setting scope number value expected start emitted →
    Apart program hidden emitted
  | .int .., _, _, _, _, .int => .single
  | .str .., _, _, _, _, .str => .single
  | .bool .., _, _, _, _, .bool => .single
  | .array values _, _, _, _, _, .array items => (apart_items shields values items).emit
  | .receiver _, _, _, _, _, .receiver found => .load (shields.receiver _ found)
  | .path _ _, _, _, _, _, .path found => .load (shields.named found)
  | .call callee values _, _, _, _, _, translated => by
      have first := @apart_expression shields callee
      have given := @apart_arguments shields values
      cases translated with
      | callVariable found _ others =>
          have held := shields.holders _ (mem_of_callable found)
          exact ((Apart.load held).append (given others)).emit
      | callStatic _ _ _ others => exact (given others).emit
      | callOwn _ _ _ receiver _ others =>
          exact ((Apart.load (shields.receiver _ receiver)).append (given others)).emit
      | callHost _ _ _ others => exact (given others).emit
      | callValue _ translated _ others =>
          exact ((first translated).append (given others)).emit
  | .method target _ values _, _, _, _, _, translated => by
      have first := @apart_expression shields target
      have given := @apart_arguments shields values
      cases translated with
      | method translated _ _ _ others =>
          exact ((first translated).append (given others)).emit
  | .field target _ _, _, _, _, _, .field translated _ =>
      (apart_expression shields target translated).emit
  | .element target index _, _, _, _, _, .element translated _ translated' _ =>
      ((apart_expression shields target translated).append
        (apart_expression shields index translated')).emit
  | .construct _ _, _, _, _, _, .construct _ => .single
  | .lambda parameters body _, _, _, _, _, translated => by
      cases translated with
      | lambda copied compiled =>
          have loads := @Apart.loads program _ _
            (List.forall_mem_map.mpr (copied ▸ shields.captures))
          rw [List.map_map] at loads
          refine loads.emit ?_
          cases compiled with
          | mk routine _ => exact ⟨_, routine, congrArg _ (List.length_map _)⟩
  | .unary _ operand _, _, _, _, _, .unary translated _ =>
      (apart_expression shields operand translated).emit
  | .binary _ left right _, _, _, _, _, translated => by
      have first := @apart_expression shields left
      have second := @apart_expression shields right
      cases translated with
      | and translated _ translated' _ =>
          exact (((first translated).emit).append (second translated')).append
            (.op (by exact trivial) .single)
      | or translated _ translated' _ =>
          exact ((first translated).append (.op (by exact trivial)
            (.op (by exact trivial) .single))).append (second translated')
      | binary _ _ translated translated' _ =>
          exact ((first translated).append (second translated')).emit
termination_by structural value => value

theorem apart_items (shields : Shields hidden setting scope) :
    (values : List Expression) → {number start : Nat} → {wanted : Option Ty} →
    {emitted : List Op} → ItemsCode program setting scope number values wanted start emitted →
    Apart program hidden emitted
  | [], _, _, _, _, .nil => .nil
  | item :: rest, _, _, _, _, translated => by
      cases translated with
      | first one others =>
          exact (apart_expression shields item one).append (apart_items shields rest others)
      | cons one _ others =>
          exact (apart_expression shields item one).append (apart_items shields rest others)
termination_by structural values => values

theorem apart_arguments (shields : Shields hidden setting scope) :
    (values : List Expression) → {number start : Nat} → {parameters : List Ty} →
    {binding : Option Ty} → {emitted : List Op} →
    ArgumentsCode program setting scope number values parameters binding start emitted →
    Apart program hidden emitted
  | [], _, _, _, _, _, .nil => .nil
  | argument :: rest, _, _, _, _, _, translated => by
      cases translated with
      | beyond one others =>
          exact (apart_expression shields argument one).append
            (apart_arguments shields rest others)
      | cons one _ others =>
          exact (apart_expression shields argument one).append
            (apart_arguments shields rest others)
termination_by structural values => values

end

end Walk

/-! ## Statements -/

/-- Code takes slots from the next free one on, some of them for loops. It uses these for nothing
else, and the variables that it adds are in others. -/
def Conceals (program : Program) (setting : Setting) (scope : Scope Nat) (next : Nat)
    (code : List Op) (inner : Scope Nat) (after : Nat) : Prop :=
  ∃ loops : Nat → Prop, (∀ slot, loops slot → next ≤ slot ∧ slot < after) ∧
    ∀ hidden : Nat → Prop, (∀ slot, next ≤ slot → slot < after → (hidden slot ↔ loops slot)) →
      Shields hidden setting scope → Apart program hidden code ∧ Shields hidden setting inner

namespace Conceals

variable {setting : Setting} {scope middle inner : Scope Nat} {next between after : Nat}
  {code first second : List Op}

/-- Code without loops and variables of its own. -/
theorem plain (apart : ∀ hidden, Shields hidden setting scope → Apart program hidden code) :
    Conceals program setting scope next code scope next :=
  ⟨fun _ ↦ False, nofun, fun hidden _ shields ↦ ⟨apart hidden shields, shields⟩⟩

/-- Code that follows other code takes slots behind it. -/
theorem append (before : Conceals program setting scope next first middle between)
    (behind : Conceals program setting middle between second inner after)
    (earlier : next ≤ between) (later : between ≤ after) :
    Conceals program setting scope next (first ++ second) inner after := by
  obtain ⟨loops, range, each⟩ := before
  obtain ⟨loops', range', each'⟩ := behind
  refine ⟨fun slot ↦ loops slot ∨ loops' slot, ?_, fun hidden same shields ↦ ?_⟩
  · rintro slot (taken | taken)
    · exact (range slot taken).imp_right (Nat.lt_of_lt_of_le · later)
    · exact (range' slot taken).imp_left (Nat.le_trans earlier)
  · -- the slots of the loops of one part are not among those that the other part takes
    have one (slot : Nat) (low : next ≤ slot) (high : slot < between) :
        hidden slot ↔ loops slot := by
      rw [same slot low (Nat.lt_of_lt_of_le high later)]
      exact or_iff_left fun taken ↦ Nat.not_lt.mpr (range' slot taken).1 high
    have other (slot : Nat) (low : between ≤ slot) (high : slot < after) :
        hidden slot ↔ loops' slot := by
      rw [same slot (Nat.le_trans earlier low) high]
      exact or_iff_right fun taken ↦ Nat.not_lt.mpr low (range slot taken).2
    obtain ⟨apart, shields⟩ := each hidden one shields
    obtain ⟨apart', shields⟩ := each' hidden other shields
    exact ⟨apart.append apart', shields⟩

/-- A block that is run under a condition. -/
theorem guarded (tested : ∀ hidden, Shields hidden setting scope → Apart program hidden first)
    (inside : Conceals program setting scope next code inner after) (taken : next ≤ after)
    {target : Nat} :
    Conceals program setting scope next (first ++ [.jumpUnless target] ++ code) inner after :=
  (plain fun hidden shields ↦ (tested hidden shields).emit).append inside (Nat.le_refl _) taken

/-- Control goes on elsewhere behind code. -/
theorem jump (inside : Conceals program setting scope next code inner after) (taken : next ≤ after)
    {target : Nat} : Conceals program setting scope next (code ++ [.jump target]) inner after :=
  inside.append (plain fun _ _ ↦ .single) taken (Nat.le_refl _)

/-- The variables of a block are forgotten behind it. -/
theorem forget (inside : Conceals program setting scope next code inner after) :
    Conceals program setting scope next code scope after := by
  obtain ⟨loops, range, each⟩ := inside
  exact ⟨loops, range, fun hidden same shields ↦ ⟨(each hidden same shields).1, shields⟩⟩

/-- A variable takes a slot that is not for a loop. -/
theorem declare (apart : ∀ hidden, Shields hidden setting scope → Apart program hidden code)
    (name : String) (type : Ty) :
    Conceals program setting scope next (code ++ [.store next]) (⟨name, type, next⟩ :: scope)
      (next + 1) := by
  refine ⟨fun _ ↦ False, nofun, fun hidden same shields ↦ ?_⟩
  have free : ¬ hidden next := (same next (Nat.le_refl _) (Nat.lt_succ_self _)).mp
  exact ⟨(apart hidden shields).emit free, shields.receiver,
    List.forall_mem_cons.mpr ⟨free, shields.holders⟩⟩

/-- A loop takes a slot for its cursor and one for its variable. -/
theorem forEach (apart : ∀ hidden, Shields hidden setting scope → Apart program hidden code)
    {name : String} {type : Ty} {inside : List Op} {exit head : Nat} (taken : next + 2 ≤ after)
    (body : Conceals program setting (⟨name, type, next + 1⟩ :: scope) (next + 2) inside inner
      after) :
    Conceals program setting scope next
      (code ++ [.iterStart, .store next, .iterNext next exit, .store (next + 1)] ++ inside
        ++ [.jump head]) scope after := by
  obtain ⟨loops, range, each⟩ := body
  refine ⟨fun slot ↦ slot = next ∨ loops slot, ?_, fun hidden same shields ↦ ?_⟩
  · rintro slot (rfl | held)
    · exact ⟨Nat.le_refl _, Nat.lt_of_succ_lt taken⟩
    · exact (range slot held).imp_left Nat.le_of_add_right_le
  · have cursor : hidden next :=
      (same next (Nat.le_refl _) (Nat.lt_of_succ_lt taken)).mpr (.inl rfl)
    have element : ¬ hidden (next + 1) := by
      rw [same (next + 1) (Nat.le_succ _) taken]
      rintro (itself | held)
      · exact Nat.succ_ne_self next itself
      · exact Nat.not_succ_le_self _ (range _ held).1
    have later (slot : Nat) (low : next + 2 ≤ slot) (high : slot < after) :
        hidden slot ↔ loops slot := by
      rw [same slot (Nat.le_of_add_right_le low) high]
      exact or_iff_right (Nat.ne_of_gt (Nat.lt_of_succ_le (Nat.le_of_succ_le low)))
    have inner := each hidden later
      ⟨shields.receiver, List.forall_mem_cons.mpr ⟨element, shields.holders⟩⟩
    have started : Apart program hidden
        [.iterStart, .store next, .iterNext next exit, .store (next + 1)] :=
      .loop cursor (.single element)
    exact ⟨(((apart hidden shields).append started).append inner.1).emit, shields⟩

end Conceals

section Walk

variable {setting : Setting}

mutual

/-- The code of a block uses the slots of its loops for nothing else. -/
theorem conceals_block : (body : Block) → {scope : Scope Nat} → {next number start after : Nat} →
    {emitted : List Op} →
    BlockCode program setting scope next number body start emitted after →
    Conceals program setting scope next emitted scope after
  | .mk body _, _, _, _, _, _, _, .mk inside => (conceals_statements body inside).forget
termination_by structural body => body

theorem conceals_statements : (body : List Statement) → {scope inner : Scope Nat} →
    {next number start after : Nat} → {emitted : List Op} →
    StatementsCode program setting scope next number body start emitted inner after →
    Conceals program setting scope next emitted inner after
  | [], _, _, _, _, _, _, _, .nil => .plain fun _ _ ↦ .nil
  | first :: rest, _, _, _, _, _, _, _, .cons one others =>
      (conceals_statement first one).append (conceals_statements rest others)
        (extends_of_statementCode first one).later (extends_of_statementsCode rest others).later
termination_by structural body => body

theorem conceals_statement : (one : Statement) → {scope inner : Scope Nat} →
    {next number start after : Nat} → {emitted : List Op} →
    StatementCode program setting scope next number one start emitted inner after →
    Conceals program setting scope next emitted inner after
  | .declare _ _ value _, _, _, _, _, _, _, _, .declare translated _ =>
      .declare (fun _ shields ↦ apart_expression shields value translated) _ _
  | .assign (.binding _) value _, _, _, _, _, _, _, _, .assign found translated _ =>
      .plain fun _ shields ↦
        (apart_expression shields value translated).emit (shields.named found)
  | .assign (.field _) value _, _, _, _, _, _, _, _, translated => by
      cases translated with
      | assignField receiver _ translated _ =>
          exact .plain fun _ shields ↦ ((Apart.load (shields.receiver _ receiver)).append
            (apart_expression shields value translated)).emit
  | .forEach _ iterable body _, _, _, _, _, _, _, _, translated => by
      cases translated with
      | forEach translated _ inside =>
          exact .forEach (fun _ shields ↦ apart_expression shields iterable translated)
            (le_of_blockCode body inside) (conceals_block body inside)
  | .whileLoop test body _, _, _, _, _, _, _, _, translated => by
      cases translated with
      | whileLoop translated _ inside =>
          have later := le_of_blockCode body inside
          exact (Conceals.guarded (fun _ shields ↦ apart_expression shields test translated)
            (conceals_block body inside) later).jump later
  | .conditional test body other _, _, _, _, _, _, _, _, translated => by
      cases translated with
      | ifTrue translated _ inside =>
          exact .guarded (fun _ shields ↦ apart_expression shields test translated)
            (conceals_block body inside) (le_of_blockCode body inside)
      | ifElse _ translated _ inside instead =>
          have later := le_of_blockCode body inside
          exact ((Conceals.guarded (fun _ shields ↦ apart_expression shields test translated)
            (conceals_block body inside) later).jump later).append
            (conceals_alternative other instead) later (le_of_alternativeCode other instead)
  | .returns none _, _, _, _, _, _, _, _, .returnNothing _ =>
      .plain fun _ _ ↦ .op (by exact trivial) .single
  | .returns (some value) _, _, _, _, _, _, _, _, .returnValue translated _ =>
      .plain fun _ shields ↦ (apart_expression shields value translated).emit
  | .evaluate value, _, _, _, _, _, _, _, .evaluate translated =>
      .plain fun _ shields ↦ (apart_expression shields value translated).emit
termination_by structural one => one

theorem conceals_alternative : (other : Alternative) → {scope : Scope Nat} →
    {next number start after : Nat} → {emitted : List Op} →
    AlternativeCode program setting scope next number other start emitted after →
    Conceals program setting scope next emitted scope after
  | .absent, _, _, _, _, _, _, translated => by cases translated
  | .block body, _, _, _, _, _, _, .block inside => conceals_block body inside
  | .chain conditional, _, _, _, _, _, _, .chain inside => conceals_statement conditional inside
termination_by structural other => other

end

end Walk

/-! ## Routines -/

section Routines

variable {references : ReferenceSet} {types : List TypeInfo} {setting : Setting}
  {scope inner : Scope Nat} {next : Nat} {body : List Op}

/-- The variables that a body starts with are in the slots before those that it takes. -/
theorem Enclosed.shields (enclosed : Enclosed references types next [] setting scope next)
    (behind : ∀ slot, hidden slot → next ≤ slot) : Shields hidden setting scope where
  receiver slot receiver taken := Nat.not_lt.mpr (behind slot taken) (enclosed.receiver slot receiver)
  holders held inside taken :=
    Nat.not_lt.mpr (behind held.holder taken) (enclosed.holders held inside).1

/-- What stands behind a body has nothing to do with slots. -/
theorem Conceals.seals {routine : Routine}
    (conceals : Conceals program setting scope routine.arity body inner next)
    (enclosed : Enclosed references types routine.arity [] setting scope routine.arity)
    (same : routine.code = (body ++ epilogue).toArray) :
    IsTidy program routine ∧ routine.SealsLoops := by
  obtain ⟨loops, range, each⟩ := conceals
  have shields := enclosed.shields fun slot taken ↦ (range slot taken).1
  have apart : Apart program loops routine.code.toList := by
    rw [same]
    exact (each loops (fun _ _ _ ↦ Iff.rfl) shields).1.append (.op trivial .single)
  have hidden {slot : Nat} (loop : routine.IsLoopSlot slot) : loops slot := by
    obtain ⟨exit, inside⟩ := loop
    exact apart.hidden_of_iterNext inside.val
  refine ⟨⟨fun inside loop ↦ ?_, fun found ↦ ?_, fun inside ↦ ?_⟩,
    ⟨fun loop ↦ (range _ (hidden loop)).1, fun loop inside ↦ ?_, fun loop found ↦ ?_⟩⟩
  · exact apart.not_hidden_of_load inside.val (hidden loop)
  · rw [← Array.getElem?_toList] at found
    obtain ⟨slot, exit, store, next⟩ := apart.exists_store_of_iterStart found
    rw [Array.getElem?_toList] at store
    exact ⟨slot, store, exit, ⟨next⟩⟩
  · exact apart.binding_of_makeClosure inside.val
  · exact apart.not_hidden_of_load inside.val (hidden loop)
  · rw [← Array.getElem?_toList] at found
    obtain ⟨before, rfl, start⟩ := apart.iterStart_of_store (hidden loop) found
    exact ⟨before, rfl, by rwa [Array.getElem?_toList] at start⟩

theorem conceals_body {number : Nat} {body : LambdaBody} {emitted : List Op} {after : Nat}
    (inside : BodyCode program setting scope next number body emitted after) :
    Conceals program setting scope next emitted scope after := by
  cases inside with
  | expression value _ => exact .plain fun _ shields ↦ (apart_expression shields _ value).emit
  | block inside => exact conceals_block _ inside

theorem apart_defaultValue (type : Ty) : Apart program hidden [defaultValue type] := by
  cases type <;> exact .single

theorem apart_fields (shields : Shields hidden setting []) (free : ¬ hidden 0) :
    (fields : List FieldInfo) → {number position start : Nat} → {emitted : List Op} →
    FieldsCode program setting number fields position start emitted → Apart program hidden emitted
  | [], _, _, _, _, .nil => .nil
  | field :: rest, _, _, _, _, translated => by
      cases translated with
      | given _ value _ others =>
          exact (((Apart.load free).append (apart_expression shields _ value)).emit).append
            (apart_fields shields free rest others)
      | default _ others =>
          exact ((Apart.load free).append ((apart_defaultValue field.type).emit)).append
            (apart_fields shields free rest others)

/-- Every routine that is compiled from a file uses the slots of its loops for nothing else. -/
theorem seals_of_routineCode {index : RoutineIndex}
    (translated : RoutineCode program references types index) :
    ∃ routine, program.image.routines[index]? = some routine ∧ IsTidy program routine ∧
      routine.SealsLoops := by
  cases translated with
  | method _ _ same translated =>
      obtain ⟨here, named, -, inside⟩ := translated
      exact ⟨_, same ▸ here, (conceals_block _ inside).seals
        (enclosed_method named (Nat.le_refl _)) rfl⟩
  | @initializer owner info _ _ translated =>
      obtain ⟨here, inside⟩ := translated
      have alone : ∀ slot ∈ some 0, slot < 1 := fun _ taken ↦ Option.some.inj taken ▸ Nat.one_pos
      have enclosed : Enclosed references types 1 []
          { settingOf references types owner info with receiver := some 0 } (inSlots [] 0) 1 :=
        enclosed_inSlots rfl rfl alone (Nat.zero_le 1) (Nat.le_refl 1)
      have conceals : Conceals program _ [] 1 _ [] 1 := .plain fun hidden shields ↦
        apart_fields shields (shields.receiver 0 rfl) _ inside
      exact ⟨_, here, conceals.seals enclosed rfl⟩
  | lambda translated =>
      obtain ⟨text, ⟨here, inside⟩, references', types', -⟩ := translated
      exact ⟨_, here, (conceals_body inside).seals
        (enclosed_lambda references' types' (Nat.le_refl _)) rfl⟩

end Routines

end Meaning

namespace Compile

open Bytecode (ImportIndex RoutineIndex TypeIndex)
open Machine
open Session (EntryRun Visits findEntry runEntry)

variable {program : Program} {references : ReferenceSet} {file : File} {entry : EntryPoint}
  {table : ModuleTable} {source : SourceUnit} {arguments : List String} {console : Console}

/-- The arguments that an entry is started with are well formed. -/
theorem wellFormed_arguments {world : World} :
    (Value.array (arguments.map .str)).IsWellFormed program world := by
  refine .array fun item inside ↦ ?_
  obtain ⟨text, -, rfl⟩ := List.mem_map.mp inside
  exact .str

/-- An entry is started with well-formed values. -/
theorem isWellFormed_of_entryRun {binding : EntryBinding} {type : TypeIndex} {routine : RoutineIndex}
    {start : State} (tidy : ∀ routine ∈ program.image.routines, IsTidy program routine)
    (run : EntryRun program type routine arguments console binding start) :
    start.IsWellFormed program := by
  have fresh : WorldOver.IsWellFormed program (.fresh console) := nofun
  cases run with
  | static => exact ⟨List.forall_mem_singleton.mpr wellFormed_arguments, trivial, fresh⟩
  | construct => exact ⟨trivial, trivial, fresh⟩
  | method constructed =>
      obtain ⟨object, world⟩ := constructed.isWellFormed tidy ⟨trivial, trivial, fresh⟩
      exact ⟨List.forall_mem_cons.mpr ⟨object, List.forall_mem_singleton.mpr wellFormed_arguments⟩,
        trivial, world⟩

/-- A running frame that calls a host function has well-formed operands. -/
theorem operands_of_callHost {state : State} {frame : Machine.Frame} {imported : ImportIndex}
    {count : Nat} {given : List Value} {rest : OperandStack}
    (wellFormed : state.IsWellFormed program) (running : state.control = .run frame)
    (here : frame.routine.code[frame.position]? = some (.callHost imported count))
    (taken : frame.stack.popMany count = (.ok given, rest)) :
    ∀ value ∈ given, value.IsWellFormed program state.world := by
  have control := wellFormed.control
  rw [running] at control
  have operands : ∀ value ∈ frame.stack.items, value.IsWellFormed program state.world := by
    cases control with
    | plain holds => exact holds.operands
    | loop _ _ stores =>
        -- a cursor on top goes into its slot next
        obtain ⟨slot, found, -⟩ := stores
        cases found.symm.trans here
  obtain ⟨routine, position, locals, ⟨items⟩⟩ := frame
  by_cases enough : count ≤ items.length
  · obtain ⟨values, below, rfl, rfl⟩ := exists_operands enough
    simp only [OperandStack.popMany_append, Prod.mk.injEq, Except.ok.injEq] at taken
    obtain ⟨rfl, -⟩ := taken
    exact fun value inside ↦
      operands value (List.mem_append_left _ (List.mem_reverse.mpr inside))
  · have few : OperandStack.size ⟨items⟩ < count := Nat.lt_of_not_le enough
    rw [OperandStack.popMany_of_lt few] at taken
    cases taken

/-- Running an entry of a program only ever makes well-formed values, whatever the arguments are. -/
structure KeepsValues (program : Program) (entry : EntryPoint) : Prop where
  loops : ∀ routine ∈ program.image.routines, routine.SealsLoops
  found : ∃ type routine, findEntry program.image entry = .ok (type, routine)
  states : ∀ (arguments : List String) (console : Console) {type : TypeIndex}
    {routine : RoutineIndex} {state : State},
    findEntry program.image entry = .ok (type, routine) →
    Visits program entry.binding type routine arguments console state →
    state.IsWellFormed program
  natives : ∀ (arguments : List String) (console : Console) {type : TypeIndex}
    {routine : RoutineIndex} {state : State} {frame : Machine.Frame} {imported : ImportIndex}
    {given : List Value} {rest : OperandStack} {count : Nat},
    findEntry program.image entry = .ok (type, routine) →
    Visits program entry.binding type routine arguments console state →
    state.control = .run frame →
    frame.routine.code[frame.position]? = some (.callHost imported count) →
    frame.stack.popMany count = (.ok given, rest) →
    ∀ value ∈ given, value.IsWellFormed program state.world
  answers : ∀ (arguments : List String) (console : Console) {type : TypeIndex}
    {routine : RoutineIndex} {fuel : Nat} {value : Value} {world : World},
    findEntry program.image entry = .ok (type, routine) →
    runEntry fuel program entry.binding type routine arguments (.fresh console)
      = some ⟨.ok value, world⟩ →
    value.IsWellFormed program world ∧ world.IsWellFormed program

/-- A compiled program keeps its values well formed. -/
theorem Built.keepsValues (built : Built references table source file entry program) :
    KeepsValues program entry := by
  obtain ⟨owner, method, accepted⟩ := built.accepted
  have sealed {routine : Bytecode.Routine} (inside : routine ∈ program.image.routines) :
      IsTidy program routine ∧ routine.SealsLoops := by
    obtain ⟨index, bound, rfl⟩ := Array.mem_iff_getElem.mp inside
    obtain ⟨_, found, both⟩ := seals_of_routineCode (accepted.routines index bound)
    obtain rfl := Option.some.inj ((Array.getElem?_eq_getElem bound).symm.trans found)
    exact both
  have tidy (routine : Bytecode.Routine) (inside : routine ∈ program.image.routines) :
      IsTidy program routine := (sealed inside).1
  have states {arguments : List String} {console : Console} {type : TypeIndex}
      {routine : RoutineIndex} {state : State}
      (visited : Visits program entry.binding type routine arguments console state) :
      state.IsWellFormed program := by
    obtain ⟨start, run, reached⟩ := visited
    exact reached.isWellFormed tidy (isWellFormed_of_entryRun tidy run)
  refine ⟨fun _ inside ↦ (sealed inside).2, ⟨owner, method.routine, accepted.found⟩,
    fun _ _ _ _ _ _ visited ↦ states visited,
    fun _ _ _ _ _ _ _ _ _ _ _ visited ↦ operands_of_callHost (states visited),
    fun _ _ _ _ _ _ _ _ ran ↦ ?_⟩
  obtain ⟨start, run, ended⟩ := Session.ends_of_runEntry ran
  exact ended.isWellFormed tidy (isWellFormed_of_entryRun tidy run)

/-- A program with a loop, whose closures capture the variable of the loop. -/
def loopingSource : SourceUnit :=
  ⟨"type P { static fn main(args: [str]) { for a in args { let f = |x| a; } } }", .v2⟩

theorem Built.keepsValues_looping : ∃ (file : File) (entry : EntryPoint) (program : Program),
    Built (Resolver.ofTable .standard []) .standard loopingSource file entry program ∧
      (∃ routine ∈ program.image.routines, routine.IsLoopSlot 1) ∧
      (∃ routine ∈ program.image.routines, routine.binding = .closure 1) ∧
      KeepsValues program entry := by
  let loops : File × EntryPoint × Program → Bool := fun (_, _, program) ↦
    program.image.routines.any (fun routine ↦ routine.code.any fun op ↦
      match op with
      | .iterNext 1 _ => true
      | _ => false) &&
    program.image.routines.any fun routine ↦ routine.binding = .closure 1
  have passes : (build? (Resolver.ofTable .standard []) .standard loopingSource).any loops
      = true := by
    decide +kernel
  obtain ⟨file, entry, program, built, passes⟩ := exists_built_of_any passes
  simp only [loops, Bool.and_eq_true, Array.any_eq_true', decide_eq_true_eq] at passes
  obtain ⟨⟨looping, inside, op, member, isNext⟩, closure⟩ := passes
  refine ⟨file, entry, program, built, ⟨looping, inside, ?_⟩, closure, built.keepsValues⟩
  split at isNext
  · exact ⟨_, member⟩
  · cases isNext

end Compile

end GuestScript
