import GuestScript.Proofs.Bytecode.Shapes
import GuestScript.Proofs.Compile.Lambdas
import GuestScript.Proofs.Compile.Scopes

/-!
# Compiled code is balanced

The code of an expression leaves one value more on the operand stack than there was before it, and
that of a statement leaves as many as before, on every path and whatever is on the stack below.
Every routine that a file is compiled to is shaped, for this reason. Its instructions name what
exists and hand over as many arguments as are taken there, and the slots with the cursors of its
loops are never given anything else.
-/

namespace GuestScript

open Compile
open Machine (Program)
open Meaning
open Syntax

/-- What an instruction names exists, and is given as many values as it takes. A host function is
given as many as it declares parameters. -/
def Bytecode.Op.Links (program : Program) (references : ReferenceSet) (locals : Nat) :
    Bytecode.Op → Prop
  | .load slot | .store slot | .iterNext slot _ => slot < locals
  | .call callee count => ∃ routine, program.image.routines[callee]? = some routine ∧
      routine.arity = count
  | .makeClosure callee _ => callee < program.image.routines.size
  | .construct type => type < program.image.types.size
  | .callHost imported count => ∃ name function, Offered references function ∧
      program.hosts[imported]? = some ⟨name, function.action⟩ ∧
      count = function.parameters.length
  | _ => True

namespace Meaning

open Bytecode (Op Routine RoutineIndex Segment Shape TypeIndex)

variable {program : Program} {references : ReferenceSet} {types : List TypeInfo} {locals : Nat}
  {cursors : List Nat}

/-! ## Pieces of bodies -/

/-- Code leaves so many values more on the operand stack than there were before it. -/
def Balanced (program : Program) (references : ReferenceSet) (locals : Nat) (cursors : List Nat)
    (start : Nat) (code : List Op) (count : Nat) : Prop :=
  ∀ labels height, Segment (Op.Links program references locals) labels start code
    (.plain height cursors) (.plain (height + count) cursors)

namespace Balanced

variable {start count more : Nat} {code others : List Op}

theorem nil : Balanced program references locals cursors start [] 0 :=
  fun _ _ ↦ .nil

theorem append (first : Balanced program references locals cursors start code count)
    {position : Nat} (here : position = start + code.length)
    (second : Balanced program references locals cursors position others more) :
    Balanced program references locals cursors start (code ++ others) (count + more) := by
  intro labels height
  rw [← Nat.add_assoc]
  exact (first labels height).append here (second labels (height + count))

/-- An instruction takes its operands from those that code leaves. -/
theorem emit (given : Balanced program references locals cursors start code count) (op : Op)
    (rest : Nat) (links : op.Links program references locals) (isPlain : op.isPlain = true)
    (enough : count = rest + op.operands) :
    Balanced program references locals cursors start (code ++ [op]) (rest + op.results) := by
  subst enough
  intro labels height
  have last : Segment (Op.Links program references locals) labels (start + code.length) [op]
      (.plain (height + (rest + op.operands)) cursors) _ := .plain links isPlain (by omega)
  have same : height + (rest + op.operands) - op.operands + op.results
      = height + (rest + op.results) := by omega
  rw [same] at last
  exact (given labels height).append rfl last

/-- A slot is read. -/
theorem load {slot : Nat} (inside : slot < locals) :
    Balanced program references locals cursors start [.load slot] 1 :=
  nil.emit (.load slot) 0 inside rfl rfl

/-- A constant is there at once. -/
theorem push (constant : Bytecode.Constant) :
    Balanced program references locals cursors start [.push constant] 1 :=
  nil.emit (.push constant) 0 trivial rfl rfl

theorem loads : (slots : List Nat) → (∀ slot ∈ slots, slot < locals) → (start : Nat) →
    Balanced program references locals cursors start (slots.map .load) slots.length
  | [], _, _ => nil
  | slot :: rest, inside, start => by
      have others := loads rest (fun slot later ↦ inside slot (List.mem_cons_of_mem _ later))
        (start + 1)
      rw [List.length_cons, Nat.add_comm]
      exact (load (inside slot List.mem_cons_self)).append rfl others

/-- The right operand of a conjunction is computed only if the left one is true. -/
theorem and {first second : List Op}
    (left : Balanced program references locals cursors start first 1)
    (right : Balanced program references locals cursors (start + first.length + 1) second 1) :
    Balanced program references locals cursors start
      (first ++ [Op.jumpUnless (start + first.length + second.length + 2)] ++ second
        ++ [Op.jump (start + first.length + second.length + 2 + 1), .push (.bool false)]) 1 := by
  intro labels height
  -- the jumps lead to the constant for false and behind it, and both labels are closed in the end
  let otherwise := start + first.length + second.length + 2
  let ends := (otherwise + 1, Shape.plain (height + 1) cursors) :: labels
  let known := (otherwise, Shape.plain height cursors) :: ends
  have test : Segment (Op.Links program references locals) known start
      (first ++ [Op.jumpUnless otherwise]) (.plain height cursors) (.plain height cursors) :=
    (left known height).append rfl (.jumpUnless trivial List.mem_cons_self)
  have both : Segment (Op.Links program references locals) known start
      (first ++ [Op.jumpUnless otherwise] ++ second) (.plain height cursors)
      (.plain (height + 1) cursors) :=
    test.append (by simp; omega) (right known height)
  have taken : Segment (Op.Links program references locals) known start
      (first ++ [Op.jumpUnless otherwise] ++ second ++ [Op.jump (otherwise + 1)])
      (.plain height cursors) (.plain height cursors) :=
    both.append rfl (.jump trivial (List.mem_cons_of_mem _ List.mem_cons_self))
  have whole := (taken.close (.inr ⟨by simp [otherwise]; omega, rfl⟩)).append rfl
    (push (.bool false) ends height)
  rw [List.append_assoc] at whole
  exact whole.close (.inr ⟨by simp [otherwise]; omega, rfl⟩)

/-- The right operand of a disjunction is computed only if the left one is false. -/
theorem or {first second : List Op}
    (left : Balanced program references locals cursors start first 1)
    (right : Balanced program references locals cursors (start + first.length + 3) second 1) :
    Balanced program references locals cursors start
      (first ++ [Op.jumpUnless (start + first.length + 3), .push (.bool true),
        .jump (start + first.length + 3 + second.length)] ++ second) 1 := by
  intro labels height
  let otherwise := start + first.length + 3
  let ends := (otherwise + second.length, Shape.plain (height + 1) cursors) :: labels
  let known := (otherwise, Shape.plain height cursors) :: ends
  have test : Segment (Op.Links program references locals) known start
      (first ++ [Op.jumpUnless otherwise]) (.plain height cursors) (.plain height cursors) :=
    (left known height).append rfl (.jumpUnless trivial List.mem_cons_self)
  have taken : Segment (Op.Links program references locals) known start
      (first ++ [Op.jumpUnless otherwise] ++ [Op.push (.bool true)]
        ++ [Op.jump (otherwise + second.length)])
      (.plain height cursors) (.plain height cursors) :=
    (test.append rfl (push (.bool true) known height)).append rfl
      (.jump trivial (List.mem_cons_of_mem _ List.mem_cons_self))
  have whole := (taken.close (.inr ⟨by simp [otherwise]; omega, rfl⟩)).append
    (by simp; omega) (right ends height)
  have same : first ++ [Op.jumpUnless otherwise] ++ [Op.push (.bool true)]
      ++ [Op.jump (otherwise + second.length)] ++ second
      = first ++ [Op.jumpUnless otherwise, .push (.bool true), .jump (otherwise + second.length)]
        ++ second := by
    simp
  rw [same] at whole
  exact whole.close (.inr ⟨by simp [otherwise]; omega, rfl⟩)

/-- A value goes into a slot that holds no cursor. -/
theorem store {slot : Nat} (given : Balanced program references locals cursors start code 1)
    (inside : slot < locals) (other : slot ∉ cursors) :
    Balanced program references locals cursors start (code ++ [Op.store slot]) 0 :=
  fun labels height ↦ (given labels height).append rfl (.store inside other)

/-- Nothing comes behind the end of a routine. -/
theorem ret (given : Balanced program references locals cursors start code 1) :
    Balanced program references locals cursors start (code ++ [Op.ret]) 0 :=
  fun labels height ↦ (given labels height).append rfl (.ret trivial)

section Blocks

variable {test inside instead : List Op}
  (tested : Balanced program references locals cursors start test 1)
  (body : Balanced program references locals cursors (start + test.length + 1) inside 0)

include tested body

theorem whileLoop : Balanced program references locals cursors start
    (test ++ [Op.jumpUnless (start + test.length + inside.length + 2)] ++ inside ++ [Op.jump start])
    0 := by
  intro labels height
  let exit := start + test.length + inside.length + 2
  let ends := (start, Shape.plain height cursors) :: labels
  let known := (exit, Shape.plain height cursors) :: ends
  have entered : Segment (Op.Links program references locals) known start
      (test ++ [Op.jumpUnless exit]) (.plain height cursors) (.plain height cursors) :=
    (tested known height).append rfl (.jumpUnless trivial List.mem_cons_self)
  have whole : Segment (Op.Links program references locals) known start
      (test ++ [Op.jumpUnless exit] ++ inside ++ [Op.jump start]) (.plain height cursors)
      (.plain height cursors) :=
    (entered.append (by simp; omega) (body known height)).append rfl
      (.jump trivial (List.mem_cons_of_mem _ List.mem_cons_self))
  exact (whole.close (.inr ⟨by simp [exit]; omega, rfl⟩)).close (.inl ⟨rfl, rfl⟩)

theorem ifTrue : Balanced program references locals cursors start
    (test ++ [Op.jumpUnless (start + test.length + inside.length + 1)] ++ inside) 0 := by
  intro labels height
  let exit := start + test.length + inside.length + 1
  let known := (exit, Shape.plain height cursors) :: labels
  have entered : Segment (Op.Links program references locals) known start
      (test ++ [Op.jumpUnless exit]) (.plain height cursors) (.plain height cursors) :=
    (tested known height).append rfl (.jumpUnless trivial List.mem_cons_self)
  have whole := entered.append (by simp; omega) (body known height)
  exact whole.close (.inr ⟨by simp [exit]; omega, rfl⟩)

theorem ifElse (alternative : Balanced program references locals cursors
      (start + test.length + inside.length + 2) instead 0) :
    Balanced program references locals cursors start
      (test ++ [Op.jumpUnless (start + test.length + inside.length + 2)] ++ inside
        ++ [Op.jump (start + test.length + inside.length + 2 + instead.length)] ++ instead) 0 := by
  intro labels height
  let otherwise := start + test.length + inside.length + 2
  let ends := (otherwise + instead.length, Shape.plain height cursors) :: labels
  let known := (otherwise, Shape.plain height cursors) :: ends
  have entered : Segment (Op.Links program references locals) known start
      (test ++ [Op.jumpUnless otherwise]) (.plain height cursors) (.plain height cursors) :=
    (tested known height).append rfl (.jumpUnless trivial List.mem_cons_self)
  have taken : Segment (Op.Links program references locals) known start
      (test ++ [Op.jumpUnless otherwise] ++ inside ++ [Op.jump (otherwise + instead.length)])
      (.plain height cursors) (.plain height cursors) :=
    (entered.append (by simp; omega) (body known height)).append rfl
      (.jump trivial (List.mem_cons_of_mem _ List.mem_cons_self))
  have whole := (taken.close (.inr ⟨by simp [otherwise]; omega, rfl⟩)).append
    (by simp; omega) (alternative ends height)
  exact whole.close (.inr ⟨by simp [otherwise]; omega, rfl⟩)

end Blocks

/-- Throughout a loop, its first slot holds the cursor. -/
theorem forEach {slot : Nat} {inside : List Op}
    (given : Balanced program references locals cursors start code 1) (bound : slot + 2 ≤ locals)
    (fresh : slot + 1 ∉ cursors)
    (body : Balanced program references locals (slot :: cursors) (start + code.length + 2 + 2)
      inside 0) :
    Balanced program references locals cursors start
      (code ++ [Op.iterStart, .store slot,
          .iterNext slot (start + code.length + 2 + inside.length + 3), .store (slot + 1)]
        ++ inside ++ [Op.jump (start + code.length + 2)]) 0 := by
  intro labels height
  -- a round starts with the cursor in its slot, and behind the loop nothing is said of that slot
  let head := start + code.length + 2
  let exit := head + inside.length + 3
  let ends := (exit, Shape.plain height cursors) :: labels
  let known := (head, Shape.plain height (slot :: cursors)) :: ends
  have started : Segment (Op.Links program references locals) ends start
      (code ++ [Op.iterStart, .store slot]) (.plain height cursors)
      (.plain height (slot :: cursors)) :=
    (given ends height).append rfl (.startLoop trivial (Nat.lt_of_succ_lt bound))
  have element : Segment (Op.Links program references locals) known head
      ([Op.iterNext slot exit] ++ [Op.store (slot + 1)]) (.plain height (slot :: cursors))
      (.plain height (slot :: cursors)) := by
    refine Segment.append (.iterNext (Nat.lt_of_succ_lt bound) List.mem_cons_self
      (List.mem_cons_of_mem _ List.mem_cons_self) (List.subset_cons_self _ _)) rfl
      (.store bound ?_)
    simpa only [List.mem_cons, Nat.succ_ne_self, false_or] using fresh
  have rounds : Segment (Op.Links program references locals) known head
      ([Op.iterNext slot exit] ++ [Op.store (slot + 1)] ++ inside ++ [Op.jump head])
      (.plain height (slot :: cursors)) (.plain height cursors) :=
    (element.append rfl (body known height)).append rfl (.jump trivial List.mem_cons_self)
  have whole := started.append (by simp [head]; omega) (rounds.close (.inl ⟨rfl, rfl⟩))
  have same : code ++ [Op.iterStart, .store slot]
      ++ ([Op.iterNext slot exit] ++ [Op.store (slot + 1)] ++ inside ++ [Op.jump head])
      = code ++ [Op.iterStart, .store slot, .iterNext slot exit, .store (slot + 1)] ++ inside
        ++ [Op.jump head] := by
    simp
  rw [same] at whole
  exact whole.close (.inr ⟨by simp [exit, head]; omega, rfl⟩)

end Balanced

/-! ## Bodies -/

/-- A body of a unit has its variables in slots below the next free one, apart from those with the
cursors of loops. -/
structure Enclosed (references : ReferenceSet) (types : List TypeInfo) (locals : Nat)
    (cursors : List Nat) (setting : Setting) (scope : Scope Nat) (next : Nat) : Prop where
  references : setting.references = references
  types : setting.types = types
  receiver : ∀ slot ∈ setting.receiver, slot < locals
  holders : ∀ held ∈ scope, held.holder < next ∧ held.holder ∉ cursors
  cursors : ∀ slot ∈ cursors, slot < next
  bound : next ≤ locals

namespace Enclosed

variable {setting : Setting} {scope : Scope Nat} {next after : Nat}
  (enclosed : Enclosed references types locals cursors setting scope next)

include enclosed

/-- Slots may be taken without a variable. -/
theorem later (later : next ≤ after) (bound : after ≤ locals) :
    Enclosed references types locals cursors setting scope after :=
  { enclosed with
    holders := fun held inside ↦
      (enclosed.holders held inside).imp_left (Nat.lt_of_lt_of_le · later)
    cursors := fun slot inside ↦ Nat.lt_of_lt_of_le (enclosed.cursors slot inside) later
    bound }

/-- The next free slot holds no cursor. -/
theorem free : next ∉ cursors :=
  fun inside ↦ Nat.lt_irrefl _ (enclosed.cursors next inside)

/-- The variables that statements add are in slots of their own. -/
theorem follow {inner : Scope Nat} (extended : scope.Extends next inner after)
    (bound : after ≤ locals) :
    Enclosed references types locals cursors setting inner after := by
  have later := enclosed.later extended.later bound
  obtain ⟨added, rfl, new⟩ := extended.added
  refine { later with holders := List.forall_mem_append.mpr ⟨fun held inside ↦ ?_, later.holders⟩ }
  obtain ⟨free, below⟩ := new held inside
  exact ⟨below, fun taken ↦ Nat.not_lt.mpr free (enclosed.cursors _ taken)⟩

/-- The next free slot is given to the cursor of a loop. -/
theorem loop (bound : next + 1 ≤ locals) :
    Enclosed references types locals (next :: cursors) setting scope (next + 1) := by
  have later := enclosed.later (Nat.le_succ next) bound
  refine { later with
    holders := fun held inside ↦ ?_
    cursors := List.forall_mem_cons.mpr ⟨Nat.lt_succ_self next, later.cursors⟩ }
  obtain ⟨below, other⟩ := enclosed.holders held inside
  refine ⟨Nat.lt_succ_of_lt below, fun taken ↦ ?_⟩
  obtain same | taken := List.mem_cons.mp taken
  · exact Nat.ne_of_lt below same
  · exact other taken

theorem isMember_of_callable {segments : List Identifier} {owner : TypeIndex} {method : MethodInfo}
    (found : callable? setting.site scope segments = some (.function owner method)) :
    IsMember types owner method :=
  enclosed.types ▸ Meaning.isMember_of_callable found

/-- What a lambda copies is in a slot. -/
theorem holder_lt_of_captures {parameters : List Identifier} {body : LambdaBody} :
    ∀ copy ∈ captures setting.ownerType setting.receiver parameters scope body,
      copy.holder < locals := by
  intro copy inside
  obtain ⟨name, -, found⟩ := List.mem_filterMap.mp inside
  rw [capture?] at found
  split at found
  · obtain ⟨slot, receiver, rfl⟩ := Option.map_eq_some_iff.mp found
    exact enclosed.receiver slot receiver
  · split at found
    · cases found
    · exact Nat.lt_of_lt_of_le (enclosed.holders copy (Scope.mem_of_named? found).1).1
        enclosed.bound

end Enclosed

namespace TypesCode

variable (code : TypesCode program references types)

include code

/-- The routine of a function takes its parameters, and the receiver if there is one. -/
theorem arity {owner : TypeIndex} {method : MethodInfo} (member : IsMember types owner method) :
    ∃ routine, program.image.routines[method.routine]? = some routine ∧
      routine.arity = method.parameters.length + if method.isStatic then 0 else 1 := by
  obtain ⟨info, here, inside⟩ := member
  obtain ⟨definition, -, type⟩ := code.type here
  cases type.method method inside with
  | mk routine _ _ _ => exact ⟨_, routine, rfl⟩

theorem typeNamed_lt {site : Site} (same : site.types = types) {name : String} {type : TypeIndex}
    (named : site.typeNamed? name = some type) : type < program.image.types.size := by
  have inside : type < (site.types.map TypeInfo.name).length := by
    rw [Site.typeNamed?, TypeName.find?] at named
    split at named
    · next found =>
        cases named
        exact (List.findIdx?_eq_some_iff_getElem.mp found).1
    · exact (List.findIdx?_eq_some_iff_getElem.mp named).1
  rwa [List.length_map, same, ← code.size] at inside

end TypesCode

section Walk

variable {setting : Setting} {scope : Scope Nat} {next : Nat}

mutual

/-- The code of an expression leaves one value. -/
theorem balanced_expression (code : TypesCode program references types)
    (enclosed : Enclosed references types locals cursors setting scope next) :
    (value : Expression) → {number start : Nat} → {expected : Option Ty} → {emitted : List Op} →
    ExpressionCode program setting scope number value expected start emitted →
    Balanced program references locals cursors start emitted 1
  | .int .., _, _, _, _, .int => .push _
  | .str .., _, _, _, _, .str => .push _
  | .bool .., _, _, _, _, .bool => .push _
  | .array values _, _, _, _, _, .array items =>
      (balanced_items code enclosed values items).emit (.makeArray values.length) 0 trivial rfl
        (Nat.zero_add _).symm
  | .receiver _, _, _, _, _, .receiver found => .load (enclosed.receiver _ found)
  | .path _ _, _, _, _, _, .path found =>
      .load (Nat.lt_of_lt_of_le (enclosed.holders _ (Scope.mem_of_named? found).1).1 enclosed.bound)
  | .call callee values _, _, _, _, _, translated => by
      have first := @balanced_expression code enclosed callee
      have given := @balanced_arguments code enclosed values
      cases translated with
      | callVariable found _ others =>
          have held := enclosed.holders _ (mem_of_callable found)
          exact ((Balanced.load (Nat.lt_of_lt_of_le held.1 enclosed.bound)).append rfl
            (given others)).emit (.callClosure values.length) 0 trivial rfl
            (by simp only [Op.operands]; omega)
      | @callStatic _ _ _ _ _ _ _ _ _ _ method _ found isStatic count others =>
          obtain ⟨routine, here, arity⟩ := code.arity (enclosed.isMember_of_callable found)
          rw [isStatic, ← count] at arity
          exact (given others).emit (.call method.routine values.length) 0 ⟨routine, here, arity⟩
            rfl (Nat.zero_add _).symm
      | @callOwn _ _ _ _ _ _ _ _ _ _ method _ _ found member owner receiver count others =>
          obtain ⟨routine, here, arity⟩ := code.arity (enclosed.isMember_of_callable found)
          rw [member, ← count] at arity
          exact ((Balanced.load (enclosed.receiver _ receiver)).append rfl (given others)).emit
            (.call method.routine (values.length + 1)) 0 ⟨routine, here, arity⟩ rfl
            (by simp only [Op.operands]; omega)
      | @callHost _ _ _ _ _ _ _ _ _ name function index _ found bound count others =>
          have offered : Offered references function :=
            enclosed.references ▸ offered_of_callable found
          exact (given others).emit (.callHost index values.length) 0
            ⟨name, function, offered, bound, count⟩ rfl (Nat.zero_add _).symm
      | callValue _ translated _ others =>
          exact ((first translated).append rfl (given others)).emit
            (.callClosure values.length) 0 trivial rfl (by simp only [Op.operands]; omega)
  | .method target _ values _, _, _, _, _, translated => by
      have first := @balanced_expression code enclosed target
      have given := @balanced_arguments code enclosed values
      cases translated with
      | @method _ _ _ _ _ _ _ _ _ _ method _ _ translated found member count others =>
          obtain ⟨routine, here, arity⟩ := code.arity
            (enclosed.types ▸ isMember_of_methodOn found)
          rw [member, ← count] at arity
          exact ((first translated).append rfl (given others)).emit
            (.call method.routine (values.length + 1)) 0 ⟨routine, here, arity⟩ rfl
            (by simp only [Op.operands]; omega)
  | .field target _ _, _, _, _, _, .field translated _ =>
      (balanced_expression code enclosed target translated).emit (.loadField _) 0 trivial rfl rfl
  | .element target index _, _, _, _, _, .element translated _ translated' _ =>
      ((balanced_expression code enclosed target translated).append rfl
        (balanced_expression code enclosed index translated')).emit .index 0 trivial rfl rfl
  | .construct _ _, _, _, _, _, .construct named =>
      Balanced.nil.emit (.construct _) 0 (code.typeNamed_lt enclosed.types named) rfl rfl
  | .lambda parameters body _, _, start, _, _, translated => by
      cases translated with
      | @lambda _ _ _ _ _ _ _ _ index copies copied compiled =>
          have inside : ∀ slot ∈ copies.map Variable.holder, slot < locals :=
            List.forall_mem_map.mpr (copied ▸ enclosed.holder_lt_of_captures)
          have loads : Balanced program references locals cursors start _ _ :=
            .loads (copies.map Variable.holder) inside start
          rw [List.map_map, List.length_map] at loads
          refine loads.emit (.makeClosure index copies.length) 0 ?_ rfl (Nat.zero_add _).symm
          cases compiled with
          | mk routine _ => exact (Array.getElem?_eq_some_iff.mp routine).1
  | .unary operator operand _, _, _, _, _, .unary translated _ =>
      (balanced_expression code enclosed operand translated).emit (.unary operator) 0 trivial rfl
        rfl
  | .binary _ left right _, _, _, _, _, translated => by
      have first := @balanced_expression code enclosed left
      have second := @balanced_expression code enclosed right
      cases translated with
      | and translated _ translated' _ => exact .and (first translated) (second translated')
      | or translated _ translated' _ => exact .or (first translated) (second translated')
      | binary _ _ translated translated' _ =>
          exact ((first translated).append rfl (second translated')).emit (.binary _) 0 trivial rfl
            rfl
termination_by structural value => value

theorem balanced_items (code : TypesCode program references types)
    (enclosed : Enclosed references types locals cursors setting scope next) :
    (values : List Expression) → {number start : Nat} → {wanted : Option Ty} →
    {emitted : List Op} → ItemsCode program setting scope number values wanted start emitted →
    Balanced program references locals cursors start emitted values.length
  | [], _, _, _, _, .nil => .nil
  | item :: rest, _, _, _, _, translated => by
      rw [List.length_cons, Nat.add_comm]
      cases translated with
      | first one others =>
          exact (balanced_expression code enclosed item one).append rfl
            (balanced_items code enclosed rest others)
      | cons one _ others =>
          exact (balanced_expression code enclosed item one).append rfl
            (balanced_items code enclosed rest others)
termination_by structural values => values

theorem balanced_arguments (code : TypesCode program references types)
    (enclosed : Enclosed references types locals cursors setting scope next) :
    (values : List Expression) → {number start : Nat} → {parameters : List Ty} →
    {binding : Option Ty} → {emitted : List Op} →
    ArgumentsCode program setting scope number values parameters binding start emitted →
    Balanced program references locals cursors start emitted values.length
  | [], _, _, _, _, _, .nil => .nil
  | argument :: rest, _, _, _, _, _, translated => by
      rw [List.length_cons, Nat.add_comm]
      cases translated with
      | beyond one others =>
          exact (balanced_expression code enclosed argument one).append rfl
            (balanced_arguments code enclosed rest others)
      | cons one _ others =>
          exact (balanced_expression code enclosed argument one).append rfl
            (balanced_arguments code enclosed rest others)
termination_by structural values => values

end

mutual

/-- The code of a block leaves as many values as there were before it. -/
theorem balanced_block (code : TypesCode program references types) :
    (body : Block) → {cursors : List Nat} → {scope : Scope Nat} →
    {next number start after : Nat} → {emitted : List Op} →
    Enclosed references types locals cursors setting scope next → after ≤ locals →
    BlockCode program setting scope next number body start emitted after →
    Balanced program references locals cursors start emitted 0
  | .mk body _, _, _, _, _, _, _, _, enclosed, bound, .mk inside =>
      balanced_statements code body enclosed bound inside
termination_by structural body => body

theorem balanced_statements (code : TypesCode program references types) :
    (body : List Statement) → {cursors : List Nat} → {scope inner : Scope Nat} →
    {next number start after : Nat} → {emitted : List Op} →
    Enclosed references types locals cursors setting scope next → after ≤ locals →
    StatementsCode program setting scope next number body start emitted inner after →
    Balanced program references locals cursors start emitted 0
  | [], _, _, _, _, _, _, _, _, _, _, .nil => .nil
  | first :: rest, _, _, _, _, _, _, _, _, enclosed, bound, .cons one others => by
      have early := Nat.le_trans (extends_of_statementsCode rest others).later bound
      have given := balanced_statement code first enclosed early one
      have enclosed' := enclosed.follow (extends_of_statementCode first one) early
      exact given.append rfl (balanced_statements code rest enclosed' bound others)
termination_by structural body => body

theorem balanced_statement (code : TypesCode program references types) :
    (one : Statement) → {cursors : List Nat} → {scope inner : Scope Nat} →
    {next number start after : Nat} → {emitted : List Op} →
    Enclosed references types locals cursors setting scope next → after ≤ locals →
    StatementCode program setting scope next number one start emitted inner after →
    Balanced program references locals cursors start emitted 0
  | .declare _ _ value _, _, _, _, _, _, _, _, _, enclosed, bound, .declare translated _ =>
      (balanced_expression code enclosed value translated).store bound enclosed.free
  | .assign (.binding _) value _, _, _, _, _, _, _, _, _, enclosed, bound,
      .assign found translated _ => by
      obtain ⟨below, other⟩ := enclosed.holders _ (Scope.mem_of_named? found).1
      exact (balanced_expression code enclosed value translated).store
        (Nat.lt_of_lt_of_le below bound) other
  | .assign (.field _) value _, _, _, _, _, _, _, _, _, enclosed, _, translated => by
      cases translated with
      | assignField receiver _ translated _ =>
          exact ((Balanced.load (enclosed.receiver _ receiver)).append rfl
            (balanced_expression code enclosed value translated)).emit (.storeField _) 0 trivial rfl
            rfl
  | .forEach _ iterable body _, _, _, _, _, _, _, _, _, enclosed, bound, translated => by
      cases translated with
      | forEach translated _ inside =>
          have taken := Nat.le_trans (le_of_blockCode body inside) bound
          refine (balanced_expression code enclosed iterable translated).forEach taken ?_
            (balanced_block code body ?_ bound inside)
          · exact fun held ↦ Nat.not_succ_le_self _ (Nat.le_of_lt (enclosed.cursors _ held))
          · exact (enclosed.loop (Nat.le_of_succ_le taken)).follow
              (.declare _ (Nat.le_refl _) (Nat.lt_succ_self _)) taken
  | .whileLoop test body _, _, _, _, _, _, _, _, _, enclosed, bound, translated => by
      cases translated with
      | whileLoop translated _ inside =>
          exact (balanced_expression code enclosed test translated).whileLoop
            (balanced_block code body enclosed bound inside)
  | .conditional test body other _, _, _, _, _, _, _, _, _, enclosed, bound, translated => by
      cases translated with
      | ifTrue translated _ inside =>
          exact (balanced_expression code enclosed test translated).ifTrue
            (balanced_block code body enclosed bound inside)
      | ifElse _ translated _ inside instead =>
          have early := Nat.le_trans (le_of_alternativeCode other instead) bound
          have enclosed' := enclosed.later (le_of_blockCode body inside) early
          exact (balanced_expression code enclosed test translated).ifElse
            (balanced_block code body enclosed early inside)
            (balanced_alternative code other enclosed' bound instead)
  | .returns none _, _, _, _, _, _, _, _, _, _, _, .returnNothing _ => (Balanced.push .unit).ret
  | .returns (some value) _, _, _, _, _, _, _, _, _, enclosed, _, .returnValue translated _ =>
      (balanced_expression code enclosed value translated).ret
  | .evaluate value, _, _, _, _, _, _, _, _, enclosed, _, .evaluate translated =>
      (balanced_expression code enclosed value translated).emit .pop 0 trivial rfl rfl
termination_by structural one => one

theorem balanced_alternative (code : TypesCode program references types) :
    (other : Alternative) → {cursors : List Nat} → {scope : Scope Nat} →
    {next number start after : Nat} → {emitted : List Op} →
    Enclosed references types locals cursors setting scope next → after ≤ locals →
    AlternativeCode program setting scope next number other start emitted after →
    Balanced program references locals cursors start emitted 0
  | .absent, _, _, _, _, _, _, _, _, _, translated => by cases translated
  | .block body, _, _, _, _, _, _, _, enclosed, bound, .block inside =>
      balanced_block code body enclosed bound inside
  | .chain conditional, _, _, _, _, _, _, _, enclosed, bound, .chain inside =>
      balanced_statement code conditional enclosed bound inside
termination_by structural other => other

end

end Walk

/-! ## Routines -/

section Routines

/-- What a routine ends with is added to its body. -/
theorem Balanced.shaped {routine : Routine} {body : List Op}
    (balanced : Balanced program references routine.locals [] 0 body 0)
    (same : routine.code = (body ++ epilogue).toArray) :
    ∃ shapes, routine.Shaped (Op.Links program references routine.locals) shapes := by
  have whole : Balanced program references routine.locals [] 0 (body ++ epilogue) 0 :=
    balanced.append rfl (Balanced.push .unit).ret
  have segment : Segment (Op.Links program references routine.locals) [] 0 routine.code.toList
      (.plain 0 []) (.plain 0 []) := by
    rw [same]
    exact whole [] 0
  exact Routine.Shaped.of_segment segment

/-- A body starts with its variables in slots one after the other. -/
theorem enclosed_inSlots {setting : Setting} {binders : List (Variable Unit)} {first next : Nat}
    (references' : setting.references = references) (types' : setting.types = types)
    (receiver : ∀ slot ∈ setting.receiver, slot < next) (end' : first + binders.length ≤ next)
    (bound : next ≤ locals) :
    Enclosed references types locals [] setting (inSlots binders first) next :=
  { references := references'
    types := types'
    receiver := fun slot inside ↦ Nat.lt_of_lt_of_le (receiver slot inside) bound
    holders := fun _ inside ↦
      ⟨Nat.lt_of_lt_of_le (le_of_mem_inSlots inside).2 end', List.not_mem_nil⟩
    cursors := nofun
    bound }

/-- A function starts with its parameters in slots, behind the instance that it works on. -/
theorem enclosed_method {owner : TypeIndex} {info : TypeInfo} {method : MethodInfo}
    (named : method.declaration.parameters.length = method.parameters.length)
    (bound : method.parameters.length + (if method.isStatic then 0 else 1) ≤ locals) :
    Enclosed references types locals []
      { settingOf references types owner info with
        routineName := method.name
        result := method.result
        receiver := if method.isStatic then none else some 0 }
      (inSlots (parametersOf method) (if method.isStatic then 0 else 1))
      (method.parameters.length + if method.isStatic then 0 else 1) := by
  refine enclosed_inSlots rfl rfl (fun slot taken ↦ ?_) ?_ bound
  · dsimp only at taken
    split at taken
    · exact absurd taken nofun
    · next instance' =>
        obtain rfl := Option.some.inj taken
        rw [if_neg instance']
        exact Nat.succ_pos _
  · rw [length_parametersOf named]
    exact Nat.le_of_eq (Nat.add_comm _ _)

/-- A lambda starts with its copies in slots and its parameters behind them. -/
theorem enclosed_lambda {code : Lambda} (references' : code.site.references = references)
    (types' : code.site.types = types) (bound : code.arity ≤ locals) :
    Enclosed references types locals [] code.setting code.scope code.arity := by
  refine enclosed_inSlots references' types' (fun slot taken ↦ ?_) ?_ bound
  · -- the instance that a lambda works on is one of its copies
    have copied := (List.findIdx?_eq_some_iff_getElem.mp taken).1
    exact Nat.lt_of_lt_of_le copied (Nat.le_add_right _ _)
  · rw [Nat.zero_add, List.length_append]
    exact Nat.le_refl _

theorem balanced_body (code : TypesCode program references types) {setting : Setting}
    {scope : Scope Nat} {next number : Nat} {body : LambdaBody} {emitted : List Op}
    (enclosed : next ≤ locals → Enclosed references types locals [] setting scope next)
    (inside : BodyCode program setting scope next number body emitted locals) :
    Balanced program references locals [] 0 emitted 0 := by
  have enclosed := enclosed (slots_of_bodyCode inside).1
  cases inside with
  | expression value _ => exact (balanced_expression code enclosed _ value).ret
  | block inside => exact balanced_block code _ enclosed (Nat.le_refl _) inside

/-- What gives a field its first value without an expression is one instruction. -/
theorem balanced_defaultValue (type : Ty) {start : Nat} :
    Balanced program references locals cursors start [defaultValue type] 1 := by
  cases type with
  | int | bool | str => exact .push _
  | array => exact Balanced.nil.emit (.makeArray 0) 0 trivial rfl rfl
  | _ => exact .push .unit

theorem balanced_fields (code : TypesCode program references types) {setting : Setting}
    {next : Nat} (enclosed : Enclosed references types locals cursors setting [] next)
    (inside : 0 < locals) : (fields : List FieldInfo) → {number position start : Nat} →
    {emitted : List Op} → FieldsCode program setting number fields position start emitted →
    Balanced program references locals cursors start emitted 0
  | [], _, _, _, _, .nil => .nil
  | field :: rest, _, position, start, _, translated => by
      have filled {value : List Op}
          (balanced : Balanced program references locals cursors (start + 1) value 1) :
          Balanced program references locals cursors start
            ([Op.load 0] ++ value ++ [Op.storeField position]) 0 :=
        ((Balanced.load inside).append rfl balanced).emit (.storeField position) 0 trivial rfl rfl
      cases translated with
      | given _ value _ others =>
          refine (filled (balanced_expression code enclosed _ value)).append ?_
            (balanced_fields code enclosed inside rest others)
          simp only [List.length_append, List.length_singleton]
          omega
      | default _ others =>
          exact (filled (balanced_defaultValue field.type)).append rfl
            (balanced_fields code enclosed inside rest others)

/-- Every routine that is compiled from a file is shaped. -/
theorem shaped_of_routineCode (code : TypesCode program references types) {index : RoutineIndex}
    (translated : RoutineCode program references types index) :
    ∃ routine, program.image.routines[index]? = some routine ∧
      ∃ shapes, routine.Shaped (Op.Links program references routine.locals) shapes := by
  cases translated with
  | method _ _ same translated =>
      obtain ⟨here, named, -, inside⟩ := translated
      exact ⟨_, same ▸ here, (balanced_body code (enclosed_method named) (.block inside)).shaped rfl⟩
  | @initializer owner info _ _ translated =>
      obtain ⟨here, inside⟩ := translated
      refine ⟨_, here, Balanced.shaped ?_ rfl⟩
      have alone : ∀ slot ∈ some 0, slot < 1 := fun _ taken ↦ Option.some.inj taken ▸ Nat.one_pos
      have enclosed : Enclosed references types 1 []
          { settingOf references types owner info with receiver := some 0 } (inSlots [] 0) 1 :=
        enclosed_inSlots rfl rfl alone (Nat.zero_le 1) (Nat.le_refl 1)
      exact balanced_fields code enclosed Nat.one_pos _ inside
  | lambda translated =>
      obtain ⟨text, ⟨here, inside⟩, references', types', -⟩ := translated
      exact ⟨_, here, (balanced_body code (enclosed_lambda references' types') inside).shaped rfl⟩

end Routines

end Meaning

end GuestScript
