import GuestScript.Proofs.Simulation.Expressions

/-!
# Code of statements

`Runs` says that a piece of code does what an evaluation of a flow says: it goes on behind the code
with the variables in slots, or the routine answers with the value that the body is left with. There
is one rule for each form of statement. The loops are inductions: `for` over the elements that are
still to be visited, which the cursor in its hidden slot counts, and `while` over the fuel.
-/

namespace GuestScript.Meaning

open Bytecode (Op)
open Compile
open Evaluation (converted settled unanswered)
open Machine

variable {program : Translated}

/-- How code of statements ends: behind it, with the slots of other variables kept, or with the
answer of the routine. -/
def Flows (setting : Setting) (context : Context) (activation : Activation) (scope : Scope Nat)
    (next : Nat) (slots : Slots program) (inner : Scope Nat) (middle position : Nat)
    (stack : List Value) (flow : Flow) (world : TwinWorld program) (state : State) : Prop :=
  match flow with
  | .next environment => ∃ others : Slots program, environment = inner.values others ∧
      Holds setting context activation inner middle others ∧ Keeps scope next slots others ∧
      state = activation.state position others stack world
  | .left value => IsAnswer activation.waiting value world state

/-- Code at a position does what an evaluation of a flow says. -/
def Runs (setting : Setting) (context : Context) (activation : Activation) (least : Nat)
    (scope : Scope Nat) (next : Nat) (slots : Slots program) (start : Nat) (code : List Op)
    (inner : Scope Nat) (middle : Nat) (evaluation : Evaluation Flow) : Prop :=
  activation.routine.HasAt start code → ∀ (stack : List Value) (world : TwinWorld program),
    Meets program least (activation.state start slots stack world) world evaluation
      (Flows setting context activation scope next slots inner middle (start + code.length) stack)

variable {setting : Setting} {context : Context} {activation : Activation} {least : Nat}
  {scope inner outer : Scope Nat} {next middle after start : Nat} {slots : Slots program}
  {code first second : List Op} {one : Evaluation Datum} {flow : Evaluation Flow}

/-- What goes on in an inner scope goes on outside of it. -/
theorem Flows.outside {others : Slots program} {position : Nat} {stack : List Value}
    {world : TwinWorld program} {state : State} {result : Flow}
    (flows : Flows setting context activation inner middle others outer after position stack result
      world state)
    (extended : scope.Extends next inner middle) (keeps : Keeps scope next slots others) :
    Flows setting context activation scope next slots outer after position stack result world
      state := by
  cases result with
  | left value => exact flows
  | next environment =>
      obtain ⟨lasts, same, holds, keeps', at'⟩ := flows
      exact ⟨lasts, same, holds, keeps.trans (keeps'.outside extended), at'⟩

namespace Runs

/-! ## One after the other -/

theorem nil (holds : Holds setting context activation scope next slots) :
    Runs setting context activation least scope next slots start [] scope next
      (pure (.next (scope.values slots))) :=
  fun _ _ _ ↦ .pure ⟨slots, rfl, holds, .refl slots, rfl⟩

/-- Statements are run one after the other until the body is left. -/
theorem cons {two : Environment → Evaluation Flow} (extended : scope.Extends next inner middle)
    (head : Runs setting context activation least scope next slots start first inner middle flow)
    (tail : ∀ others : Slots program, Holds setting context activation inner middle others →
      Runs setting context activation least inner middle others (start + first.length) second outer
        after (two (inner.values others))) :
    Runs setting context activation least scope next slots start (first ++ second) outer after
      (do
        match ← flow with
        | .next environment => two environment
        | .left value => pure (.left value)) := by
  intro has stack world
  refine .bind (head has.left stack world) fun result world' state flows ↦ ?_
  cases result with
  | left value => exact .pure flows
  | next environment =>
      obtain ⟨others, rfl, holds, keeps, rfl⟩ := flows
      refine (tail others holds has.right stack world').mono fun result world'' state flows ↦ ?_
      rw [List.length_append, ← Nat.add_assoc]
      exact flows.outside extended keeps

/-- A block forgets its variables at its end. -/
theorem block (holds : Holds setting context activation scope next slots)
    (extended : scope.Extends next inner middle)
    (body : Runs setting context activation least scope next slots start code inner middle flow) :
    Runs setting context activation least scope next slots start code scope middle (do
      pure ((← flow).leaveScope (scope.values slots).length)) := by
  intro has stack world
  refine .bind (body has stack world) fun result world' state flows ↦ .pure ?_
  cases result with
  | left value => exact flows
  | next environment =>
      obtain ⟨others, rfl, holds', keeps, rfl⟩ := flows
      rw [Scope.length_values, extended.leaveScope]
      exact ⟨others, rfl, holds.keep keeps extended.later, keeps, rfl⟩

/-! ## Statements without a body -/

/-- An expression is evaluated for its effects. -/
theorem evaluate (holds : Holds setting context activation scope next slots)
    (value : Computes activation least slots start code one) :
    Runs setting context activation least scope next slots start (code ++ [.pop]) scope next (do
      let _ ← one
      pure (.next (scope.values slots))) := by
  intro has stack world
  rw [length_snoc]
  refine .bind (value has.left stack world) ?_
  rintro _ world' _ ⟨value, rfl, rfl⟩
  exact .pop has.right (.pure ⟨slots, rfl, holds, .refl slots, rfl⟩)

/-- A new variable takes the next free slot. -/
theorem declare {name : String} {type : Ty}
    (holds : Holds setting context activation scope next slots) (free : next < slots.size)
    (value : Computes activation least slots start code one) :
    Runs setting context activation least scope next slots start (code ++ [.store next])
      (⟨name, type, next⟩ :: scope) (next + 1) (do
        let value ← one
        pure (.next (⟨name, type, value⟩ :: scope.values slots))) := by
  intro has stack world
  rw [length_snoc]
  refine .bind (value has.left stack world) ?_
  rintro _ world' _ ⟨value, rfl, rfl⟩
  let held : Variable Nat := ⟨name, type, next⟩
  have latest : next ≤ held.holder := Nat.le_refl next
  refine .store has.right free (.pure ⟨slots.setIfInBounds next value, ?_, ?_, ?_, rfl⟩)
  · exact (holds.values_declare latest free value).symm
  · exact holds.declare latest (Nat.lt_succ_self next) value
  · exact .setIfInBounds (.inl latest) value

/-- A variable is given another value in its slot. -/
theorem assign {name : String} {held : Variable Nat}
    (holds : Holds setting context activation scope next slots)
    (found : scope.named? name = some held) (inside : held.holder < slots.size)
    (value : Computes activation least slots start code one) :
    Runs setting context activation least scope next slots start (code ++ [.store held.holder])
      scope next (do
        let value ← one
        pure (.next (Meaning.assign name value (scope.values slots)))) := by
  intro has stack world
  rw [length_snoc]
  refine .bind (value has.left stack world) ?_
  rintro _ world' _ ⟨value, rfl, rfl⟩
  have keeps : Keeps scope next slots (slots.setIfInBounds held.holder value) :=
    .setIfInBounds (.inr ⟨held, (Scope.mem_of_named? found).1, rfl⟩) value
  refine .store has.right inside (.pure ⟨_, ?_, holds.keep keeps (Nat.le_refl next), keeps, rfl⟩)
  exact Standing.values_assign value holds.apart found inside

/-- A field of the instance that the body works on is given another value. -/
theorem assignField {slot field : Nat} (holds : Holds setting context activation scope next slots)
    (inside : slot < slots.size) (value : Computes activation least slots (start + 1) code one) :
    Runs setting context activation least scope next slots start
      ([.load slot] ++ code ++ [.storeField field]) scope next (do
        let value ← one
        writeField (slots.datum slot) field value
        pure (.next (scope.values slots))) := by
  intro has stack world
  rw [length_parts, ← bind_assoc]
  refine .bind (value.writeField inside has) ?_
  rintro _ world' _ rfl
  exact .pure ⟨slots, rfl, holds, .refl slots, rfl⟩

/-- The body is left with unit. -/
theorem returnNothing :
    Runs setting context activation least scope next slots start [.push .unit, .ret] inner middle
      (pure (.left .unit)) :=
  fun has _ _ ↦ .retUnit has (.pure ⟨.unit, rfl, rfl⟩)

/-- The body is left with a value. -/
theorem returnValue (value : Computes activation least slots start code one) :
    Runs setting context activation least scope next slots start (code ++ [.ret]) inner middle (do
      pure (.left (← one))) := by
  intro has stack world
  refine .bind (value has.left stack world) ?_
  rintro _ world' _ ⟨value, rfl, rfl⟩
  exact .ret has.right (.pure ⟨value, rfl, rfl⟩)

end Runs

/-! ## Conditions -/

namespace Runs

/-- A block is run if a condition is true. -/
theorem ifTrue (holds : Holds setting context activation scope next slots) (later : next ≤ middle)
    (test : Computes activation least slots start code one)
    (body : Runs setting context activation least scope next slots (start + code.length + 1) first
      scope middle flow) :
    Runs setting context activation least scope next slots start
      (code ++ [.jumpUnless (start + code.length + first.length + 1)] ++ first) scope middle (do
        let value ← one
        if ← converted value.toBool then flow else pure (.next (scope.values slots))) := by
  intro has stack world
  obtain ⟨has, jump, has'⟩ := has.parts
  -- the two addresses count the same instructions in another order
  have length : start + (code ++ [Op.jumpUnless (start + code.length + first.length + 1)]
      ++ first).length = start + code.length + 1 + first.length := by
    simp only [List.length_append, List.length_singleton]
    omega
  have finish : start + code.length + first.length + 1 = start + code.length + 1 + first.length := by
    omega
  rw [length]
  refine .bind (test has stack world) ?_
  rintro _ world' _ ⟨value, rfl, rfl⟩
  refine .jumpUnless jump fun answer _ ↦ ?_
  cases answer with
  | true =>
      rw [if_pos rfl, if_pos rfl]
      exact body has' stack world'
  | false =>
      rw [if_neg Bool.false_ne_true, if_neg Bool.false_ne_true, finish]
      exact .pure ⟨slots, rfl, holds.keep (.refl slots) later, .refl slots, rfl⟩

/-- A condition decides between a block and an alternative. -/
theorem ifElse {other : Evaluation Flow}
    (holds : Holds setting context activation scope next slots) (later : next ≤ middle)
    (later' : middle ≤ after) (test : Computes activation least slots start code one)
    (body : Runs setting context activation least scope next slots (start + code.length + 1) first
      scope middle flow)
    (instead : Holds setting context activation scope middle slots →
      Runs setting context activation least scope middle slots
        (start + code.length + first.length + 2) second scope after other) :
    Runs setting context activation least scope next slots start
      (code ++ [.jumpUnless (start + code.length + first.length + 2)] ++ first
        ++ [.jump (start + code.length + first.length + 2 + second.length)] ++ second)
      scope after (do
        let value ← one
        if ← converted value.toBool then flow else other) := by
  intro has stack world
  have last := has.right
  obtain ⟨has, behind⟩ := (⟨has.left.left, has.left.right⟩ : _ ∧ _)
  obtain ⟨has, jump, has'⟩ := has.parts
  have length : start + (code ++ [Op.jumpUnless (start + code.length + first.length + 2)]
      ++ first).length = start + code.length + 1 + first.length := by
    simp only [List.length_append, List.length_singleton]
    omega
  have finish : start + code.length + 1 + first.length + 1
      = start + code.length + first.length + 2 := by omega
  rw [length] at behind
  rw [List.length_append, ← Nat.add_assoc, length, List.length_singleton, finish] at last
  rw [List.length_append, List.length_append, ← Nat.add_assoc, ← Nat.add_assoc, length,
    List.length_singleton, finish]
  refine .bind (test has stack world) ?_
  rintro _ world' _ ⟨value, rfl, rfl⟩
  refine .jumpUnless jump fun answer _ ↦ ?_
  cases answer with
  | true =>
      rw [if_pos rfl, if_pos rfl]
      refine (body has' stack world').follow fun result world'' state flows ↦ ?_
      cases result with
      -- a return leaves the jump behind the block aside
      | left value => exact ⟨state, .refl state, flows⟩
      | next environment =>
          obtain ⟨others, rfl, holds', keeps, rfl⟩ := flows
          exact ⟨_, .single (step_state behind.op), others, rfl, holds'.keep (.refl others) later',
            keeps, rfl⟩
  | false =>
      rw [if_neg Bool.false_ne_true, if_neg Bool.false_ne_true]
      refine (instead (holds.keep (.refl slots) later) last stack world').mono ?_
      exact fun _ _ _ flows ↦ flows.outside (.taken later) (.refl slots)

/-! ## Loops -/

/-- As long as a condition is true, a block is run. One unit of fuel is used up in each turn, and the
machine takes at least the step back. -/
theorem whileLoop {one : Environment → Evaluation Datum} {flow : Environment → Evaluation Flow}
    (holds : Holds setting context activation scope next slots) (later : next ≤ after)
    (test : ∀ others : Slots program, Holds setting context activation scope next others →
      Computes activation least others start code (one (scope.values others)))
    (body : ∀ others : Slots program, Holds setting context activation scope next others →
      Runs setting context activation least scope next others (start + code.length + 1) first scope
        after (flow (scope.values others))) :
    Runs setting context activation least scope next slots start
      (code ++ [.jumpUnless (start + code.length + first.length + 2)] ++ first ++ [.jump start])
      scope after (repeatWhile one flow least (scope.values slots)) := by
  intro has stack world
  have behind := has.right
  obtain ⟨has, jump, has'⟩ := has.left.parts
  have length : start + (code ++ [Op.jumpUnless (start + code.length + first.length + 2)]
      ++ first).length = start + code.length + 1 + first.length := by
    simp only [List.length_append, List.length_singleton]
    omega
  have finish : start + code.length + 1 + first.length + 1
      = start + code.length + first.length + 2 := by omega
  rw [length] at behind
  rw [length_snoc, length, finish]
  -- The induction is on the fuel that is left, over slots that keep those at the start.
  suffices turns : ∀ fuel ≤ least, ∀ (others : Slots program) (world : TwinWorld program),
      Keeps scope next slots others →
      Meets program fuel (activation.state start others stack world) world
        (repeatWhile one flow fuel (scope.values others))
        (Flows setting context activation scope next slots scope after
          (start + code.length + first.length + 2) stack) from
    turns least (Nat.le_refl least) slots world (.refl slots)
  intro fuel
  induction fuel with
  -- without fuel the evaluator has no answer, and of the machine no step is asked
  | zero => exact fun _ _ _ _ ↦ .unanswered rfl (.zero _)
  | succ fuel ih =>
      intro enough others world keeps
      have holds' := holds.keep keeps (Nat.le_refl next)
      rw [repeatWhile]
      refine .bind ((test others holds' has stack world).fewer enough) ?_
      rintro _ world' _ ⟨value, rfl, rfl⟩
      refine .jumpUnless jump fun answer _ ↦ ?_
      cases answer with
      | true =>
          rw [if_pos rfl, if_pos rfl]
          refine .bind ((body others holds' has' stack world').fewer enough) ?_
          intro result world'' state flows
          cases result with
          | left value => exact .pure flows
          | next environment =>
              obtain ⟨lasts, rfl, -, keeps', rfl⟩ := flows
              -- the step back pays for the unit of fuel of this turn
              exact .succ (step_state behind.op)
                (ih (Nat.le_of_succ_le enough) lasts world'' (keeps.trans keeps'))
      | false =>
          rw [if_neg Bool.false_ne_true, if_neg Bool.false_ne_true]
          exact .pure ⟨others, rfl, holds.keep keeps later, keeps, rfl⟩

/-- A cursor in a hidden slot visits the elements that are left, each of which gets the slot behind
it. -/
theorem visits {name : String} {type : Ty} {flow : Environment → Evaluation Flow}
    {head exit : Nat} {items : List (Twin program)} {stack : List Value}
    (holds : Holds setting context activation scope next slots) (free : next + 1 < slots.size)
    (later : next + 2 ≤ after)
    (has : activation.routine.HasAt head [.iterNext next exit, .store (next + 1)])
    (has' : activation.routine.HasAt (head + 2) first)
    (jump : activation.routine.HasAt (head + 2 + first.length) [.jump head])
    (body : ∀ others : Slots program,
      Holds setting context activation (⟨name, type, next + 1⟩ :: scope) (next + 2) others →
      Runs setting context activation least (⟨name, type, next + 1⟩ :: scope) (next + 2) others
        (head + 2) first (⟨name, type, next + 1⟩ :: scope) after
        (flow (Scope.values (⟨name, type, next + 1⟩ :: scope) others))) :
    (rest : List (Twin program)) → {done : Nat} → items.drop done = rest →
    (others : Slots program) → Keeps scope next slots others →
    others[next]? = some (.cursor items done) → (world : TwinWorld program) →
    Meets program least (activation.state head others stack world) world
      (visit name type flow (rest.map meant) (scope.values others))
      (Flows setting context activation scope next slots scope after exit stack)
  | [], done, left, others, keeps, cursor, world => by
      have none : items[done]? = none := by
        rw [← Nat.add_zero done, ← List.getElem?_drop, left]
        rfl
      refine .iterExit has.head cursor none (.pure ⟨others, rfl, ?_, keeps, rfl⟩)
      exact holds.keep keeps (by omega)
  | item :: rest, done, left, others, keeps, cursor, world => by
      have here : items[done]? = some item := by
        rw [← Nat.add_zero done, ← List.getElem?_drop, left]
        rfl
      have left' : items.drop (done + 1) = rest := by
        rw [← List.drop_drop, left]
        rfl
      -- first the cursor is moved on, then the element gets the slot of the variable
      let held : Variable Nat := ⟨name, type, next + 1⟩
      let moved : Slots program := others.setIfInBounds next (.cursor items (done + 1))
      let entered : Slots program := moved.setIfInBounds held.holder item
      have extended : scope.Extends next (held :: scope) (next + 2) :=
        .declare held (Nat.le_succ next) (Nat.lt_succ_self _)
      have size : others.size = slots.size := keeps.size
      have keptMoved : Keeps scope next slots moved :=
        keeps.trans (.setIfInBounds (.inl (Nat.le_refl next)) _)
      have keptEntered : Keeps scope next slots entered :=
        keptMoved.trans (.setIfInBounds (.inl (Nat.le_succ next)) item)
      have holdsMoved := holds.keep keptMoved (Nat.le_succ next)
      have inside : held.holder < moved.size := by rwa [keptMoved.size]
      have here' : moved[next]? = some (.cursor items (done + 1)) :=
        Array.getElem?_setIfInBounds_self_of_lt (by omega)
      have environment : ⟨name, type, meant item⟩ :: scope.values others
          = Scope.values (held :: scope) entered := by
        rw [holdsMoved.values_declare (Nat.le_refl _) inside, Scope.values_setIfInBounds]
        exact fun other member ↦ Nat.ne_of_lt (holds.below other member)
      refine .iterNext has.head cursor here (.store has.tail inside ?_)
      rw [List.map_cons, visit, environment]
      refine .bind (body entered (holdsMoved.declare (Nat.le_refl _) (Nat.lt_succ_self _) item) has'
        stack world) ?_
      intro result world' state flows
      cases result with
      | left value => exact .pure flows
      | next environment' =>
          obtain ⟨lasts, rfl, -, keptLasts, rfl⟩ := flows
          -- the body has no variable in the slot of the cursor, so it has left it as it was
          have cursor' : lasts[next]? = some (.cursor items (done + 1)) := by
            rw [keptLasts.slots next (by omega), ← here']
            · exact Array.getElem?_setIfInBounds_ne (Nat.succ_ne_self next)
            · refine List.forall_mem_cons.mpr ⟨Nat.succ_ne_self next, fun other member ↦ ?_⟩
              exact Nat.ne_of_lt (holds.below other member)
          rw [Scope.length_values, extended.leaveScope]
          exact .jump jump (visits holds free later has has' jump body rest left' lasts
            (keptEntered.trans (keptLasts.outside extended)) cursor' world')

/-- A block is run for each element of an array or of a sequence. -/
theorem forEach {name : String} {type : Ty} {flow : Environment → Evaluation Flow}
    {caller : Caller}
    (answers : Answers program least (callDepth activation.waiting + 1) caller)
    (holds : Holds setting context activation scope next slots) (free : next + 1 < slots.size)
    (later : next + 2 ≤ after) (iterable : Computes activation least slots start code one)
    (body : ∀ others : Slots program,
      Holds setting context activation (⟨name, type, next + 1⟩ :: scope) (next + 2) others →
      Runs setting context activation least (⟨name, type, next + 1⟩ :: scope) (next + 2) others
        (start + code.length + 2 + 2) first (⟨name, type, next + 1⟩ :: scope) after
        (flow (Scope.values (⟨name, type, next + 1⟩ :: scope) others))) :
    Runs setting context activation least scope next slots start
      (code ++ [.iterStart, .store next,
          .iterNext next (start + code.length + 2 + first.length + 3), .store (next + 1)]
        ++ first ++ [.jump (start + code.length + 2)]) scope after (do
        let value ← one
        let elements ← elementsOf caller value
        visit name type flow elements (scope.values slots)) := by
  intro has stack world
  have behind := has.right
  obtain ⟨has, loop, has'⟩ := has.left.parts
  have length : start + (code ++ [Op.iterStart, Op.store next, Op.iterNext next
      (start + code.length + 2 + first.length + 3), Op.store (next + 1)] ++ first).length
      = start + code.length + 2 + 2 + first.length := by
    simp only [List.length_append, List.length_cons, List.length_nil]
    omega
  have finish : start + code.length + 2 + 2 + first.length + 1
      = start + code.length + 2 + first.length + 3 := by omega
  rw [length] at behind
  rw [length_snoc, length, finish]
  refine .bind (iterable has stack world) ?_
  rintro _ world' _ ⟨value, rfl, rfl⟩
  refine .bind (answers.elementsOf rfl loop.head value) ?_
  rintro _ world'' _ ⟨items, rfl, rfl⟩
  refine .store loop.tail.head (by omega) ?_
  have keeps : Keeps scope next slots (slots.setIfInBounds next (.cursor items 0)) :=
    .setIfInBounds (.inl (Nat.le_refl next)) _
  -- the cursor is in a slot of no variable
  have same : scope.values slots = scope.values (slots.setIfInBounds next (.cursor items 0)) :=
    (Scope.values_setIfInBounds (fun other member ↦ Nat.ne_of_lt (holds.below other member)) _).symm
  rw [same]
  exact visits holds free later loop.tail.tail has' behind body items rfl _ keeps
    (Array.getElem?_setIfInBounds_self_of_lt (by omega)) world''

end Runs

end GuestScript.Meaning
