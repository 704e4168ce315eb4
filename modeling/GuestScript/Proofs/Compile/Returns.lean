import GuestScript.Proofs.Compile.Accepted
import GuestScript.Proofs.Compile.Balance
import GuestScript.Proofs.Machine.Paths

/-!
# Returning on every path

Behind the body of every routine stand two instructions that answer unit. The check that a block
returns on every path is sound for the code of the block: `Returns` says that code never comes to its
end, in the sense that any number of operands may be assumed there. A path that came there would
have to come with each of these numbers. So a function that has to return a value, and a lambda whose
body is an expression or a block that passes the check, leave through a `return` or with the value
of the expression.
-/

namespace GuestScript.Meaning

open Bytecode (Op Routine RoutineIndex Segment Shape)
open Compile
open Machine (Program)
open Syntax

variable {program : Program} {references : ReferenceSet} {types : List TypeInfo} {locals : Nat}
  {cursors : List Nat}

/-! ## Pieces of bodies -/

/-- Code never comes to its end, so that any number of operands may be assumed there. -/
def Returns (program : Program) (references : ReferenceSet) (locals : Nat) (cursors : List Nat)
    (start : Nat) (code : List Op) : Prop :=
  ∀ labels height other, Segment (Op.Links program references locals) labels start code
    (.plain height cursors) (.plain other cursors)

section Pieces

variable {start : Nat} {code first second test inside instead : List Op}

theorem Balanced.returns (given : Balanced program references locals cursors start code 1) :
    Returns program references locals cursors start (code ++ [Op.ret]) :=
  fun labels height _ ↦ (given labels height).append rfl (.ret trivial)

/-- Code that comes to its end goes on with code that does not. -/
theorem Balanced.append_returns (before : Balanced program references locals cursors start first 0)
    (after : Returns program references locals cursors (start + first.length) second) :
    Returns program references locals cursors start (first ++ second) :=
  fun labels height other ↦ (before labels height).append rfl (after labels height other)

namespace Returns

/-- Nothing comes to the code behind. -/
theorem append (before : Returns program references locals cursors start first)
    (after : Balanced program references locals cursors (start + first.length) second 0) :
    Returns program references locals cursors start (first ++ second) :=
  fun labels height other ↦ (before labels height other).append rfl (after labels other)

/-- Neither side of a conditional comes to its end. -/
theorem ifElse (tested : Balanced program references locals cursors start test 1)
    (body : Returns program references locals cursors (start + test.length + 1) inside)
    (alternative : Returns program references locals cursors
      (start + test.length + inside.length + 2) instead) :
    Returns program references locals cursors start
      (test ++ [Op.jumpUnless (start + test.length + inside.length + 2)] ++ inside
        ++ [Op.jump (start + test.length + inside.length + 2 + instead.length)] ++ instead) := by
  intro labels height other
  let otherwise := start + test.length + inside.length + 2
  let ends := (otherwise + instead.length, Shape.plain other cursors) :: labels
  let known := (otherwise, Shape.plain height cursors) :: ends
  have entered : Segment (Op.Links program references locals) known start
      (test ++ [Op.jumpUnless otherwise]) (.plain height cursors) (.plain height cursors) :=
    (tested known height).append rfl (.jumpUnless trivial List.mem_cons_self)
  have taken : Segment (Op.Links program references locals) known start
      (test ++ [Op.jumpUnless otherwise] ++ inside ++ [Op.jump (otherwise + instead.length)])
      (.plain height cursors) (.plain height cursors) :=
    (entered.append (by simp; omega) (body known height other)).append rfl
      (.jump trivial (List.mem_cons_of_mem _ List.mem_cons_self))
  have whole := (taken.close (.inr ⟨by simp [otherwise]; omega, rfl⟩)).append
    (by simp; omega) (alternative ends height other)
  exact whole.close (.inr ⟨by simp [otherwise]; omega, rfl⟩)

end Returns

end Pieces

/-! ## Bodies -/

section Walk

variable {setting : Setting}

mutual

/-- The code of a block that returns never comes to its end. -/
theorem returns_block (code : TypesCode program references types) :
    (body : Block) → {cursors : List Nat} → {scope : Scope Nat} →
    {next number start after : Nat} → {emitted : List Op} → blockReturns body = true →
    Enclosed references types locals cursors setting scope next → after ≤ locals →
    BlockCode program setting scope next number body start emitted after →
    Returns program references locals cursors start emitted
  | .mk body _, _, _, _, _, _, _, _, returns, enclosed, bound, .mk inside =>
      returns_statements code body returns enclosed bound inside
termination_by structural body => body

theorem returns_statements (code : TypesCode program references types) :
    (body : List Statement) → {cursors : List Nat} → {scope inner : Scope Nat} →
    {next number start after : Nat} → {emitted : List Op} → anyReturns body = true →
    Enclosed references types locals cursors setting scope next → after ≤ locals →
    StatementsCode program setting scope next number body start emitted inner after →
    Returns program references locals cursors start emitted
  | [], _, _, _, _, _, _, _, _, returns, _, _, _ => absurd returns nofun
  | first :: rest, _, _, _, _, _, _, _, _, returns, enclosed, bound, .cons one others => by
      have early := Nat.le_trans (extends_of_statementsCode rest others).later bound
      have enclosed' := enclosed.follow (extends_of_statementCode first one) early
      -- the first statement that returns settles it, whatever comes before or behind
      rcases (Bool.or_eq_true _ _).mp returns with here | later
      · exact (returns_statement code first here enclosed early one).append
          (balanced_statements code rest enclosed' bound others)
      · exact (balanced_statement code first enclosed early one).append_returns
          (returns_statements code rest later enclosed' bound others)
termination_by structural body => body

theorem returns_statement (code : TypesCode program references types) :
    (one : Statement) → {cursors : List Nat} → {scope inner : Scope Nat} →
    {next number start after : Nat} → {emitted : List Op} → statementReturns one = true →
    Enclosed references types locals cursors setting scope next → after ≤ locals →
    StatementCode program setting scope next number one start emitted inner after →
    Returns program references locals cursors start emitted
  | .declare .., _, _, _, _, _, _, _, _, returns, _, _, _ => absurd returns nofun
  | .assign .., _, _, _, _, _, _, _, _, returns, _, _, _ => absurd returns nofun
  | .forEach .., _, _, _, _, _, _, _, _, returns, _, _, _ => absurd returns nofun
  | .whileLoop .., _, _, _, _, _, _, _, _, returns, _, _, _ => absurd returns nofun
  | .evaluate .., _, _, _, _, _, _, _, _, returns, _, _, _ => absurd returns nofun
  | .conditional test body other _, _, _, _, _, _, _, _, _, returns, enclosed, bound,
      translated => by
      obtain ⟨body', other'⟩ := (Bool.and_eq_true _ _).mp returns
      cases translated with
      | ifTrue => exact absurd other' nofun
      | ifElse _ translated _ inside instead =>
          have early := Nat.le_trans (le_of_alternativeCode other instead) bound
          have enclosed' := enclosed.later (le_of_blockCode body inside) early
          exact .ifElse (balanced_expression code enclosed test translated)
            (returns_block code body body' enclosed early inside)
            (returns_alternative code other other' enclosed' bound instead)
  | .returns none _, _, _, _, _, _, _, _, _, _, _, _, .returnNothing _ =>
      (Balanced.push .unit).returns
  | .returns (some value) _, _, _, _, _, _, _, _, _, _, enclosed, _, .returnValue translated _ =>
      (balanced_expression code enclosed value translated).returns
termination_by structural one => one

theorem returns_alternative (code : TypesCode program references types) :
    (other : Alternative) → {cursors : List Nat} → {scope : Scope Nat} →
    {next number start after : Nat} → {emitted : List Op} → alternativeReturns other = true →
    Enclosed references types locals cursors setting scope next → after ≤ locals →
    AlternativeCode program setting scope next number other start emitted after →
    Returns program references locals cursors start emitted
  | .absent, _, _, _, _, _, _, _, returns, _, _, _ => absurd returns nofun
  | .block body, _, _, _, _, _, _, _, returns, enclosed, bound, .block inside =>
      returns_block code body returns enclosed bound inside
  | .chain conditional, _, _, _, _, _, _, _, returns, enclosed, bound, .chain inside =>
      returns_statement code conditional returns enclosed bound inside
termination_by structural other => other

end

end Walk

/-- The body of a lambda is an expression, or a block that returns. -/
def bodyReturns : LambdaBody → Bool
  | .expression _ => true
  | .block body => blockReturns body

/-- The code of a body that returns never comes to its end. -/
theorem returns_body (code : TypesCode program references types) {setting : Setting}
    {scope : Scope Nat} {next number : Nat} {body : LambdaBody} {emitted : List Op}
    (returns : bodyReturns body = true)
    (enclosed : next ≤ locals → Enclosed references types locals [] setting scope next)
    (inside : BodyCode program setting scope next number body emitted locals) :
    Returns program references locals [] 0 emitted := by
  have enclosed := enclosed (slots_of_bodyCode inside).1
  cases inside with
  | expression value _ => exact (balanced_expression code enclosed _ value).returns
  | block inside => exact returns_block code _ returns enclosed (Nat.le_refl _) inside

/-! ## Paths -/

/-- No path comes to the end of code that never comes to its end. -/
theorem Returns.lt_of_path {routine : Routine} {body rest : List Op}
    (returns : Returns program references locals [] 0 body)
    (same : routine.code = (body ++ rest).toArray) {position height : Nat}
    (path : routine.Path position height) : position < body.length := by
  obtain ⟨shapes, before, behind, each⟩ := returns [] 0 0
  obtain ⟨shapes', before', behind', each'⟩ := returns [] 0 1
  rw [Nat.zero_add] at behind behind'
  -- at the end of the body, the two tables disagree about the number of operands
  have inside {target reached : Nat} (bound : target ≤ body.length)
      (one : (shapes target).height = reached) (other : (shapes' target).height = reached) :
      target < body.length := by
    rcases Nat.lt_or_eq_of_le bound with less | rfl
    · exact less
    · rw [behind] at one
      rw [behind'] at other
      exact absurd (one.trans other.symm) Nat.zero_ne_one
  have both : position < body.length ∧ (shapes position).height = height ∧
      (shapes' position).height = height := by
    induction path with
    | start =>
        have one : (shapes 0).height = 0 := by rw [before, Shape.plain]
        have other : (shapes' 0).height = 0 := by rw [before', Shape.plain]
        exact ⟨inside (Nat.zero_le _) one other, one, other⟩
    | @step position height target reached op _ found next ih =>
        obtain ⟨less, one, other⟩ := ih
        have here : body[position]? = some op := by
          rw [same, List.getElem?_toArray, List.getElem?_append_left less] at found
          exact found
        obtain ⟨-, suits, leads⟩ := each here
        obtain ⟨-, suits', leads'⟩ := each' here
        rw [Nat.zero_add] at suits suits' leads leads'
        obtain ⟨shape, led, height⟩ := Op.exists_leads suits (one.symm ▸ next)
        obtain ⟨shape', led', height'⟩ := Op.exists_leads suits' (other.symm ▸ next)
        obtain ⟨-, bound, provides⟩ | ⟨_, none, -⟩ := leads target shape led
        · obtain ⟨-, -, provides'⟩ | ⟨_, none, -⟩ := leads' target shape' led'
          · rw [Nat.zero_add] at bound
            have one := provides.height.symm.trans height
            have other := provides'.height.symm.trans height'
            exact ⟨inside bound one other, one, other⟩
          · exact absurd none List.not_mem_nil
        · exact absurd none List.not_mem_nil
  exact both.1

/-- A routine that has to return: that of a function whose result is neither unit nor left open, or
that of a lambda whose body returns. -/
inductive MustReturn (program : Program) (references : ReferenceSet) (types : List TypeInfo) :
    RoutineIndex → Prop where
  | method {owner : Bytecode.TypeIndex} {info : TypeInfo} {method : MethodInfo} :
      types[owner]? = some info → method ∈ info.methods → returnsNothing method.result = false →
      MustReturn program references types method.routine
  | lambda {index : RoutineIndex} {code : Lambda} :
      LambdaCode program index code → code.site.references = references →
      code.site.types = types → bodyReturns code.body = true →
      MustReturn program references types index

/-- A routine that has to return consists of a body that never comes to its end, and of what stands
behind every body. -/
theorem MustReturn.returns (code : TypesCode program references types) {index : RoutineIndex}
    (must : MustReturn program references types index) :
    ∃ routine body, program.image.routines[index]? = some routine ∧
      routine.code = (body ++ epilogue).toArray ∧
      Returns program references routine.locals [] 0 body := by
  cases must with
  | @method _ _ method here inside promises =>
      obtain ⟨_, -, type⟩ := code.type here
      obtain ⟨routine, named, checked, translated⟩ := type.method _ inside
      rw [promises, Bool.false_or] at checked
      have returns : bodyReturns (.block method.declaration.body) = true := checked
      exact ⟨_, _, routine, rfl,
        returns_body code returns (enclosed_method named) (.block translated)⟩
  | lambda translated references' types' returns =>
      obtain ⟨routine, inside⟩ := translated
      exact ⟨_, _, routine, rfl,
        returns_body code returns (enclosed_lambda references' types') inside⟩

end GuestScript.Meaning

namespace GuestScript.Compile

open Bytecode (Op Routine RoutineIndex)
open Machine
open Meaning
open Syntax (File)

variable {program : Program} {references : ReferenceSet} {types : List TypeInfo} {file : File}
  {table : ModuleTable} {source : SourceUnit}

/-- A routine has a frame in a state, which runs or waits. -/
def HasFrame (state : State) (frame : Frame) : Prop :=
  state.control = .run frame ∨ .routine frame ∈ state.waiting

/-- Routines that have to return do so before they come to what stands behind their bodies, whatever
is run, with which arguments and in which world. -/
structure ReturnsInside (program : Program) (references : ReferenceSet) (types : List TypeInfo) :
    Prop where
  exists_routine : ∀ {index : RoutineIndex}, MustReturn program references types index →
    ∃ routine, program.image.routines[index]? = some routine
  frames : ∀ {index : RoutineIndex} {routine : Routine} {control : Control} {world : World}
    {state : State} {frame : Frame}, MustReturn program references types index →
    program.image.routines[index]? = some routine → (∀ frame, control ≠ .run frame) →
    Reaches program ⟨control, [], world⟩ state → HasFrame state frame → frame.routine = routine →
    frame.position + epilogue.length < routine.code.size
  leaves : ∀ {index : RoutineIndex} {routine : Routine} {control : Control} {world after : World}
    {frame : Frame} {waiting : List Waiting} {value : Value},
    MustReturn program references types index →
    program.image.routines[index]? = some routine → (∀ frame, control ≠ .run frame) →
    Reaches program ⟨control, [], world⟩ ⟨.run frame, waiting, after⟩ → frame.routine = routine →
    step program ⟨.run frame, waiting, after⟩ = .running ⟨.answer value, waiting, after⟩ →
    routine.code[frame.position]? = some .ret

theorem frame_lt_of_mustReturn {index : RoutineIndex} {routine : Routine} {control : Control}
    {world : World} {state : State} {frame : Frame} (code : TypesCode program references types)
    (must : MustReturn program references types index)
    (found : program.image.routines[index]? = some routine)
    (starts : ∀ frame, control ≠ .run frame) (reached : Reaches program ⟨control, [], world⟩ state)
    (has : HasFrame state frame) (same : frame.routine = routine) :
    frame.position + epilogue.length < routine.code.size := by
  obtain ⟨_, body, found', text, returns⟩ := must.returns code
  have onPaths := reached.onPaths (.of_started starts)
  have path : ∃ height, frame.routine.Path frame.position height := by
    rcases has with running | waits
    · exact ⟨_, onPaths.running frame running⟩
    · exact ⟨_, onPaths.waiting frame waits⟩
  obtain rfl := Option.some.inj (found'.symm.trans found)
  obtain ⟨height, path⟩ := path
  have less := returns.lt_of_path text (same ▸ path)
  rw [text, List.size_toArray, List.length_append]
  omega

/-- A frame that answers runs a return, unless it has run out of instructions. -/
theorem ret_of_answer {frame : Frame} {waiting : List Waiting} {world after : World} {value : Value}
    (inside : frame.position < frame.routine.code.size)
    (answers : step program ⟨.run frame, waiting, world⟩ = .running ⟨.answer value, waiting, after⟩) :
    frame.routine.code[frame.position]? = some .ret := by
  obtain ⟨routine, position, locals, ⟨operands⟩⟩ := frame
  have found : routine.code[position]? = some routine.code[position] :=
    Array.getElem?_eq_getElem inside
  simp only [step, runFrame, found, Frame.goTo] at answers
  rw [found]
  cases executed : execute program world ⟨routine, position + 1, locals, ⟨operands⟩⟩
      routine.code[position] with
  | mk outcome world' =>
      rw [executed] at answers
      cases outcome with
      | error fault => cases answers
      | ok effect =>
          cases effect with
          | next frame => cases answers
          | await frame control =>
              have longer := congrArg List.length (State.mk.inj (Step.running.inj answers)).2.1
              exact absurd longer (Nat.succ_ne_self _)
          | leave value' => exact congrArg some (followsFrom_of_execute executed)

/-- Routines of a compiled program that have to return do so inside their bodies. -/
theorem returnsInside_of_code (code : TypesCode program references types) :
    ReturnsInside program references types where
  exists_routine must := by
    obtain ⟨routine, -, found, -⟩ := must.returns code
    exact ⟨routine, found⟩
  frames must found starts reached has same :=
    frame_lt_of_mustReturn code must found starts reached has same
  leaves must found starts reached same answers := by
    have less := frame_lt_of_mustReturn code must found starts reached (.inl rfl) same
    subst same
    exact ret_of_answer (Nat.lt_of_le_of_lt (Nat.le_add_right _ _) less) answers

/-- A compiled program returns inside the bodies of its routines that have to return. -/
theorem LinkedFrom.returnsInside (linked : LinkedFrom references table source file program) :
    ReturnsInside program references (typesOf references file) :=
  returnsInside_of_code linked.compiledFrom.code

/-- A program that answers a number. -/
def answerSource : SourceUnit :=
  ⟨"type P { static fn main(args: [str]) -> int { return 0; } }", .v2⟩

theorem LinkedFrom.returnsInside_answer : ∃ file program,
    LinkedFrom (Resolver.ofTable .standard []) .standard answerSource file program ∧
      (∃ index, MustReturn program (Resolver.ofTable .standard [])
        (typesOf (Resolver.ofTable .standard []) file) index) ∧
      ReturnsInside program (Resolver.ofTable .standard [])
        (typesOf (Resolver.ofTable .standard []) file) := by
  let promises : File × EntryPoint × Program → Bool := fun (file, _, _) ↦
    (typesOf (Resolver.ofTable .standard []) file).any fun info ↦
      info.methods.any fun method ↦ !returnsNothing method.result
  have passes : (build? (Resolver.ofTable .standard []) .standard answerSource).any promises
      = true := by
    decide +kernel
  obtain ⟨file, entry, program, built, passes⟩ := exists_built_of_any passes
  obtain ⟨info, inside, method, member, promised⟩ :
      ∃ info ∈ typesOf (Resolver.ofTable .standard []) file, ∃ method ∈ info.methods,
        returnsNothing method.result = false := by
    simpa only [promises, List.any_eq_true, Bool.not_eq_true'] using passes
  obtain ⟨owner, here⟩ := List.getElem?_of_mem inside
  exact ⟨file, program, built.linkedFrom, ⟨_, .method here member promised⟩,
    built.linkedFrom.returnsInside⟩

/-! ## Lambdas with a block -/

/-- Whether the first function starts with a variable for a lambda with a block that is to be a
function with a result. -/
def startsWithLambda (references : ReferenceSet) (types : List TypeInfo) : Bool :=
  match types with
  | [] => false
  | info :: _ =>
      match info.methods with
      | [] => false
      | method :: _ =>
          match method.declaration.body with
          | .mk (.declare _ (some written) (.lambda [_] (.block _) _) _ :: _) _ =>
              match (settingOf references types 0 info).site.meant written with
              | .function [_] result => !returnsNothing result && method.routine = 0
              | _ => false
          | _ => false

/-- The first function makes the closure of such a lambda with its first instructions. -/
theorem lambda_of_startsWithLambda (code : TypesCode program references types)
    (starts : startsWithLambda references types = true) :
    ∃ index lambda, LambdaCode program index lambda ∧ returnsNothing lambda.site.result = false ∧
      ∃ (slots : List Nat) (routine : Routine) (rest : List Op),
        program.image.routines[0]? = some routine ∧
        routine.code = (slots.map Op.load ++ [Op.makeClosure index slots.length] ++ rest).toArray := by
  unfold startsWithLambda at starts
  split at starts
  · exact absurd starts nofun
  next info others =>
    split at starts
    · exact absurd starts nofun
    next method more listed =>
      split at starts
      case h_2 => exact absurd starts nofun
      next name written parameter inner spans outer statements span body =>
        split at starts
        case h_2 => exact absurd starts nofun
        next wanted result meant =>
          simp only [Bool.and_eq_true, Bool.not_eq_true', decide_eq_true_eq] at starts
          obtain ⟨promises, first⟩ := starts
          obtain ⟨_, -, type⟩ := code.type (List.getElem?_cons_zero)
          obtain ⟨routine, -, -, inside⟩ := type.method method (listed ▸ List.mem_cons_self)
          rw [body] at inside
          cases inside with
          | mk inside =>
              cases inside with
              | @cons _ _ _ _ _ _ _ _ _ _ later _ _ one _ =>
                  cases one with
                  | declare translated _ =>
                      cases translated with
                      | @lambda _ _ _ _ _ _ _ _ _ copies _ translated =>
                          let slot := method.parameters.length + if method.isStatic then 0 else 1
                          refine ⟨_, _, translated, ?_, copies.map Variable.holder, _,
                            [Op.store slot] ++ later ++ epilogue, first ▸ routine, ?_⟩
                          · have signature : (lambdaSignature 1
                                (some ((settingOf references (info :: others) 0 info).site.meant
                                  written))).2 = result := by
                              rw [meant]
                              rfl
                            exact (congrArg returnsNothing signature).trans promises
                          · rw [List.map_map, List.length_map]
                            simp only [List.append_assoc]
                            rfl

/-- The state after so many steps, if the machine does not end before. -/
def stateAfter (program : Program) : Nat → State → Option State
  | 0, state => some state
  | count + 1, state =>
      match step program state with
      | .running following => stateAfter program count following
      | .ended _ => none

theorem takes_of_stateAfter {count : Nat} {state last : State}
    (after : stateAfter program count state = some last) : Takes program count state last := by
  induction count generalizing state with
  | zero =>
      cases after
      exact .zero _
  | succ count ih =>
      rw [stateAfter] at after
      split at after
      · next taken => exact .succ taken (ih after)
      · cases after

/-- Lambdas that are to be functions with a result return inside their bodies. -/
def LambdasReturnInside (program : Program) : Prop :=
  ∀ {index : RoutineIndex} {lambda : Lambda} {routine : Routine} {control : Control} {world : World}
    {state : State} {frame : Frame}, LambdaCode program index lambda →
    returnsNothing lambda.site.result = false →
    program.image.routines[index]? = some routine → (∀ frame, control ≠ .run frame) →
    Reaches program ⟨control, [], world⟩ state → HasFrame state frame → frame.routine = routine →
    frame.position + epilogue.length < routine.code.size

/-- A program with a lambda that is to be a function to numbers and has no statements. -/
def resultlessSource : SourceUnit :=
  ⟨"type P { static fn main(a: [str]) -> int { let f: fn(int) -> int = |x| { }; return f(1) + 1; } }",
    .v2⟩

/-- Whether a run is in the code that ends every routine, in the first lambda of the program. -/
def endsLambda (program : Program) (state : State) : Bool :=
  match state.control with
  | .run frame => program.image.routines[1]? = some frame.routine &&
      decide (frame.routine.code.size ≤ frame.position + epilogue.length)
  | _ => false

/-- The block of a lambda is not checked as that of a function is. -/
theorem not_lambdasReturnInside_resultless : ∃ file entry program,
    Built (Resolver.ofTable .standard []) .standard resultlessSource file entry program ∧
      ¬ LambdasReturnInside program := by
  let start : State := ⟨.call 0 [.array []], [], .fresh .empty⟩
  let check : File × EntryPoint × Program → Bool := fun built ↦
    startsWithLambda (Resolver.ofTable .standard [])
        (typesOf (Resolver.ofTable .standard []) built.1) &&
      (built.2.2.image.routines[0]?).any fun routine ↦
        routine.code[0]? = some (.makeClosure 1 0) &&
          (stateAfter built.2.2 7 start).any (endsLambda built.2.2)
  have passes : (build? (Resolver.ofTable .standard []) .standard resultlessSource).any check
      = true := by
    decide +kernel
  obtain ⟨file, entry, program, built, passes⟩ := exists_built_of_any passes
  refine ⟨file, entry, program, built, fun inside ↦ ?_⟩
  obtain ⟨_, _, accepted⟩ := built.accepted
  simp only [check, Bool.and_eq_true, Option.any_eq_true, decide_eq_true_eq] at passes
  obtain ⟨starts, _, here, makes, last, after, running⟩ := passes
  obtain ⟨index, lambda, translated, promises, slots, routine, rest, found, code⟩ :=
    lambda_of_startsWithLambda accepted.code starts
  obtain rfl := Option.some.inj (here.symm.trans found)
  have same : index = 1 := by
    rw [code] at makes
    cases slots with
    | nil => exact (Op.makeClosure.inj (Option.some.inj makes)).1
    | cons slot others => cases Option.some.inj makes
  subst same
  unfold endsLambda at running
  split at running
  · next frame control =>
      simp only [Bool.and_eq_true, decide_eq_true_eq] at running
      obtain ⟨here, behind⟩ := running
      have reached : Reaches program ⟨.call 0 [.array []], [], .fresh .empty⟩ last :=
        ⟨7, takes_of_stateAfter after⟩
      have starts : ∀ frame, Control.call 0 [.array []] ≠ .run frame := fun _ same ↦ by cases same
      have less := inside translated promises here starts reached (.inl control) rfl
      omega
  · cases running

end GuestScript.Compile
