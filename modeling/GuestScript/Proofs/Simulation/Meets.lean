import GuestScript.Proofs.Compile.Translation
import GuestScript.Proofs.Machine.Grounded
import GuestScript.Proofs.Machine.RecodedWorld
import GuestScript.Proofs.Machine.Runs

/-!
# Runs that do what an evaluation says

A `Translated` program is a linked one with the types that it is the translation of. The machine and
the evaluator have the same values but for what closures run. A `Pair` is a lambda with a routine that
has its code, and a value over pairs stands for a value of each side: `compiled` is that of the
machine and `meant` that of the evaluator.

`Meets program least state world evaluation Arrives` says that the machine does from a state what an
evaluation says: it ends with the same fault, or comes to a state in which it has the result. Where
the evaluation has no answer, the machine goes on for at least so many steps. The rules at the end
follow an evaluation through its binds and the machine through its steps.
-/

namespace GuestScript.Meaning

open Bytecode (RoutineIndex)
open Compile
open Machine

/-- A linked program with the types that it is the translation of. -/
structure Translated extends Program where
  references : ReferenceSet
  types : List TypeInfo
  code : TypesCode toProgram references types
  verified : toProgram.image.Verified

instance : Coe Translated Program :=
  ⟨Translated.toProgram⟩

/-- A lambda is one of the text, and its body works on an instance if that is among its copies. -/
structure Lambda.IsOf (program : Translated) (code : Lambda) : Prop where
  references : code.site.references = program.references
  types : code.site.types = program.types
  receiver : code.site.hasReceiver = code.setting.receiver.isSome

/-- A lambda of the text with a routine that has its code. -/
abbrev Pair (program : Translated) :=
  { pair : RoutineIndex × Lambda // LambdaCode program pair.1 pair.2 ∧ pair.2.IsOf program }

variable {program : Translated}

/-- The routine of a pair. -/
def Pair.routine (pair : Pair program) : RoutineIndex :=
  pair.1.1

/-- The lambda of a pair. -/
def Pair.lambda (pair : Pair program) : Lambda :=
  pair.1.2

/-- A value of both sides. -/
abbrev Twin (program : Translated) := ValueOver (Pair program)

/-- A world of both sides. -/
abbrev TwinWorld (program : Translated) := WorldOver (Pair program)

/-- A value as the machine has it. -/
abbrev compiled (value : Twin program) : Value :=
  value.recode Pair.routine

/-- A value as the evaluator has it. -/
abbrev meant (value : Twin program) : Datum :=
  value.recode Pair.lambda

/-- A world as the machine has it. -/
abbrev compiledWorld (world : TwinWorld program) : World :=
  world.recode Pair.routine

/-- A world as the evaluator has it. -/
abbrev meantWorld (world : TwinWorld program) : WorldOver Lambda :=
  world.recode Pair.lambda

namespace Evaluation

variable {Result Other : Type}

theorem bind_eq_none {evaluation : Evaluation Result} {next : Result → Evaluation Other}
    {world : WorldOver Lambda} (unanswered : evaluation world = none) :
    (evaluation >>= next) world = none := by
  simp only [bind, ExceptT.bind, ExceptT.mk, StateT.bind, unanswered, Option.bind_none]

theorem bind_eq_error {evaluation : Evaluation Result} {next : Result → Evaluation Other}
    {world after : WorldOver Lambda} {fault : Fault}
    (failed : evaluation world = some (.error fault, after)) :
    (evaluation >>= next) world = some (.error fault, after) := by
  simp only [bind, ExceptT.bind, ExceptT.mk, StateT.bind, failed, Option.bind_some]
  rfl

theorem bind_eq_of_ok {evaluation : Evaluation Result} {next : Result → Evaluation Other}
    {world after : WorldOver Lambda} {result : Result}
    (answered : evaluation world = some (.ok result, after)) :
    (evaluation >>= next) world = next result after := by
  simp only [bind, ExceptT.bind, ExceptT.mk, StateT.bind, answered, Option.bind_some]
  rfl

end Evaluation

/-- The machine does what an evaluation says. -/
inductive Meets (program : Translated) (least : Nat) (state : State) (world : TwinWorld program)
    {Result : Type} (evaluation : Evaluation Result)
    (Arrives : Result → TwinWorld program → State → Prop) : Prop where
  | unanswered :
      evaluation (meantWorld world) = none → CanTake program least state →
      Meets program least state world evaluation Arrives
  | fault {fault : Fault} {after : TwinWorld program} :
      evaluation (meantWorld world) = some (.error fault, meantWorld after) →
      Ends program state ⟨.error fault, compiledWorld after⟩ →
      Meets program least state world evaluation Arrives
  | result {result : Result} {after : TwinWorld program} {next : State} :
      evaluation (meantWorld world) = some (.ok result, meantWorld after) →
      Reaches program state next → Arrives result after next →
      Meets program least state world evaluation Arrives

namespace Meets

variable {least more : Nat} {state middle : State} {world : TwinWorld program}
  {Result Other : Type} {evaluation : Evaluation Result} {next : Result → Evaluation Other}
  {Arrives Weaker : Result → TwinWorld program → State → Prop}
  {Finally : Other → TwinWorld program → State → Prop}

theorem mono (meets : Meets program least state world evaluation Arrives)
    (weaken : ∀ result after next, Arrives result after next → Weaker result after next) :
    Meets program least state world evaluation Weaker := by
  cases meets with
  | unanswered none long => exact .unanswered none long
  | fault failed ends => exact .fault failed ends
  | result answered reached arrives => exact .result answered reached (weaken _ _ _ arrives)

theorem fewer (meets : Meets program more state world evaluation Arrives) (few : least ≤ more) :
    Meets program least state world evaluation Arrives := by
  cases meets with
  | unanswered none long => exact .unanswered none (long.mono few)
  | fault failed ends => exact .fault failed ends
  | result answered reached arrives => exact .result answered reached arrives

/-- What is met is what the evaluation does, however it is written and wherever it starts. -/
theorem congr {other : Evaluation Result} {start : TwinWorld program}
    (meets : Meets program least state start other Arrives)
    (same : evaluation (meantWorld world) = other (meantWorld start)) :
    Meets program least state world evaluation Arrives := by
  cases meets with
  | unanswered none long => exact .unanswered (same.trans none) long
  | fault failed ends => exact .fault (same.trans failed) ends
  | result answered reached arrives => exact .result (same.trans answered) reached arrives

/-- The machine may take steps before. -/
theorem after (reached : Reaches program state middle)
    (meets : Meets program least middle world evaluation Arrives) :
    Meets program least state world evaluation Arrives := by
  cases meets with
  | unanswered none long => exact .unanswered none (reached.canTake long)
  | fault failed ends => exact .fault failed (reached.ends_iff.mpr ends)
  | result answered reached' arrives => exact .result answered (reached.trans reached') arrives

/-- The machine may take a step before. -/
theorem step (taken : step program state = .running middle)
    (meets : Meets program least middle world evaluation Arrives) :
    Meets program least state world evaluation Arrives :=
  meets.after (.single taken)

/-- A step before counts. -/
theorem succ (taken : Machine.step program state = .running middle)
    (meets : Meets program least middle world evaluation Arrives) :
    Meets program (least + 1) state world evaluation Arrives := by
  cases meets with
  | unanswered none long => exact .unanswered none (.succ taken long)
  | fault failed ends => exact .fault failed ((Reaches.single taken).ends_iff.mpr ends)
  | result answered reached arrives =>
      exact .result answered ((Reaches.single taken).trans reached) arrives

/-- The machine may go on once it has the result. -/
theorem follow (meets : Meets program least state world evaluation Arrives)
    (goes : ∀ result after next, Arrives result after next →
      ∃ last, Reaches program next last ∧ Weaker result after last) :
    Meets program least state world evaluation Weaker := by
  cases meets with
  | unanswered none long => exact .unanswered none long
  | fault failed ends => exact .fault failed ends
  | result answered reached arrives =>
      obtain ⟨last, reached', arrives'⟩ := goes _ _ _ arrives
      exact .result answered (reached.trans reached') arrives'

theorem pure {result : Result} (arrives : Arrives result world state) :
    Meets program least state world (Pure.pure result) Arrives :=
  .result rfl (.refl state) arrives

/-- The machine ends with the fault that is settled. -/
theorem settled_error {fault : Fault}
    (ended : Machine.step program state = .ended ⟨.error fault, compiledWorld world⟩) :
    Meets program least state world (Evaluation.settled (.error fault)) Arrives :=
  .fault rfl (.of_step ended)

/-- What follows an evaluation is met by what follows its run. -/
theorem bind (first : Meets program least state world evaluation Arrives)
    (rest : ∀ result after middle, Arrives result after middle →
      Meets program least middle after (next result) Finally) :
    Meets program least state world (evaluation >>= next) Finally := by
  cases first with
  | unanswered none long => exact .unanswered (Evaluation.bind_eq_none none) long
  | fault failed ends => exact .fault (Evaluation.bind_eq_error failed) ends
  | result answered reached arrives =>
      exact (Meets.after reached (rest _ _ _ arrives)).congr (Evaluation.bind_eq_of_ok answered)

/-- What would follow does not matter once the machine has ended with a fault. -/
theorem error_bind {fault : Fault}
    (ended : Machine.step program state = .ended ⟨.error fault, compiledWorld world⟩) :
    Meets program least state world (Evaluation.settled (.error fault) >>= next) Finally :=
  .fault (Evaluation.bind_eq_error rfl) (.of_step ended)

end Meets

end GuestScript.Meaning
