import GuestScript.Proofs.Compile.Accepted
import GuestScript.Proofs.Simulation.Calls

/-!
# Compilation preserves meaning

The entry of an accepted program ends with a value or a fault and an output exactly if the evaluator
does with the same: `runEntry_iff_program`. A run that ends within some steps has an answer from the
evaluator with as much fuel, since without one the machine would take more steps; and where the
evaluator has an answer the machine ends with it. Values are compared as they are shown, without
what closures run, which is a routine on one side and a lambda of the text on the other.
-/

namespace GuestScript

namespace Machine

/-- What can be seen of how a program ends: the value, without what closures run, or the fault; and
the console. -/
structure Observation where
  result : Except Fault (ValueOver Unit)
  console : Console

/-- What can be seen of an end. -/
def observed {Code : Type} (result : Except Fault (ValueOver Code)) (world : WorldOver Code) :
    Observation :=
  ⟨result.map (ValueOver.recode fun _ ↦ ()), world.console⟩

/-- What can be seen does not depend on what closures run. -/
theorem observed_recode {Code Other : Type} (change : Code → Other)
    (result : Except Fault (ValueOver Code)) (world : WorldOver Code) :
    observed (result.map (ValueOver.recode change)) (world.recode change)
      = observed result world := by
  cases result with
  | error fault => rfl
  | ok value =>
      simp only [observed, Except.map, ValueOver.recode_recode]
      rfl

end Machine

namespace Meaning

open Compile
open Machine
open Session (runEntry)

variable {program : Translated}

/-! ## Answers and endings -/

/-- The machine ends as the evaluator answers. -/
def Agrees (program : Translated) (ending : Ending)
    (answer : Except Fault Datum × WorldOver Lambda) : Prop :=
  ∃ (result : Except Fault (Twin program)) (world : TwinWorld program),
    ending = ⟨result.map compiled, compiledWorld world⟩ ∧
      answer = (result.map meant, meantWorld world)

theorem Agrees.observed_eq {ending : Ending} {answer : Except Fault Datum × WorldOver Lambda}
    (agrees : Agrees program ending answer) :
    observed ending.result ending.world = observed answer.1 answer.2 := by
  obtain ⟨result, world, rfl, rfl⟩ := agrees
  rw [observed_recode, observed_recode]

namespace Meets

variable {least fuel : Nat} {state : State} {world : TwinWorld program}
  {evaluation : Evaluation Datum} {ending : Ending}
  {answer : Except Fault Datum × WorldOver Lambda}

/-- The machine ends with the answer of the evaluator. -/
theorem ends (meets : Meets program least state world evaluation (IsAnswer []))
    (answered : evaluation (meantWorld world) = some answer) :
    ∃ ending, Ends program state ending ∧ Agrees program ending answer := by
  cases meets with
  | unanswered none _ => exact absurd (answered.symm.trans none) nofun
  | fault failed ends =>
      obtain rfl := Option.some.inj (answered.symm.trans failed)
      exact ⟨_, ends, .error _, _, rfl, rfl⟩
  | result answered' reached arrives =>
      obtain ⟨value, rfl, rfl⟩ := arrives
      obtain rfl := Option.some.inj (answered.symm.trans answered')
      exact ⟨_, reached.ends_iff.mpr (.of_step rfl), .ok value, _, rfl, rfl⟩

/-- The evaluator has an answer where the machine ends soon enough. -/
theorem answers (meets : Meets program fuel state world evaluation (IsAnswer []))
    (ran : run program fuel state = some ending) :
    ∃ answer, evaluation (meantWorld world) = some answer ∧ Agrees program ending answer := by
  cases answered : evaluation (meantWorld world) with
  | none =>
      cases meets with
      | unanswered _ long => exact absurd (long.lt_of_run ran) (Nat.lt_irrefl fuel)
      | fault failed _ => exact absurd (answered.symm.trans failed) nofun
      | result answered' _ _ => exact absurd (answered.symm.trans answered') nofun
  | some answer =>
      obtain ⟨other, ends, agrees⟩ := meets.ends answered
      obtain rfl := ends.unique ⟨fuel, ran⟩
      exact ⟨answer, rfl, agrees⟩

end Meets

end Meaning

namespace Compile.Accepted

open Bytecode (TypeIndex)
open Machine
open Meaning
open Session (runEntry)
open Syntax (File)

variable {program : Program} {references : ReferenceSet} {file : File} {entry : EntryPoint}
  {owner : TypeIndex} {method : MethodInfo}

/-! ## Entries of the machine -/

section Machine

variable {type : TypeIndex} {routine : Bytecode.RoutineIndex} {arguments : List String}
  {world after : World} {first second : Nat} {ending : Ending}

/-- An entry whose object cannot be made ends as the construction does. -/
theorem runEntry_error {fault : Fault}
    (constructed : run program first ⟨.construct type, [], world⟩ = some ⟨.error fault, after⟩) :
    runEntry first program .onInstance type routine arguments world
      = some ⟨.error fault, after⟩ := by
  simp only [runEntry, Program.construct, Program.perform, constructed]

/-- An entry ends as the call on the object that is made. -/
theorem runEntry_ok {object : Value}
    (constructed : run program first ⟨.construct type, [], world⟩ = some ⟨.ok object, after⟩)
    (called : run program second ⟨.call routine [object, .array (arguments.map .str)], [], after⟩
      = some ending) :
    runEntry (max first second) program .onInstance type routine arguments world = some ending := by
  have constructed' := run_mono constructed (Nat.le_max_left first second)
  simp only [runEntry, Program.construct, Program.call, Program.perform, constructed']
  exact run_mono called (Nat.le_max_right first second)

/-- An entry on an object ends as the construction or as the call. -/
theorem runEntry_cases {fuel : Nat}
    (ran : runEntry fuel program .onInstance type routine arguments world = some ending) :
    (∃ fault, ending.result = .error fault ∧
      run program fuel ⟨.construct type, [], world⟩ = some ending) ∨
    ∃ object after, run program fuel ⟨.construct type, [], world⟩ = some ⟨.ok object, after⟩ ∧
      run program fuel ⟨.call routine [object, .array (arguments.map .str)], [], after⟩
        = some ending := by
  simp only [runEntry, Program.construct, Program.call, Program.perform] at ran
  split at ran
  · next object after constructed => exact .inr ⟨object, after, constructed, ran⟩
  · next failed =>
      refine .inl ?_
      obtain ⟨result, after⟩ := ending
      cases result with
      | error fault => exact ⟨fault, rfl, ran⟩
      | ok object => exact absurd ran (failed object after)

end Machine

/-! ## Entries of accepted programs -/

/-- An accepted program with the types of its file. -/
def translated (accepted : Accepted program references file entry owner method) : Translated :=
  ⟨program, references, typesOf references file, accepted.code, accepted.verified⟩

/-- The arguments of a program, on both sides. -/
def vector (program : Translated) (arguments : List String) : Twin program :=
  .array (arguments.map .str)

theorem vector_recode {Code : Type} {program : Translated} (change : Pair program → Code)
    (arguments : List String) :
    (vector program arguments).recode change = .array (arguments.map .str) := by
  rw [vector, ValueOver.recode, recodeAll_eq_map, List.map_map]
  rfl

theorem meantWorld_fresh (program : Translated) (console : Console) :
    meantWorld (.fresh console : TwinWorld program) = .fresh console :=
  WorldOver.recode_fresh ..

theorem compiledWorld_fresh (program : Translated) (console : Console) :
    compiledWorld (.fresh console : TwinWorld program) = .fresh console :=
  WorldOver.recode_fresh ..

/-- The entry does what it means on a new object or without one. -/
theorem meets_entry (accepted : Accepted program references file entry owner method) (fuel : Nat)
    (receiver : List (Twin accepted.translated)) (arguments : List String)
    (world : TwinWorld accepted.translated) :
    Meets accepted.translated fuel
      ⟨.call method.routine (receiver.map compiled ++ [.array (arguments.map .str)]), [],
        compiledWorld world⟩ world
      (invoke references (typesOf references file) fuel 0 (.function owner method)
        (receiver.map meant ++ [.array (arguments.map .str)]))
      (IsAnswer []) := by
  obtain ⟨info, found, inside⟩ := accepted.member
  have called := answers_invoke accepted.translated fuel 0 (.function found inside)
    (receiver ++ [vector _ arguments]) world (rfl : callDepth [] = 0)
  rw [List.map_append, List.map_append, List.map_singleton, List.map_singleton, compiled, meant,
    vector_recode, vector_recode] at called
  exact called

/-- The object that the entry is called on is made as it is meant. -/
theorem meets_construct (accepted : Accepted program references file entry owner method) (fuel : Nat)
    (world : TwinWorld accepted.translated) :
    Meets accepted.translated fuel ⟨.construct owner, [], compiledWorld world⟩ world
      (construct (invoke references (typesOf references file) fuel 0) (typesOf references file)
        owner)
      (IsAnswer []) := by
  obtain ⟨info, found, -⟩ := accepted.member
  have answers : Answers accepted.translated fuel 0 _ := answers_invoke accepted.translated fuel 0
  exact answers.construct found rfl

theorem program_static (accepted : Accepted program references file entry owner method)
    (static : method.isStatic = true) (fuel : Nat) (arguments : List String) :
    Meaning.program references file fuel arguments
      = invoke references (typesOf references file) fuel 0 (.function owner method)
          [.array (arguments.map .str)] := by
  simp only [Meaning.program, accepted.starts, static, if_true]

theorem program_instance (accepted : Accepted program references file entry owner method)
    (instance' : method.isStatic = false) (fuel : Nat) (arguments : List String) :
    Meaning.program references file fuel arguments = (do
      let object ← construct (invoke references (typesOf references file) fuel 0)
        (typesOf references file) owner
      invoke references (typesOf references file) fuel 0 (.function owner method)
        [object, .array (arguments.map .str)]) := by
  simp only [Meaning.program, accepted.starts, instance', Bool.false_eq_true, if_false]

/-- The machine ends with the answer of the evaluator. -/
theorem runEntry_of_program (accepted : Accepted program references file entry owner method)
    {fuel : Nat} {arguments : List String} {console : Console}
    {answer : Except Fault Datum × WorldOver Lambda}
    (answered : Meaning.program references file fuel arguments (.fresh console) = some answer) :
    ∃ enough ending, runEntry enough program entry.binding owner method.routine arguments
        (.fresh console) = some ending ∧
      Agrees accepted.translated ending answer := by
  have binding := accepted.binding
  rw [← meantWorld_fresh accepted.translated] at answered
  cases static : method.isStatic with
  | true =>
      rw [accepted.program_static static] at answered
      rw [static, if_pos rfl] at binding
      obtain ⟨ending, ⟨enough, ran⟩, agrees⟩ :=
        (accepted.meets_entry fuel [] arguments (.fresh console)).ends answered
      rw [compiledWorld_fresh] at ran
      rw [binding]
      exact ⟨enough, ending, ran, agrees⟩
  | false =>
      rw [accepted.program_instance static] at answered
      rw [static, if_neg Bool.false_ne_true] at binding
      rw [binding]
      cases constructed : construct (invoke references (typesOf references file) fuel 0)
          (typesOf references file) owner (meantWorld (.fresh console)) with
      | none => exact absurd (answered.symm.trans (Evaluation.bind_eq_none constructed)) nofun
      | some object =>
          obtain ⟨_, ⟨first, ran⟩, result, world, rfl, rfl⟩ :=
            (accepted.meets_construct fuel (.fresh console)).ends constructed
          rw [compiledWorld_fresh] at ran
          cases result with
          | error fault =>
              rw [Evaluation.bind_eq_error constructed] at answered
              obtain rfl := Option.some.inj answered
              refine ⟨first, _, ?_, .error fault, world, rfl, rfl⟩
              exact runEntry_error ran
          -- the object and the call may need different fuel, and more than needed does no harm
          | ok object =>
              rw [Evaluation.bind_eq_of_ok constructed] at answered
              obtain ⟨ending, ⟨second, called⟩, agrees⟩ :=
                (accepted.meets_entry fuel [object] arguments world).ends answered
              exact ⟨max first second, ending, runEntry_ok ran called, agrees⟩

/-- The evaluator has an answer where the machine ends. -/
theorem program_of_runEntry (accepted : Accepted program references file entry owner method)
    {fuel : Nat} {arguments : List String} {console : Console} {ending : Ending}
    (ran : runEntry fuel program entry.binding owner method.routine arguments (.fresh console)
      = some ending) :
    ∃ answer, Meaning.program references file fuel arguments (.fresh console) = some answer ∧
      Agrees accepted.translated ending answer := by
  have binding := accepted.binding
  rw [← compiledWorld_fresh accepted.translated] at ran
  rw [← meantWorld_fresh accepted.translated]
  cases static : method.isStatic with
  | true =>
      rw [static, if_pos rfl] at binding
      rw [binding] at ran
      rw [accepted.program_static static]
      exact (accepted.meets_entry fuel [] arguments (.fresh console)).answers ran
  | false =>
      rw [static, if_neg Bool.false_ne_true] at binding
      rw [binding] at ran
      rw [accepted.program_instance static]
      obtain ⟨fault, failed, constructed⟩ | ⟨object, world, constructed, called⟩ :=
        runEntry_cases ran
      · obtain ⟨_, answered, result, after, rfl, rfl⟩ :=
          (accepted.meets_construct fuel (.fresh console)).answers constructed
        cases result with
        | ok value => exact absurd failed nofun
        | error fault =>
            exact ⟨_, Evaluation.bind_eq_error answered, .error fault, after, rfl, rfl⟩
      · obtain ⟨_, answered, result, after, same, rfl⟩ :=
          (accepted.meets_construct fuel (.fresh console)).answers constructed
        obtain ⟨result', rfl⟩ := Ending.mk.inj same
        cases result with
        | error fault => exact absurd result' nofun
        | ok value =>
            obtain rfl := Except.ok.inj result'
            rw [Evaluation.bind_eq_of_ok answered]
            exact (accepted.meets_entry fuel [value] arguments after).answers called

end Compile.Accepted

namespace Compile

open Machine
open Session (findEntry runEntry)
open Syntax (File)

variable {references : ReferenceSet} {table : ModuleTable} {source : SourceUnit} {file : File}
  {entry : EntryPoint} {program : Program}

/-- Compilation preserves meaning: whatever a program is given, its entry ends on the machine with
what can be seen of an end exactly if the evaluator of its text does. -/
theorem Built.runEntry_iff_program (built : Built references table source file entry program) :
    ∃ type routine, findEntry program.image entry = .ok (type, routine) ∧
      ∀ (arguments : List String) (console : Console) (seen : Observation),
        (∃ fuel ending,
          runEntry fuel program entry.binding type routine arguments (.fresh console)
              = some ending ∧
            observed ending.result ending.world = seen) ↔
        ∃ fuel result world,
          Meaning.program references file fuel arguments (.fresh console)
              = some (result, world) ∧
            observed result world = seen := by
  obtain ⟨owner, method, accepted⟩ := built.accepted
  refine ⟨owner, method.routine, accepted.found, fun arguments console seen ↦ ⟨?_, ?_⟩⟩
  · rintro ⟨fuel, ending, ran, rfl⟩
    obtain ⟨⟨result, world⟩, answered, agrees⟩ := accepted.program_of_runEntry ran
    exact ⟨fuel, result, world, answered, agrees.observed_eq.symm⟩
  · rintro ⟨fuel, result, world, answered, rfl⟩
    obtain ⟨enough, ending, ran, agrees⟩ := accepted.runEntry_of_program answered
    exact ⟨enough, ending, ran, agrees.observed_eq⟩

/-- What the entry of a program does that writes its arguments is what its text means. -/
theorem Built.runEntry_iff_program_echo :
    ∃ (file : File) (entry : EntryPoint) (program : Program),
      Built (Resolver.ofTable .standard []) .standard echoSource file entry program ∧
      ∃ type routine, findEntry program.image entry = .ok (type, routine) ∧
        ∀ (arguments : List String) (console : Console) (seen : Observation),
          (∃ fuel ending,
            runEntry fuel program entry.binding type routine arguments (.fresh console)
                = some ending ∧
              observed ending.result ending.world = seen) ↔
          ∃ fuel result world,
            Meaning.program (Resolver.ofTable .standard []) file fuel arguments (.fresh console)
                = some (result, world) ∧
              observed result world = seen := by
  obtain ⟨file, entry, program, built⟩ := built_echo
  exact ⟨file, entry, program, built, built.runEntry_iff_program⟩

end Compile

end GuestScript
