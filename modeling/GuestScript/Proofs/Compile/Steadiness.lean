import GuestScript.Proofs.Compile.Accepted
import GuestScript.Proofs.Compile.Balance
import GuestScript.Proofs.Machine.Heights

/-!
# Compiled programs run steadily

Whatever an accepted program is given, and whatever types its text leaves open, its operand stack
has the same height wherever control comes to the same place, no instruction lacks operands, and
each loop finds its cursor. A fault comes from the values that the program works on, or is that of a
closure which is called with another number of arguments than it takes.
-/

namespace GuestScript

open Machine

/-- Every host function that may be used declares as many parameters as it takes arguments. -/
def ReferenceSet.IsTruthful (references : ReferenceSet) : Prop :=
  ∀ function, Meaning.Offered references function →
    function.parameters.length = function.action.arity

theorem ReferenceSet.isTruthful_of_forall {references : ReferenceSet}
    (each : ∀ binding ∈ references.entries, ∀ function ∈ binding.host.functions,
      function.parameters.length = function.action.arity) : references.IsTruthful := by
  rintro function ⟨qualifier, binding, name, known, found⟩
  exact each binding (mem_of_lookup? known).1 function (List.mem_of_find?_eq_some found)

/-- What an instruction names is given as many values as it takes. -/
theorem Bytecode.Op.supplies_of_links {program : Program} {references : ReferenceSet} {locals : Nat}
    (truthful : references.IsTruthful) (op : Bytecode.Op)
    (links : op.Links program references locals) : op.Supplies program := by
  cases op with
  | call callee count =>
      intro routine found
      obtain ⟨_, found', arity⟩ := links
      obtain rfl := Option.some.inj (found'.symm.trans found)
      exact arity.symm
  | callHost imported count =>
      intro host found
      obtain ⟨name, function, offered, found', count⟩ := links
      obtain rfl := Option.some.inj (found'.symm.trans found)
      exact count.trans (truthful function offered)
  | _ => exact trivial

/-- All paths through the code of a routine come to each position with the same number of operands,
and no instruction lacks any. -/
def Bytecode.Routine.KeepsHeights (routine : Bytecode.Routine) : Prop :=
  ∀ {position height : Nat}, routine.Path position height →
    (∀ {other : Nat}, routine.Path position other → height = other) ∧
      ∀ {op : Bytecode.Op}, routine.code[position]? = some op → op.operands ≤ height

/-- A running routine is one of the program. It has as many operands as a path to its next
instruction comes with, and if that is the next round of a loop there is a cursor in its slot. -/
structure Machine.State.KeepsHeights (program : Program) (state : State) : Prop where
  routine : ∀ {frame : Frame}, state.control = .run frame →
    frame.routine ∈ program.image.routines
  path : ∀ {frame : Frame}, state.control = .run frame →
    frame.routine.Path frame.position frame.stack.size
  cursor : ∀ {frame : Frame} {slot exit : Nat}, state.control = .run frame →
    frame.routine.code[frame.position]? = some (.iterNext slot exit) →
    ∃ items next, frame.locals[slot]? = some (.cursor items next)

theorem Machine.Steady.keepsHeights {program : Program} {state : State}
    (steady : Steady program state) : state.KeepsHeights program := by
  have fits {frame : Frame} (running : state.control = .run frame) : frame.Fits program := by
    have control := steady.fits.control
    rwa [running] at control
  refine ⟨fun running ↦ ?_, fun running ↦ ?_, fun running found ↦ ?_⟩
  · have grounded := steady.grounded.control
    rw [running] at grounded
    exact grounded.routine
  · obtain ⟨_, -, path, -⟩ := fits running
    exact path
  · obtain ⟨_, shaped, -, described⟩ := fits running
    obtain ⟨-, suits, -⟩ := shaped.2 found
    obtain ⟨_, held, items, next, rfl⟩ := described.cursors _ suits.cursors
    exact ⟨items, next, held⟩

namespace Compile

open Meaning
open Session (EntryRun Visits findEntry runEntry)
open Syntax (File)

variable {program : Program} {references : ReferenceSet} {file : File} {entry : EntryPoint}
  {owner : Bytecode.TypeIndex} {method : MethodInfo} {table : ModuleTable} {source : SourceUnit}

namespace Accepted

variable (accepted : Accepted program references file entry owner method)

include accepted

/-- Every routine of an accepted program is shaped. -/
theorem shapedRoutine {routine : Bytecode.Routine} (inside : routine ∈ program.image.routines) :
    ∃ shapes, routine.Shaped (Bytecode.Op.Links program references routine.locals) shapes := by
  obtain ⟨index, bound, rfl⟩ := Array.mem_iff_getElem.mp inside
  obtain ⟨_, found, shaped⟩ := shaped_of_routineCode accepted.code (accepted.routines index bound)
  obtain rfl := Option.some.inj ((Array.getElem?_eq_getElem bound).symm.trans found)
  exact shaped

/-- What gives fields their first values takes the new object. -/
theorem initializerArity {definition : Bytecode.TypeDefinition} {index : Bytecode.RoutineIndex}
    {routine : Bytecode.Routine} (inside : definition ∈ program.image.types)
    (starts : definition.initializer = some index)
    (found : program.image.routines[index]? = some routine) : routine.arity = 1 := by
  obtain ⟨type, bound, rfl⟩ := Array.mem_iff_getElem.mp inside
  have listed : type < (typesOf references file).length := accepted.code.size ▸ bound
  obtain ⟨_, here, code⟩ := accepted.code.type (List.getElem?_eq_getElem listed)
  obtain rfl := Option.some.inj ((Array.getElem?_eq_getElem bound).symm.trans here)
  have initializer := code.initializer
  rw [starts] at initializer
  obtain ⟨-, here, -⟩ := initializer
  obtain rfl := Option.some.inj (here.symm.trans found)
  rfl

theorem shaped (truthful : references.IsTruthful) : program.Shaped :=
  ⟨fun _ inside ↦
    let ⟨shapes, shaped⟩ := accepted.shapedRoutine inside
    ⟨shapes, shaped.mono (Bytecode.Op.supplies_of_links truthful)⟩,
  fun _ inside _ starts _ found ↦ accepted.initializerArity inside starts found⟩

/-- The entry is called with the arguments of the program, and on an instance if it is no static
function. -/
theorem callsExactly {arguments : List String} {console : Console} {start : State}
    (run : EntryRun program owner method.routine arguments console entry.binding start) :
    start.control.CallsExactly program := by
  obtain ⟨routine, found, arity⟩ := accepted.code.arity accepted.member
  have signature := accepted.signature
  simp only [hasEntrySignature, Bool.and_eq_true, decide_eq_true_eq] at signature
  rw [signature.1, List.length_singleton] at arity
  have binding := accepted.binding
  have exactly {arguments : List Value}
      (count : arguments.length = 1 + if method.isStatic then 0 else 1) :
      (Control.call method.routine arguments).CallsExactly program := by
    intro _ found'
    obtain rfl := Option.some.inj (found.symm.trans found')
    exact count.trans arity.symm
  -- on an instance, the run starts with the construction of it or with the call behind that
  cases static : method.isStatic with
  | true =>
      rw [static, if_pos rfl] at binding
      rw [binding] at run
      cases run
      exact exactly (by rw [static]; rfl)
  | false =>
      rw [static, if_neg Bool.false_ne_true] at binding
      rw [binding] at run
      cases run with
      | construct => exact trivial
      | method _ => exact exactly (by rw [static]; rfl)

/-- An entry is started in a state that keeps to the shapes. -/
theorem steady {arguments : List String} {console : Console} {start : State}
    (run : EntryRun program owner method.routine arguments console entry.binding start) :
    Steady program start := by
  obtain ⟨typeExists, routineExists⟩ := Session.findEntry_exists accepted.found
  refine ⟨run.grounded accepted.verified accepted.bound typeExists routineExists, ?_⟩
  generalize entry.binding = binding at run
  cases run <;> exact ⟨trivial, trivial⟩

end Accepted

/-- Running an entry of a program never touches the operand stack in another way than the code says,
whatever the arguments are. -/
structure RunsSteadily (program : Program) (entry : EntryPoint) : Prop where
  heights : ∀ routine ∈ program.image.routines, routine.KeepsHeights
  found : ∃ type routine, findEntry program.image entry = .ok (type, routine)
  states : ∀ (arguments : List String) (console : Console) {type : Bytecode.TypeIndex}
    {routine : Bytecode.RoutineIndex} {state : State},
    findEntry program.image entry = .ok (type, routine) →
    Visits program entry.binding type routine arguments console state → state.KeepsHeights program
  faults : ∀ (arguments : List String) (console : Console) {type : Bytecode.TypeIndex}
    {routine : Bytecode.RoutineIndex} {fuel : Nat} {fault : Fault} {world : World},
    findEntry program.image entry = .ok (type, routine) →
    runEntry fuel program entry.binding type routine arguments (.fresh console)
      = some ⟨.error fault, world⟩ →
    fault.isFromData ∨ (∃ name expected given, fault = .arity name expected given) ∧
      ∃ start, EntryRun program type routine arguments console entry.binding start ∧
        EndsCallingClosure program start ⟨.error fault, world⟩

/-- A compiled program that is linked against the host functions that it was compiled against runs
steadily. -/
theorem Built.runsSteadily (built : Built references table source file entry program)
    (truthful : references.IsTruthful) : RunsSteadily program entry := by
  obtain ⟨owner, method, accepted⟩ := built.accepted
  have shaped := accepted.shaped truthful
  refine ⟨fun routine inside ↦ ?_, ⟨owner, method.routine, accepted.found⟩, ?_, ?_⟩
  · obtain ⟨shapes, shaped⟩ := shaped.routine routine inside
    exact fun path ↦ ⟨shaped.path_unique path, shaped.operands_le path⟩
  · rintro arguments console type routine state found ⟨start, run, reached⟩
    obtain ⟨rfl, rfl⟩ := Prod.mk.inj (Except.ok.inj (found.symm.trans accepted.found))
    have steady := reached.steady shaped accepted.verified accepted.bound (accepted.steady run)
    exact steady.keepsHeights
  · intro arguments console type routine fuel fault world found ran
    obtain ⟨rfl, rfl⟩ := Prod.mk.inj (Except.ok.inj (found.symm.trans accepted.found))
    obtain ⟨start, run, ended⟩ := Session.ends_of_runEntry ran
    -- the run starts with a call of the right number of arguments, so a wrong one comes later
    have cases := (accepted.steady run).fault_cases shaped accepted.verified accepted.bound
      (accepted.callsExactly run) ended
    exact cases.imp_right fun ⟨arity, calling⟩ ↦ ⟨arity, start, run, calling⟩

/-- The program that writes its arguments runs steadily. -/
theorem Built.runsSteadily_echo : ∃ (file : File) (entry : EntryPoint) (program : Program),
    Built (Resolver.ofTable .standard []) .standard echoSource file entry program ∧
      RunsSteadily program entry := by
  obtain ⟨file, entry, program, built⟩ := built_echo
  have truthful : ReferenceSet.IsTruthful (Resolver.ofTable .standard []) :=
    ReferenceSet.isTruthful_of_forall (by decide +kernel)
  exact ⟨file, entry, program, built, built.runsSteadily truthful⟩

end Compile

end GuestScript
