import GuestScript.Proofs.Session.EntryRuns

/-!
# Loaded images are safe to run

Whatever bytes a host has accepted, compiled or made by hand, running an entry of them never touches
a slot outside a frame and never ends with a fault that says that a routine, a type, an import or a
slot does not exist. This rests on the check that every decoded image has passed and on linking,
which binds a host function to each import.
-/

namespace GuestScript

namespace Bytecode

/-- The slot that an instruction reads or writes. -/
def Op.slot? : Op → Option Nat
  | .load slot | .store slot | .iterNext slot _ => some slot
  | _ => none

end Bytecode

open Bytecode (Bytes Image Op RoutineIndex TypeIndex)
open Compile (EntryPoint)
open Machine

/-- The next instruction of a running routine finds its slot in the frame. -/
def Machine.State.FindsSlot (state : State) : Prop :=
  ∀ {frame : Frame} {op : Op} {slot : Nat}, state.control = .run frame →
    frame.routine.code[frame.position]? = some op → op.slot? = some slot →
    slot < frame.locals.size

/-- In a grounded state the next instruction finds its slot. -/
theorem Machine.State.Grounded.findsSlot {program : Program} (verified : program.image.Verified)
    {state : State} (grounded : state.Grounded program) : state.FindsSlot := by
  intro frame op slot running fetched used
  have inside := grounded.control
  rw [running] at inside
  have refers := verified.code frame.routine inside.routine op (Array.mem_of_getElem? fetched)
  rw [inside.slots]
  cases op <;> simp only [Op.slot?, reduceCtorEq, Option.some.injEq] at used
  all_goals exact used ▸ refers

namespace Session

/-- Running an entry of a program is safe, whatever the entry and the arguments are: in every state
that is visited the next instruction finds its slot, and no invocation, in whatever state the host
is, ends with a fault that says that something does not exist. -/
structure RunsSafely (program : Program) : Prop where
  slots : ∀ (entry : EntryPoint) (arguments : List String) (console : Console)
    {type : TypeIndex} {routine : RoutineIndex} {state : State},
    findEntry program.image entry = .ok (type, routine) →
    Visits program entry.binding type routine arguments console state → state.FindsSlot
  faults : ∀ (entry : EntryPoint) (arguments : List String) {host after : Host}
    {key : ContextKey} {context : Context} {fuel : Nat} {name : String} {fault : Fault},
    host.context? key = some context → context.program = program →
    host.invoke fuel key entry arguments = some (.error (.runtime name fault), after) →
    fault.isDangling = false

/-- A program with a verified image and a host function for each import is safe to run. -/
theorem runsSafely_of_verified {program : Program} (verified : program.image.Verified)
    (linked : program.hosts.size = program.image.imports.size) : RunsSafely program := by
  have started {entry : EntryPoint} {arguments : List String} {console : Console}
      {type : TypeIndex} {routine : RoutineIndex} {start : State}
      (located : findEntry program.image entry = .ok (type, routine))
      (entryRun : EntryRun program type routine arguments console entry.binding start) :
      start.Grounded program := by
    obtain ⟨typeExists, routineExists⟩ := findEntry_exists located
    exact entryRun.grounded verified linked typeExists routineExists
  constructor
  · rintro entry arguments console type routine state located ⟨start, entryRun, reached⟩
    exact (reached.grounded verified linked (started located entryRun)).findsSlot verified
  · intro entry arguments host after key context fuel name fault found same invoked
    obtain ⟨type, routine, world, located, ran⟩ := Host.invoke_eq_fault found invoked
    rw [same] at located ran
    obtain ⟨start, entryRun, fuel', ended⟩ := ends_of_runEntry ran
    exact run_grounded verified linked (started located entryRun) ended

/-- Bytes that a host accepts are loaded as a program that is safe to run. -/
theorem Host.load_runsSafely {host loaded : Host} {bytes : Bytes} {key : ContextKey}
    (accepted : host.load bytes = (.ok key, loaded)) :
    ∃ context, loaded.context? key = some context ∧ RunsSafely context.program := by
  obtain ⟨context, known, prepared⟩ := Host.load_eq_ok accepted
  obtain ⟨verified, linked⟩ := prepare_verified prepared
  exact ⟨context, known, runsSafely_of_verified verified linked⟩

/-- An image with one static method, which reads and writes its only slot and returns it. -/
def oneSlotImage : Image :=
  ⟨"one-slot", #[], #[⟨"", "T", [], none, [0]⟩],
    #[⟨"main", some 0, .everyone, .static, 1, 1, #[.load 0, .store 0, .load 0, .ret]⟩], none⟩

/-- The bytes of this image are accepted, so the program that they are loaded as is safe to run. -/
theorem Host.load_runsSafely_oneSlotImage :
    ∃ context, ((Host.fresh .standard (.fixed "c") .empty).load oneSlotImage.encode).2.context? 0
      = some context ∧ RunsSafely context.program := by
  have accepted : ((Host.fresh .standard (.fixed "c") .empty).load oneSlotImage.encode).1
      = .ok 0 := by
    decide +kernel
  apply Host.load_runsSafely
  rw [← accepted]

end Session

end GuestScript
