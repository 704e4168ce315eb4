import GuestScript.Proofs.Machine.Grounded
import GuestScript.Proofs.Session.Linking
import GuestScript.Session.Invocation

/-!
# Runs of an entry

Invoking an entry starts the machine once, or twice for a method: to construct the object and, if
that ends with one, to call the method on it. `EntryRun` holds the starting states and `Visits` the
states that are reached from them. What is proved of these states and of how runs from them end is
proved of `Host.invoke`.
-/

namespace GuestScript

namespace Session

open Bytecode (Bytes Image Op RoutineIndex TypeIndex)
open Compile (EntryBinding EntryPoint)
open Machine

variable {program : Program} {binding : EntryBinding} {type : TypeIndex} {routine : RoutineIndex}
  {arguments : List String} {console : Console} {fuel : Nat} {ending : Ending} {state : State}

/-- The states in which the machine is started to run an entry. -/
inductive EntryRun (program : Program) (type : TypeIndex) (routine : RoutineIndex)
    (arguments : List String) (console : Console) : EntryBinding → State → Prop where
  | static :
      EntryRun program type routine arguments console .static
        ⟨.call routine [.array (arguments.map .str)], [], .fresh console⟩
  | construct :
      EntryRun program type routine arguments console .onInstance
        ⟨.construct type, [], .fresh console⟩
  | method {object : Value} {world : World} :
      Ends program ⟨.construct type, [], .fresh console⟩ ⟨.ok object, world⟩ →
      EntryRun program type routine arguments console .onInstance
        ⟨.call routine [object, .array (arguments.map .str)], [], world⟩

/-- The machine comes to a state when it runs an entry. -/
def Visits (program : Program) (binding : EntryBinding) (type : TypeIndex)
    (routine : RoutineIndex) (arguments : List String) (console : Console) (state : State) : Prop :=
  ∃ start, EntryRun program type routine arguments console binding start ∧
    Reaches program start state

/-- An entry ends as a run from one of the states in which it is started. -/
theorem ends_of_runEntry
    (ran : runEntry fuel program binding type routine arguments (.fresh console) = some ending) :
    ∃ start, EntryRun program type routine arguments console binding start ∧
      Ends program start ending := by
  cases binding with
  | static => exact ⟨_, .static, fuel, ran⟩
  | onInstance =>
      simp only [runEntry] at ran
      split at ran
      · rename_i object world constructed
        exact ⟨_, .method ⟨fuel, constructed⟩, fuel, ran⟩
      · exact ⟨_, .construct, fuel, ran⟩

/-- The arguments of a program refer to nothing. -/
theorem vector_over {Code : Type} {allowed : Code → Prop} (arguments : List String) :
    (ValueOver.array (arguments.map .str)).Over allowed := by
  rw [ValueOver.over_array]
  intro item member
  obtain ⟨text, _, rfl⟩ := List.mem_map.mp member
  exact ValueOver.over_str text

/-- The states in which an entry is started refer to nothing that is missing. -/
theorem EntryRun.grounded (verified : program.image.Verified)
    (linked : program.hosts.size = program.image.imports.size)
    (typeExists : type < program.image.types.size) (routineExists : program.HasRoutine routine)
    (start : EntryRun program type routine arguments console binding state) :
    state.Grounded program := by
  have constructs : State.Grounded program ⟨.construct type, [], .fresh console⟩ :=
    ⟨typeExists, nofun, WorldOver.over_fresh console⟩
  cases start with
  | static =>
      exact ⟨⟨routineExists, List.forall_mem_singleton.mpr (vector_over arguments)⟩, nofun,
        WorldOver.over_fresh console⟩
  | construct => exact constructs
  | @method object world constructed =>
      obtain ⟨fuel, ran⟩ := constructed
      obtain ⟨object', world'⟩ := run_grounded verified linked constructs ran
      have values := List.forall_mem_cons.mpr
        ⟨object', List.forall_mem_singleton.mpr (vector_over arguments)⟩
      exact ⟨⟨routineExists, values⟩, nofun, world'⟩

/-! ## What an entry refers to -/

/-- An entry is a routine of its name on the type of its name, bound the way it says. -/
theorem findEntry_eq_ok_iff {image : Image} {entry : EntryPoint} :
    findEntry image entry = .ok (type, routine) ↔
      image.findType? entry.fullTypeName = some type ∧
        image.findMethod? type entry.method = some routine ∧
        ∃ compiled, image.routines[routine]? = some compiled ∧
          bindingAgrees entry.binding compiled.binding = true := by
  simp only [findEntry]
  constructor
  · intro found
    split at found
    · exact absurd found nofun
    rename_i type' typeFound
    split at found
    · exact absurd found nofun
    rename_i index methodFound
    split at found
    · exact absurd found nofun
    rename_i compiled routineFound
    split at found
    · rename_i agrees
      obtain ⟨rfl, rfl⟩ := Prod.mk.inj (Except.ok.inj found)
      exact ⟨typeFound, methodFound, compiled, routineFound, agrees⟩
    · exact absurd found nofun
  · rintro ⟨typeFound, methodFound, compiled, routineFound, agrees⟩
    simp only [typeFound, methodFound, routineFound, if_pos agrees]

/-- The type and the routine of an entry exist. -/
theorem findEntry_exists {image : Image} {entry : EntryPoint}
    (found : findEntry image entry = .ok (type, routine)) :
    type < image.types.size ∧ routine < image.routines.size := by
  obtain ⟨typeFound, -, compiled, routineFound, -⟩ := findEntry_eq_ok_iff.mp found
  exact ⟨(Array.findIdx?_eq_some_iff_findIdx_eq.mp typeFound).1,
    (Array.getElem?_eq_some_iff.mp routineFound).1⟩

/-- An image that is decoded has passed the check. -/
theorem verify_of_decode {bytes : Bytes} {image : Image}
    (decoded : Image.decode bytes = .ok image) : image.verify = .ok () := by
  match bytes with
  | [] | [_] | [_, _] | [_, _, _] | [_, _, _, _] | [_, _, _, _, _] => exact absurd decoded nofun
  | _ :: _ :: _ :: _ :: _ :: _ :: payload =>
      simp only [Image.decode] at decoded
      split at decoded
      · exact absurd decoded nofun
      split at decoded
      · exact absurd decoded nofun
      simp only [Image.decodePayload] at decoded
      split at decoded
      · exact absurd decoded nofun
      split at decoded
      · exact absurd decoded nofun
      · rename_i passed
        rw [← Except.ok.inj decoded]
        exact passed

/-- A program that is made of bytes has a verified image, with a host function for each import. -/
theorem prepare_verified {table : ModuleTable} {bytes : Bytes}
    (prepared : prepare table bytes = .ok program) :
    program.image.Verified ∧ program.hosts.size = program.image.imports.size := by
  rw [prepare] at prepared
  split at prepared
  · exact absurd prepared nofun
  · split at prepared
    · exact absurd prepared nofun
    · rename_i image decoded
      obtain ⟨rfl, linked⟩ := link_image prepared
      exact ⟨Image.verified_of_verify (verify_of_decode decoded), linked⟩

/-! ## Loaded programs -/

/-- A host that loads bytes has a new context with the program that was made of them. -/
theorem Host.load_eq_ok {host loaded : Host} {bytes : Bytes} {key : ContextKey}
    (accepted : host.load bytes = (.ok key, loaded)) :
    ∃ context, loaded.context? key = some context ∧
      prepare host.table bytes = .ok context.program := by
  rw [Host.load] at accepted
  split at accepted
  · exact absurd (Prod.mk.inj accepted).1 nofun
  · rename_i program prepared
    simp only at accepted
    split at accepted
    · exact absurd (Prod.mk.inj accepted).1 nofun
    · obtain ⟨first, rfl⟩ := Prod.mk.inj accepted
      obtain rfl := Except.ok.inj first
      refine ⟨⟨(host.drawId .context).1, program, true, 1, 0⟩, ?_, prepared⟩
      simp only [Host.context?, Host.drawId]
      exact List.getElem?_concat_length

/-- An invocation that ends with a fault is a run of the entry that ends with it. -/
theorem Host.invoke_eq_fault {host after : Host} {key : ContextKey} {context : Context}
    {entry : EntryPoint} {name : String} {fault : Fault}
    (found : host.context? key = some context)
    (invoked : host.invoke fuel key entry arguments = some (.error (.runtime name fault), after)) :
    ∃ type routine world, findEntry context.program.image entry = .ok (type, routine) ∧
      runEntry fuel context.program entry.binding type routine arguments (.fresh host.console)
        = some ⟨.error fault, world⟩ := by
  simp only [Host.invoke, found] at invoked
  split at invoked
  case isFalse => exact absurd invoked nofun
  split at invoked
  · exact absurd invoked nofun
  rename_i type routine located
  split at invoked
  · exact absurd invoked nofun
  rename_i ending ran
  split at invoked
  · exact absurd invoked nofun
  · rename_i fault' failed
    obtain ⟨result, world⟩ := ending
    simp only [Option.some.injEq, Prod.mk.injEq, Except.error.injEq, InvokeError.runtime.injEq]
      at invoked failed
    obtain ⟨⟨-, rfl⟩, -⟩ := invoked
    subst failed
    exact ⟨type, routine, world, located, ran⟩

end Session

end GuestScript
