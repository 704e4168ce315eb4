import GuestScript.Proofs.Meaning.Termination
import GuestScript.Proofs.Session.Links
import GuestScript.Proofs.Simulation.Programs

/-!
# Programs without `while` end

Invoking the entry of a compiled source without `while` takes finitely many steps and ends with a
value or with a fault, whatever recursion, loops over elements, closures and sequences it uses:
`Host.invoke_terminates`. The evaluator has an answer with fuel for one more call than may be active,
and the machine ends as it does.
-/

namespace GuestScript

namespace Compile.Accepted

open Bytecode (TypeIndex)
open Machine
open Meaning
open Session (runEntry)
open Syntax (File)

variable {program : Program} {references : ReferenceSet} {file : File} {entry : EntryPoint}
  {owner : TypeIndex} {method : MethodInfo}

/-- The calls of a program without `while` are answered. -/
theorem serves (accepted : Accepted program references file entry owner method)
    (free : file.isWhileFree = true) :
    Serves (Callee.IsWhileFree accepted.translated)
      (invoke references (typesOf references file) (maxCallDepth + 1) 0) := by
  have whole : accepted.translated.IsWhileFree := fun _ inside ↦ whileFree_typesOf free inside
  exact serves_invoke whole (maxCallDepth + 1) 0 (Nat.lt_succ_self maxCallDepth)

/-- A program without `while` has a value or ends with a fault. -/
theorem hasValue_program (accepted : Accepted program references file entry owner method)
    (free : file.isWhileFree = true) (arguments : List String) :
    HasValue accepted.translated
      (Meaning.program references file (maxCallDepth + 1) arguments) := by
  have serves := accepted.serves free
  have good : Callee.IsWhileFree accepted.translated (.function owner method) :=
    .of_member accepted.member
  have vector : (ValueOver.array (arguments.map .str)).Over (Allowed accepted.translated) :=
    Session.vector_over arguments
  cases static : method.isStatic with
  | true =>
      rw [accepted.program_static static]
      exact serves.answers good (List.forall_mem_singleton.mpr vector)
  | false =>
      obtain ⟨info, found, -⟩ := accepted.member
      rw [accepted.program_instance static]
      refine .bind (serves.construct found fun some ↦ .of_fields found some) fun object kept ↦ ?_
      exact serves.answers good
        (List.forall_mem_cons.mpr ⟨kept, List.forall_mem_singleton.mpr vector⟩)

/-- The entry of a program without `while` ends on the machine. -/
theorem runEntry_ends (accepted : Accepted program references file entry owner method)
    (free : file.isWhileFree = true) (arguments : List String) (console : Console) :
    ∃ steps ending, runEntry steps program entry.binding owner method.routine arguments
      (.fresh console) = some ending := by
  obtain ⟨_, _, answered, -, -⟩ :=
    (accepted.hasValue_program free arguments).answers (WorldOver.over_fresh console)
  obtain ⟨steps, ending, ran, -⟩ := accepted.runEntry_of_program answered
  exact ⟨steps, ending, ran⟩

end Compile.Accepted

namespace Session

open Bytecode (Fit RoutineIndex TypeIndex)
open Compile
open Machine (Ending Fault Program World)
open Syntax (File)

/-- More fuel than an entry needs does no harm. -/
theorem runEntry_mono {fuel more : Nat} {program : Program} {binding : EntryBinding}
    {type : TypeIndex} {routine : RoutineIndex} {arguments : List String} {world : World}
    {ending : Ending}
    (ran : runEntry fuel program binding type routine arguments world = some ending)
    (enough : fuel ≤ more) :
    runEntry more program binding type routine arguments world = some ending := by
  cases binding with
  | static => exact Machine.run_mono ran enough
  | onInstance =>
      obtain ⟨fault, failed, constructed⟩ | ⟨object, after, constructed, called⟩ :=
        Accepted.runEntry_cases ran
      · obtain ⟨result, after⟩ := ending
        obtain rfl : result = .error fault := failed
        exact Accepted.runEntry_error (Machine.run_mono constructed enough)
      · have both := Accepted.runEntry_ok (Machine.run_mono constructed enough)
          (Machine.run_mono called enough)
        rwa [Nat.max_self] at both

/-- An invocation of an entry has run it, and ends with what it returned or with its fault. -/
inductive EndsEntry (entry : EntryPoint) : Except InvokeError (Option Int64) → Prop where
  | value (returned : Option Int64) : EndsEntry entry (.ok returned)
  | fault (fault : Fault) :
      EndsEntry entry (.error (.runtime (entry.fullTypeName ++ "." ++ entry.method) fault))

variable {references : ReferenceSet} {options : CompileOptions} {unitName : String}
  {source : SourceUnit} {file : File} {result : CompilationResult} {entry : EntryPoint}
  {host : Host} {key : ContextKey} {context : Context}

/-- An invocation in a loaded context ends as the entry that it finds, with any fuel with which the
entry does. -/
theorem Host.exists_endsEntry {type : TypeIndex} {routine : RoutineIndex} {arguments : List String}
    (here : host.context? key = some context) (loaded : context.isLoaded = true)
    (found : findEntry context.program.image entry = .ok (type, routine)) (ending : Ending) :
    ∃ outcome, EndsEntry entry outcome ∧ ∀ {fuel : Nat},
      runEntry fuel context.program entry.binding type routine arguments (.fresh host.console)
        = some ending →
      host.invoke fuel key entry arguments
        = some (outcome, { host with console := ending.world.console }) := by
  obtain ⟨result, world⟩ := ending
  cases result with
  | ok value =>
      refine ⟨_, .value (exitValue value), fun ran ↦ ?_⟩
      simp only [invoke, here, loaded, if_true, found, ran]
  | error fault =>
      refine ⟨_, .fault fault, fun ran ↦ ?_⟩
      simp only [invoke, here, loaded, if_true, found, ran]

/-- A source without `while` that compiles to a program ends: in every context that the program has
been loaded into, and on whatever arguments, invoking the entry takes finitely many steps and gives a
value or a fault. Host functions are those that the source was compiled against, with types that are
no mistakes, and positions and lengths are such as eight bytes hold. -/
theorem Host.invoke_terminates (proper : references.IsProper)
    (offers : host.table.Offers references) (parsed : Syntax.parse source = .ok file)
    (free : file.isWhileFree = true)
    (compiled : Compilation.compile options unitName source file references = .ok result)
    (starts : result.entry = some entry)
    (fits : Fit (compileUnit references options.kind unitName file).image.numbers)
    (here : host.context? key = some context) (loaded : context.isLoaded = true)
    (prepared : prepare host.table result.image = .ok context.program) (arguments : List String) :
    ∃ steps outcome after, EndsEntry entry outcome ∧
      ∀ fuel, steps ≤ fuel → host.invoke fuel key entry arguments = some (outcome, after) := by
  obtain rfl | ⟨-, passed, rfl⟩ := outcome_of_compile compiled
  · exact absurd starts nofun
  have linked := (prepare_encode fits passed).symm.trans prepared
  obtain ⟨owner, method, accepted⟩ :=
    accepted_of_compile proper offers parsed compiled starts linked
  obtain ⟨steps, ending, ran⟩ := accepted.runEntry_ends free arguments host.console
  obtain ⟨outcome, ends, invoked⟩ := Host.exists_endsEntry here loaded accepted.found ending
  exact ⟨steps, outcome, _, ends, fun fuel enough ↦ invoked (runEntry_mono ran enough)⟩

/-- A program that writes its arguments and starts over. -/
def againSource : SourceUnit :=
  ⟨"type P { static fn main(args: [str]) { for a in args { io::print_line(a); } main(args); } }",
    .v2⟩

/-- The program that writes its arguments and starts over ends, wherever it has been loaded. -/
theorem Host.invoke_terminates_again : ∃ file result entry loaded,
    Syntax.parse againSource = .ok file ∧ file.isWhileFree = true ∧
      Compilation.compile {} "c" againSource file (Resolver.ofTable .standard []) = .ok result ∧
      result.entry = some entry ∧
      (Host.fresh .standard (.fixed "c") .empty).load result.image = (.ok 0, loaded) ∧
      ∀ arguments, ∃ steps outcome after, EndsEntry entry outcome ∧
        ∀ fuel, steps ≤ fuel → loaded.invoke fuel 0 entry arguments = some (outcome, after) := by
  let references := Resolver.ofTable .standard []
  have checked : (Syntax.parse againSource).toOption.any (fun file ↦
      let image := (compileUnit references .executable "c" file).image
      file.isWhileFree && Fit image.numbers && (link .standard image).toOption.isSome &&
        (Compilation.compile {} "c" againSource file references).toOption.any
          fun result ↦ result.entry.isSome) = true := by
    decide +kernel
  obtain ⟨file, here, checked⟩ := (Option.any_eq_true _ _).mp checked
  simp only [Bool.and_eq_true, decide_eq_true_eq] at checked
  obtain ⟨⟨⟨free, fits⟩, links⟩, compiles⟩ := checked
  obtain ⟨result, compiles, described⟩ := (Option.any_eq_true _ _).mp compiles
  obtain ⟨program, linked⟩ := Option.isSome_iff_exists.mp links
  obtain ⟨entry, starts⟩ := Option.isSome_iff_exists.mp described
  have parsed : Syntax.parse againSource = .ok file := eq_ok_of_toOption here
  have compiled := eq_ok_of_toOption compiles
  have proper : references.IsProper := ReferenceSet.isProper_of_forall (by decide +kernel)
  have offers : ModuleTable.standard.Offers references :=
    (Resolver.drawnFrom_ofTable .standard []).offers
  have prepared : prepare .standard result.image = .ok program := by
    obtain rfl | ⟨-, passed, rfl⟩ := outcome_of_compile compiled
    · exact absurd starts nofun
    · exact (prepare_encode fits passed).trans (eq_ok_of_toOption linked)
  let host : Host := .fresh .standard (.fixed "c") .empty
  have accepted : host.load result.image
      = (.ok 0, (host.drawId .context).2.sweep.enroll ⟨"c", program, true, 1, 0⟩) := by
    rw [load_of_prepared prepared]
    exact if_neg (by rw [Host.live_fresh]; exact List.not_mem_nil)
  exact ⟨file, result, entry, _, parsed, free, compiled, starts, accepted, fun arguments ↦
    Host.invoke_terminates proper offers parsed free compiled starts fits rfl rfl prepared arguments⟩

end Session

end GuestScript
