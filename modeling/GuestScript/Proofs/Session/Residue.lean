import GuestScript.Proofs.Machine.Consoles
import GuestScript.Proofs.Session.PipelineRuns
import GuestScript.Proofs.Session.UnitNames

/-!
# Runs leave no residue

What a run shows depends on its source, on what it is asked for, on the table of the host and on
whether the console refuses to write. It does not depend on the names that are drawn, on what the host
has loaded before, or on what has been written. So two hosts that agree on the former show the same,
and one host shows the same as often as it runs a source: `leavesNoResidue`.
-/

namespace GuestScript

namespace Session

open Bytecode (Fit Image Invalid RoutineIndex TypeIndex textNumbers)
open Compile (EntryBinding EntryPoint)
open Machine (Console Ending Program World WorldOver)

/-! ## Invocations -/

variable {program : Program} {fuel : Nat} {text : String}

/-- An entry runs without looking at what has been written before. -/
theorem runEntry_behind (binding : EntryBinding) (type : TypeIndex) (routine : RoutineIndex)
    (arguments : List String) (world : World) :
    runEntry fuel program binding type routine arguments (world.behind text)
      = (runEntry fuel program binding type routine arguments world).map (Ending.behind text) := by
  have performs (control : Machine.Control) (world : World) :
      program.perform fuel control (world.behind text)
        = (program.perform fuel control world).map (Ending.behind text) :=
    Machine.run_behind fuel ⟨control, [], world⟩
  cases binding with
  | static => exact performs _ _
  | onInstance =>
      simp only [runEntry, Program.construct, Program.call, performs]
      cases program.perform fuel (.construct type) world with
      | none => rfl
      | some ending =>
          obtain ⟨result, world⟩ := ending
          cases result with
          | error fault => rfl
          | ok object => exact performs _ _

/-- An entry leaves it to the console whether it refuses to write. -/
theorem failure_runEntry {binding : EntryBinding} {type : TypeIndex} {routine : RoutineIndex}
    {arguments : List String} {world : World} {ending : Ending}
    (ran : runEntry fuel program binding type routine arguments world = some ending) :
    ending.world.console.failure = world.console.failure := by
  cases binding with
  | static => exact Machine.failure_run ran
  | onInstance =>
      simp only [runEntry] at ran
      split at ran
      · next constructed =>
          exact (Machine.failure_run ran).trans (Machine.failure_run constructed)
      · exact Machine.failure_run ran

theorem runEntry_named (name : String) (binding : EntryBinding) (type : TypeIndex)
    (routine : RoutineIndex) (arguments : List String) (world : World) :
    runEntry fuel (program.named name) binding type routine arguments world
      = runEntry fuel program binding type routine arguments world := by
  cases binding with
  | static => exact Machine.run_named name program fuel _
  | onInstance =>
      simp only [runEntry, Program.construct, Program.call, Program.perform, Machine.run_named]

theorem findEntry_named (name : String) (entry : EntryPoint) :
    findEntry (program.named name).image entry = findEntry program.image entry :=
  rfl

/-- What an invocation of an entry gives whose run ends so. -/
def outcomeOf (entry : EntryPoint) (ending : Ending) : Except InvokeError (Option Int64) :=
  match ending.result with
  | .ok value => .ok (exitValue value)
  | .error fault => .error (.runtime (entry.fullTypeName ++ "." ++ entry.method) fault)

/-- What an invocation of an entry gives, and what it writes, is the same in every context of the
program. -/
theorem Host.exists_invokes (fuel : Nat) (program : Program) (entry : EntryPoint)
    (arguments : List String) (failure : Option String) :
    ∃ answer : Option (Except InvokeError (Option Int64) × String),
      ∀ {host : Host} {key : ContextKey} {context : Context} {name : String},
        host.context? key = some context → context.isLoaded = true →
        context.program = program.named name → host.console.failure = failure →
        host.invoke fuel key entry arguments = answer.map fun (outcome, written) ↦
          (outcome, { host with console := host.console.wrote written }) := by
  cases found : findEntry program.image entry with
  | error error =>
      refine ⟨some (.error (.entry error), ""), fun here loaded same _ ↦ ?_⟩
      rw [invoke, here]
      simp only [loaded, if_true, same, findEntry_named, found, Console.wrote, String.append_empty,
        Option.map_some]
  | ok place =>
      obtain ⟨type, routine⟩ := place
      -- the console is an empty one with its text in front
      refine ⟨(runEntry fuel program entry.binding type routine arguments
        (.fresh ⟨"", failure⟩)).map fun ending ↦
          (outcomeOf entry ending, ending.world.console.text), ?_⟩
      intro host key context name here loaded same refuses
      have world : (WorldOver.fresh host.console : World)
          = (WorldOver.fresh ⟨"", failure⟩).behind host.console.text := by
        rw [← refuses]
        exact congrArg WorldOver.fresh host.console.behind_empty.symm
      rw [invoke, here]
      simp only [loaded, if_true, same, findEntry_named, found, runEntry_named, world,
        runEntry_behind]
      cases ran : runEntry fuel program entry.binding type routine arguments
        (.fresh ⟨"", failure⟩) with
      | none => rfl
      | some ending =>
          have kept : ending.world.console.failure = host.console.failure :=
            (failure_runEntry ran).trans refuses.symm
          have console : (ending.behind host.console.text).world.console
              = host.console.wrote ending.world.console.text := Console.behind_eq_wrote kept
          simp only [Option.map_some, console]
          obtain ⟨result, world⟩ := ending
          cases result <;> rfl

theorem wrote_empty (console : Console) : console.wrote "" = console := by
  rw [Console.wrote, String.append_empty]

/-- So is what becomes of the entry of a compilation, if there is one. -/
theorem Host.exists_invokesEntry (fuel : Nat) (program : Program) (entry : Option EntryPoint)
    (config : RunConfig) (failure : Option String) :
    ∃ answer : Option (Except InvokeError (Option Int64) × List Stage × String),
      ∀ {host : Host} {key : ContextKey} {context : Context} {name : String},
        host.context? key = some context → context.isLoaded = true →
        context.program = program.named name → host.console.failure = failure →
        host.invokeEntry fuel config key entry = answer.map fun (outcome, stages, written) ↦
          (outcome, stages, { host with console := host.console.wrote written }) := by
  cases entry with
  | none =>
      refine ⟨some (.error (.entry .undescribed), [], ""), fun _ _ _ _ ↦ ?_⟩
      simp only [invokeEntry, Option.map_some, wrote_empty]
  | some entry =>
      obtain ⟨answer, each⟩ := exists_invokes fuel program entry config.arguments failure
      refine ⟨answer.map fun (outcome, written) ↦ (outcome, [.invoked], written), ?_⟩
      intro host key context name here loaded same refuses
      rw [invokeEntry, each here loaded same refuses]
      cases answer <;> rfl

/-! ## Diagnostics -/

/-- Diagnostics are written without looking at what has been written before. -/
theorem printDiagnostics_behind (console : Console) (diagnostics : List (Diagnostic Location)) :
    printDiagnostics (console.behind text) diagnostics
      = (printDiagnostics console diagnostics).behind text := by
  induction diagnostics generalizing console with
  | nil => rfl
  | cons first rest ih =>
      simp only [printDiagnostics, List.foldl_cons, Console.writeLine_behind] at ih ⊢
      cases console.writeLine first.text with
      | error reason => exact ih console
      | ok written => exact ih written

theorem failure_printDiagnostics (console : Console) (diagnostics : List (Diagnostic Location)) :
    (printDiagnostics console diagnostics).failure = console.failure := by
  induction diagnostics generalizing console with
  | nil => rfl
  | cons first rest ih =>
      simp only [printDiagnostics, List.foldl_cons] at ih ⊢
      cases wrote : console.writeLine first.text with
      | error reason => exact ih console
      | ok written => exact (ih written).trans (Console.failure_writeLine wrote)

/-- The text of diagnostics is added to the console. -/
theorem printDiagnostics_eq_wrote (console : Console) (diagnostics : List (Diagnostic Location)) :
    printDiagnostics console diagnostics
      = console.wrote (printDiagnostics ⟨"", console.failure⟩ diagnostics).text := by
  have kept : (printDiagnostics ⟨"", console.failure⟩ diagnostics).failure = console.failure :=
    failure_printDiagnostics _ diagnostics
  rw [← Console.behind_eq_wrote kept, ← printDiagnostics_behind, Console.behind_empty]

/-! ## What a run shows -/

/-- What a run shows of its outcome: all but the names that were drawn for it, and what tells whether
its context has been reclaimed. -/
inductive Shown where
  | report (trail : List Stage) (diagnostics : List (Diagnostic Location))
      (returned : Option Int64)
  | compiler (invalid : Invalid)
  | load (fault : LoadFault)
  | invocation (error : InvokeError) (trail : List Stage)

/-- What an outcome shows. -/
def shown : RunOutcome → Shown
  | .ok report => .report report.trail report.diagnostics report.returned
  | .error (.compiler fault) => .compiler fault.invalid
  | .error (.load fault) => .load fault
  | .error (.invocation error trail _) => .invocation error trail

/-- The exit status is read off what a run shows. -/
theorem exitCode_of_shown {outcome other : RunOutcome} (same : shown outcome = shown other)
    (policy : ExitPolicy) : exitCode policy outcome = exitCode policy other := by
  have read (outcome : RunOutcome) : exitCode policy outcome = match policy, shown outcome with
      | .legacy, _ => 0
      | .reflect, .report trail _ _ => if trail.contains .compiledOk then 0 else 1
      | .reflect, _ => 2 := by
    cases policy with
    | legacy => rfl
    | reflect =>
        cases outcome with
        | ok report => rfl
        | error error => cases error <;> rfl
  rw [read outcome, read other, same]

variable {config : RunConfig} {resolver : Resolver} {source : SourceUnit}

/-- A run that starts with this console has this answer: none if the program uses up its fuel, and
otherwise what the run shows, and the text that it adds to the console. -/
def Shows (before : Console) (ran : Option (RunOutcome × Host)) (answer : Option (Shown × String)) :
    Prop :=
  ran.map (fun (outcome, after) ↦ (shown outcome, after.console))
    = answer.map fun (seen, written) ↦ (seen, before.wrote written)

/-- A host can draw names for a run: the length of that of the unit is such as eight bytes hold, and
that of the context is not live. -/
structure Host.DrawsFree (host : Host) : Prop where
  fits : Fit (textNumbers (host.drawId .unit).1)
  free : ((host.drawId .unit).2.drawId .context).1 ∉ host.live

/-- The stages of a run that has unloaded its context, as they are shown. -/
def shownAfter (stages : List Stage) : Except InvokeError (Option Int64) → Shown
  | .ok returned => .report ([.created, .parsed, .compiledOk, .loaded] ++ stages ++ [.unloaded]) []
      returned
  | .error error => .invocation error
      ([.created, .parsed, .compiledOk, .loaded] ++ stages ++ [.unloaded])

/-- What a run of an image shows and writes is the same under every name of the image. -/
theorem Host.exists_showsImage (fuel : Nat) (config : RunConfig) (image : Image)
    (entry : Option EntryPoint) (table : ModuleTable) (failure : Option String) :
    ∃ answer, ∀ (host : Host) (name : String), host.table = table →
      host.console.failure = failure → Fit (textNumbers name) →
      (host.drawId .context).1 ∉ host.live →
      Shows host.console (host.runImage fuel config (.succeeded name (image.named name) entry))
        answer := by
  cases prepared : prepare table (image.named "").encode with
  | error fault =>
      refine ⟨some (.load fault, ""), fun host name same _ fits _ ↦ ?_⟩
      subst same
      have refused := prepare_named host.table fits image
      rw [prepared] at refused
      rw [Shows, runImage]
      simp only [CompilationResult.succeeded, load_of_refused refused]
      simp [shown, wrote_empty]
  | ok program =>
      obtain ⟨invoked, each⟩ := exists_invokesEntry fuel program entry config failure
      refine ⟨invoked.map fun (outcome, stages, written) ↦ (shownAfter stages outcome, written),
        fun host name same refuses fits free ↦ ?_⟩
      subst same
      have accepted := prepare_named host.table fits image
      rw [prepared] at accepted
      let context : Context := ⟨(host.drawId .context).1, program.named name, true, 1, 0⟩
      let loaded := (host.drawId .context).2.sweep.enroll context
      have enrolled : host.load (image.named name).encode = (.ok host.contexts.length, loaded) := by
        rw [load_of_prepared accepted]
        exact if_neg free
      have here : loaded.context? host.contexts.length = some context := context?_enroll _ _
      rw [Shows, runImage]
      simp only [CompilationResult.succeeded, enrolled, each here rfl rfl refuses]
      cases invoked with
      | none => rfl
      | some answer =>
          obtain ⟨outcome, stages, written⟩ := answer
          cases outcome <;> rfl

/-- What a run shows and writes is the same on every host with this table whose console refuses to
write in this way. -/
theorem Host.exists_shows (fuel : Nat) (config : RunConfig) (resolver : Resolver)
    (source : SourceUnit) (table : ModuleTable) (failure : Option String) :
    ∃ answer, ∀ host : Host, host.table = table → host.console.failure = failure →
      host.DrawsFree → Shows host.console (host.run fuel config resolver source) answer := by
  obtain ⟨diagnostics, compiled⟩ | ⟨invalid, compiled⟩ | ⟨image, entry, compiled⟩ :=
    Compilation.compileSource_cases config.compile source resolver
  · refine ⟨some (.report rejectedStages diagnostics none,
      (printDiagnostics ⟨"", failure⟩ diagnostics).text), fun host _ refuses _ ↦ ?_⟩
    subst refuses
    unfold Shows run
    simp only [compiled, CompilationResult.failed, Bool.false_eq_true, if_false, Option.map_some]
    rw [← printDiagnostics_eq_wrote]
    rfl
  · refine ⟨some (.compiler invalid, ""), fun host _ _ _ ↦ ?_⟩
    unfold Shows run
    simp only [compiled, Option.map_some, wrote_empty]
    rfl
  · obtain ⟨answer, each⟩ := exists_showsImage fuel config image entry table failure
    refine ⟨answer, fun host same refuses draws ↦ ?_⟩
    have ran := each (host.drawId .unit).2 _ same refuses draws.fits draws.free
    unfold run
    simp only [compiled, CompilationResult.succeeded, if_true]
    exact ran

/-! ## Runs one after the other -/

/-- Run a source so many times, one run after the other; the first outcome comes first. There is no
answer if one of the runs has none. -/
def Host.runTimes (fuel : Nat) (config : RunConfig) (resolver : Resolver) (source : SourceUnit) :
    Nat → Host → Option (List RunOutcome × Host)
  | 0, host => some ([], host)
  | times + 1, host => do
      let (outcome, next) ← host.run fuel config resolver source
      let (outcomes, last) ← runTimes fuel config resolver source times next
      pure (outcome :: outcomes, last)

/-- A host can draw names for so many runs, each of which draws two at most. -/
def Host.DrawsFreely (host : Host) (times : Nat) : Prop :=
  ∀ number, host.ids.next ≤ number → number < host.ids.next + 2 * times →
    Fit (textNumbers (host.ids.name number .unit)) ∧
      host.ids.name number .context ∉ host.live

/-- A host goes on with the same table and the same rule for names, of which it has drawn so many at
most. -/
structure Host.Draws (count : Nat) (host after : Host) : Prop where
  table : after.table = host.table
  name : after.ids.name = host.ids.name
  later : host.ids.next ≤ after.ids.next
  most : after.ids.next ≤ host.ids.next + count

theorem Host.draws_load (host : Host) (bytes : Bytecode.Bytes) :
    host.Draws 1 (host.load bytes).2 := by
  rw [load]
  split
  · exact ⟨rfl, rfl, Nat.le_refl _, Nat.le_succ _⟩
  · simp only
    split <;> exact ⟨rfl, rfl, Nat.le_succ _, Nat.le_refl _⟩

theorem Host.draws_runImage {host after : Host} {result : CompilationResult} {outcome : RunOutcome}
    (ran : host.runImage fuel config result = some (outcome, after)) : host.Draws 1 after := by
  have draws := host.draws_load result.image
  unfold runImage at ran
  split at ran
  · next failed =>
      obtain ⟨-, rfl⟩ := Prod.mk.inj (Option.some.inj ran)
      rwa [failed] at draws
  · next loaded succeeded =>
      rw [succeeded] at draws
      split at ran
      · exact absurd ran nofun
      · next answer stages invoked answered =>
          obtain ⟨same, -, -⟩ := invokeEntry_host answered
          have invoked : host.Draws 1 invoked := by
            rw [same]
            exact ⟨draws.table, draws.name, draws.later, draws.most⟩
          cases answer with
          | ok returned =>
              obtain ⟨-, rfl⟩ := Prod.mk.inj (Option.some.inj ran)
              exact ⟨invoked.table, invoked.name, invoked.later, invoked.most⟩
          | error error =>
              obtain ⟨-, rfl⟩ := Prod.mk.inj (Option.some.inj ran)
              exact ⟨invoked.table, invoked.name, invoked.later, invoked.most⟩

/-- A run draws a name for the unit, and one for the context if it comes to that. -/
theorem Host.draws_run {host after : Host} {outcome : RunOutcome}
    (ran : host.run fuel config resolver source = some (outcome, after)) :
    host.Draws 2 after := by
  have drawn : host.Draws 2 (host.drawId .unit).2 :=
    ⟨rfl, rfl, Nat.le_succ _, Nat.le_succ _⟩
  unfold run at ran
  simp only at ran
  split at ran
  · obtain ⟨-, rfl⟩ := Prod.mk.inj (Option.some.inj ran)
    exact drawn
  · split at ran
    · have loaded := draws_runImage ran
      exact ⟨loaded.table, loaded.name, Nat.le_trans (Nat.le_succ _) loaded.later, loaded.most⟩
    · obtain ⟨-, rfl⟩ := Prod.mk.inj (Option.some.inj ran)
      exact ⟨drawn.table, drawn.name, drawn.later, drawn.most⟩

variable {host after : Host} {outcome : RunOutcome} {times : Nat}

/-- The first of several runs can draw its names. -/
theorem Host.DrawsFreely.first (freely : host.DrawsFreely (times + 1)) : host.DrawsFree where
  fits := (freely host.ids.next (Nat.le_refl _) (by omega)).1
  free := (freely (host.ids.next + 1) (by omega) (by omega)).2

/-- The other runs can draw theirs when it has left nothing behind. -/
theorem Host.DrawsFreely.rest (freely : host.DrawsFreely (times + 1)) (draws : host.Draws 2 after)
    (live : after.live = host.live) : after.DrawsFreely times := by
  intro number later before
  have earliest := draws.later
  have most := draws.most
  rw [draws.name, live]
  exact freely number (by omega) (by omega)

/-- Several runs of a source show and write what the first of them does, and leave nothing loaded. -/
theorem Host.runTimes_eq {seen : Shown} {written : String} {table : ModuleTable}
    {failure : Option String}
    (each : ∀ host : Host, host.table = table → host.console.failure = failure →
      host.DrawsFree →
      Shows host.console (host.run fuel config resolver source) (some (seen, written)))
    (same : host.table = table) (refuses : host.console.failure = failure)
    (freely : host.DrawsFreely times) :
    ∃ outcomes last, host.runTimes fuel config resolver source times = some (outcomes, last) ∧
      outcomes.map shown = List.replicate times seen ∧
      last.console = host.console.wrote (String.join (List.replicate times written)) ∧
      last.live = host.live := by
  induction times generalizing host with
  | zero => exact ⟨[], host, rfl, rfl, (wrote_empty _).symm, rfl⟩
  | succ times ih =>
      obtain ⟨⟨outcome, next⟩, ran, showed⟩ :=
        Option.map_eq_some_iff.mp (each host same refuses freely.first)
      obtain ⟨rfl, console⟩ := Prod.mk.inj showed
      have live : next.live = host.live := live_of_run ran
      have draws := draws_run ran
      obtain ⟨outcomes, last, others, shows, wrote, live'⟩ := ih (draws.table.trans same)
        (by rw [console]; exact refuses) (freely.rest draws live)
      refine ⟨outcome :: outcomes, last, ?_, ?_, ?_, live'.trans live⟩
      · simp only [runTimes, ran, others, Option.bind_eq_bind, Option.bind_some, Option.pure_def]
      · rw [List.map_cons, shows, List.replicate_succ]
      · rw [wrote, console, List.replicate_succ, String.join_cons, Console.wrote, Console.wrote,
          Console.wrote, String.append_assoc]

/-- How runs of a source compare. On two hosts with the same table, whose consoles refuse to write in
the same way, they show and write the same, or neither comes to an end with this fuel, and what they
show settles the exit status. If a run shows something, as many runs in a row as the host can draw
names for show the same again and again, write the same each time, and leave the names live that were
live before. -/
structure LeavesNoResidue (fuel : Nat) (config : RunConfig) (resolver : Resolver)
    (source : SourceUnit) : Prop where
  alike : ∀ {first second : Host}, first.table = second.table →
    first.console.failure = second.console.failure → first.DrawsFree → second.DrawsFree →
    ∃ answer, Shows first.console (first.run fuel config resolver source) answer ∧
      Shows second.console (second.run fuel config resolver source) answer
  exits : ∀ {outcome other : RunOutcome}, shown outcome = shown other →
    ∀ policy, exitCode policy outcome = exitCode policy other
  repeats : ∀ {host : Host} {times : Nat} {seen : Shown} {written : String},
    host.DrawsFreely (times + 1) →
    Shows host.console (host.run fuel config resolver source) (some (seen, written)) →
    ∃ outcomes last,
      host.runTimes fuel config resolver source (times + 1) = some (outcomes, last) ∧
      outcomes.map shown = List.replicate (times + 1) seen ∧
      last.console = host.console.wrote (String.join (List.replicate (times + 1) written)) ∧
      last.live = host.live

/-- No run leaves a residue or looks at names. -/
theorem leavesNoResidue (fuel : Nat) (config : RunConfig) (resolver : Resolver)
    (source : SourceUnit) : LeavesNoResidue fuel config resolver source := by
  refine ⟨?_, exitCode_of_shown, ?_⟩
  · intro first second table failure firstDraws secondDraws
    obtain ⟨answer, each⟩ := Host.exists_shows fuel config resolver source second.table
      second.console.failure
    exact ⟨answer, each first table failure firstDraws, each second rfl rfl secondDraws⟩
  · intro host times seen written freely showed
    obtain ⟨answer, each⟩ := Host.exists_shows fuel config resolver source host.table
      host.console.failure
    have same := (each host rfl rfl freely.first).symm.trans showed
    obtain ⟨⟨_, other⟩, rfl, equal⟩ := Option.map_eq_some_iff.mp same
    obtain ⟨rfl, console⟩ := Prod.mk.inj equal
    obtain rfl : other = written :=
      (String.append_right_inj host.console.text).mp (congrArg Console.text console)
    exact Host.runTimes_eq each rfl rfl freely

/-- The program that writes its arguments shows the same on a host that always draws one name and on
one that counts its names, three times in a row. -/
theorem leavesNoResidue_echo : ∃ seen written outcomes last,
    Shows .empty ((Host.fresh .standard (.fixed "c") .empty).run 100 {} (Resolver.ofTable .standard)
      Compile.echoSource) (some (seen, written)) ∧
    (Host.fresh .standard (.sequential "s") .empty).runTimes 100 {} (Resolver.ofTable .standard)
      Compile.echoSource 3 = some (outcomes, last) ∧
    outcomes.map shown = [seen, seen, seen] ∧
    last.console = .wrote .empty (String.join [written, written, written]) := by
  let fixed : Host := .fresh .standard (.fixed "c") .empty
  let counting : Host := .fresh .standard (.sequential "s") .empty
  have residue := leavesNoResidue 100 {} (Resolver.ofTable .standard) Compile.echoSource
  have free (ids : IdSource) (name : String) : name ∉ (Host.fresh .standard ids .empty).live := by
    rw [Host.live_fresh]
    exact List.not_mem_nil
  have draws : fixed.DrawsFree := ⟨by decide, free _ _⟩
  have freely : counting.DrawsFreely 3 := by
    intro number _ before
    refine ⟨?_, free _ _⟩
    have few : ∀ number < 6, Fit (textNumbers (counting.ids.name number .unit)) := by decide
    exact few number before
  have both : ∃ answer, Shows .empty (fixed.run 100 {} (Resolver.ofTable .standard)
      Compile.echoSource) answer ∧ Shows .empty (counting.run 100 {} (Resolver.ofTable .standard)
        Compile.echoSource) answer := residue.alike rfl rfl draws freely.first
  obtain ⟨answer, first, second⟩ := both
  have ends : (fixed.run 100 {} (Resolver.ofTable .standard) Compile.echoSource).isSome = true := by
    decide +kernel
  obtain ⟨ending, ran⟩ := Option.isSome_iff_exists.mp ends
  have answered : Shows .empty (some ending) answer := ran ▸ first
  obtain ⟨⟨seen, written⟩, rfl, -⟩ := Option.map_eq_some_iff.mp answered.symm
  obtain ⟨outcomes, last, times, shows, wrote, -⟩ := residue.repeats freely second
  exact ⟨seen, written, outcomes, last, first, times, shows, wrote⟩

end Session

end GuestScript
