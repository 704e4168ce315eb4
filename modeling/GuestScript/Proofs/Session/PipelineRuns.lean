import GuestScript.Proofs.Compile.Accepted
import GuestScript.Proofs.Session.Names
import GuestScript.Session.Pipeline

/-!
# Runs of a source

A run goes through the stages in order, and however it ends it leaves nothing loaded: the context
that it makes is unloaded, and nothing holds its program then. The names that are live afterwards are
those that were live before. `Host.Ends` lists the ways in which a run may end.
-/

namespace GuestScript

namespace Session

open Bytecode (Bytes)
open Compile (EntryPoint OutputKind)
open Machine (Console Program)

variable {host next after : Host} {key : ContextKey} {fuel : Nat} {config : RunConfig}
  {resolver : Resolver} {source : SourceUnit} {outcome : RunOutcome} {result : CompilationResult}
  {options : CompileOptions} {unitName : String}

/-! ## What is written -/

/-- A console that has written these lines as well. -/
def withLines (console : Console) (lines : List String) : Console :=
  { console with text := console.text ++ String.join (lines.map (· ++ "\n")) }

theorem writeLine_of_accepts {console : Console} (accepts : console.failure = none)
    (line : String) : console.writeLine line = .ok (withLines console [line]) := by
  have ended (text : String) : (Console.mk text none).write "\n" = .ok ⟨text ++ "\n", none⟩ := rfl
  obtain ⟨text, failure⟩ := console
  obtain rfl : failure = none := accepts
  simp only [Console.writeLine, Console.write, withLines, List.map_cons, List.map_nil,
    String.join_cons, String.join_nil, String.append_empty]
  split
  · next written =>
      split at written
      · next blank =>
          obtain rfl := Except.ok.inj written
          rw [String.isEmpty_iff.mp blank, String.empty_append]
          exact ended text
      · obtain rfl := Except.ok.inj written
        rw [← String.append_assoc]
        exact ended (text ++ line)
  · next failed =>
      split at failed
      · exact absurd failed nofun
      · exact absurd failed nofun

/-- A console that accepts what is written gets the diagnostics one after the other. -/
theorem printDiagnostics_of_accepts {console : Console} (accepts : console.failure = none)
    (diagnostics : List (Diagnostic Location)) :
    printDiagnostics console diagnostics = withLines console (diagnostics.map Diagnostic.text) := by
  induction diagnostics generalizing console with
  | nil => simp [printDiagnostics, withLines]
  | cons first rest ih =>
      have step : printDiagnostics console (first :: rest)
          = printDiagnostics (withLines console [first.text]) rest := by
        rw [printDiagnostics, List.foldl_cons, writeLine_of_accepts accepts]
        rfl
      have accepts' : (withLines console [first.text]).failure = none := accepts
      rw [step, ih accepts']
      simp [withLines, String.append_assoc]

/-! ## What stays loaded -/

/-- The names that are live are those before a context was added, if nothing has happened to the
others and nothing holds the program of the new one. -/
theorem Host.live_of_retired (name : String)
    (registered : after.registry = ⟨name, host.contexts.length⟩ :: host.heldEntries)
    (others : ∀ key < host.contexts.length, after.context? key = host.context? key)
    (retired : ¬ after.Holds host.contexts.length) : after.live = host.live := by
  have same : after.heldEntries = host.heldEntries := by
    rw [heldEntries, registered, List.filter_cons]
    rw [if_neg fun held ↦ retired (isHeld_iff.mp held)]
    refine List.filter_eq_self.mpr fun entry inside ↦ ?_
    obtain ⟨-, context, found, live⟩ := mem_heldEntries.mp inside
    have known := others _ (List.getElem?_eq_some_iff.mp found).1
    exact isHeld_iff.mpr ⟨context, known.trans found, live⟩
  rw [live, same, live]

/-- An image that is loaded gets a context behind the others, and an entry in front of those of the
contexts that have not been reclaimed. -/
theorem Host.enrolled_of_load {bytes : Bytes} (loaded : host.load bytes = (.ok key, next)) :
    ∃ context, next.contexts = host.contexts ++ [context] ∧ context.isLoaded = true ∧
      context.pins = 0 ∧
      next.registry = ⟨context.identity, host.contexts.length⟩ :: host.heldEntries ∧
      key = host.contexts.length := by
  cases prepared : prepare host.table bytes with
  | error fault =>
      rw [load_of_refused prepared] at loaded
      exact absurd loaded nofun
  | ok program =>
      rw [load_of_prepared prepared] at loaded
      simp only at loaded
      split at loaded
      · exact absurd loaded nofun
      · obtain ⟨same, rfl⟩ := Prod.mk.inj loaded
        exact ⟨_, rfl, rfl, rfl, rfl, (Except.ok.inj same).symm⟩

/-- An entry is invoked if there is one, which may write to the console and does nothing else to the
host. -/
theorem Host.invokeEntry_host {entry : Option EntryPoint} {stages : List Stage}
    {answer : Except InvokeError (Option Int64)}
    (invoked : host.invokeEntry fuel config key entry = some (answer, stages, next)) :
    next = { host with console := next.console } ∧
      stages = (if entry.isSome then [.invoked] else []) ∧
      (entry = none → answer = .error (.entry .undescribed)) := by
  cases entry with
  | none =>
      obtain ⟨rfl, rest⟩ := Prod.mk.inj (Option.some.inj invoked)
      obtain ⟨rfl, rfl⟩ := Prod.mk.inj rest
      exact ⟨rfl, rfl, fun _ ↦ rfl⟩
  | some entry =>
      simp only [invokeEntry] at invoked
      split at invoked
      · exact absurd invoked nofun
      · next answered =>
          obtain ⟨rfl, rest⟩ := Prod.mk.inj (Option.some.inj invoked)
          obtain ⟨rfl, rfl⟩ := Prod.mk.inj rest
          exact ⟨invoke_host answered, rfl, nofun⟩

/-- A loaded context without pins is reclaimed as soon as it is unloaded, and the others stay as they
are. -/
theorem Host.retired_of_unload {context : Context} (found : host.context? key = some context)
    (loaded : context.isLoaded = true) (unpinned : context.pins = 0) :
    let ended := ((host.unload key).2.dropHandle key)
    ¬ ended.Holds key ∧ ended.isReclaimed (host.unload key).1 = true ∧
      ∀ other, other ≠ key → ended.context? other = host.context? other := by
  intro ended
  have last : ended.context? key
      = some { context with isLoaded := false, handles := context.handles - 1 } := by
    simp [ended, dropHandle, unload, context?_update, found]
  have free : ¬ ended.Holds key := by
    rintro ⟨other, same, live⟩
    obtain rfl := Option.some.inj (last.symm.trans same)
    rw [Context.isLive_iff, unpinned] at live
    obtain ⟨loaded, -⟩ | pins := live
    · cases loaded
    · exact absurd pins (Nat.lt_irrefl 0)
  have watched := unload_watched found
  rw [if_pos loaded] at watched
  refine ⟨free, (isReclaimed_of_watched watched).mpr free, fun other different ↦ ?_⟩
  simp [ended, dropHandle, unload, context?_update, different]

/-! ## How runs end -/

/-- The stages of a run whose source compiles and whose image is loaded. An entry is invoked only if
the compiler was asked for one. -/
def stagesOf : OutputKind → List Stage
  | .executable => [.created, .parsed, .compiledOk, .loaded, .invoked, .unloaded]
  | .library => [.created, .parsed, .compiledOk, .loaded, .unloaded]

/-- The stages of a run whose source does not compile. -/
def rejectedStages : List Stage :=
  [.created, .parsed, .compiledFail]

/-- How a run may end in a state of the host: the source is rejected and its diagnostics are written,
the entry is invoked or fails, with the context reclaimed in either case, or the compilation or the
loading is a fault of the host. -/
inductive Host.Ends (host : Host) (config : RunConfig) (resolver : Resolver) (source : SourceUnit)
    (after : Host) : RunOutcome → Prop where
  | rejected {result : CompilationResult} :
      Compilation.compileSource config.compile (host.drawId .unit).1 source resolver = .ok result →
      result.success = false →
      (host.console.failure = none →
        after.console = withLines host.console (result.diagnostics.map Diagnostic.text)) →
      Ends host config resolver source after
        (.ok ⟨rejectedStages, result.diagnostics, none, none⟩)
  | finished (handle : UnloadHandle) (returned : Option Int64) :
      config.compile.kind = .executable → after.isReclaimed handle = true →
      Ends host config resolver source after
        (.ok ⟨stagesOf .executable, [], some handle, returned⟩)
  | failed (error : InvokeError) (handle : UnloadHandle) : after.isReclaimed handle = true →
      Ends host config resolver source after
        (.error (.invocation error (stagesOf config.compile.kind) handle))
  | compiler {fault : CompilerFault} :
      Compilation.compileSource config.compile (host.drawId .unit).1 source resolver
        = .error fault →
      Ends host config resolver source after (.error (.compiler fault))
  | load (fault : LoadFault) : Ends host config resolver source after (.error (.load fault))

/-- A compilation that succeeds is one of the file that its source is parsed to. -/
theorem parsed_of_success
    (compiled : Compilation.compileSource options unitName source resolver = .ok result)
    (success : result.success = true) : ∃ file, Syntax.parse source = .ok file ∧
      Compilation.compile options unitName source file (resolver file.importNames) = .ok result := by
  unfold Compilation.compileSource at compiled
  cases parsed : Syntax.parse source with
  | error diagnostics =>
      simp only [parsed] at compiled
      obtain rfl := Except.ok.inj compiled
      exact absurd success Bool.false_ne_true
  | ok file =>
      simp only [parsed] at compiled
      exact ⟨file, rfl, compiled⟩

/-- A compilation that succeeds gives an entry exactly if it was asked for one. -/
theorem isSome_entry_of_success
    (compiled : Compilation.compileSource options unitName source resolver = .ok result)
    (success : result.success = true) :
    result.entry.isSome = true ↔ options.kind = .executable := by
  obtain ⟨file, -, compiled⟩ := parsed_of_success compiled success
  obtain rfl | ⟨quiet, -, rfl⟩ := Compile.outcome_of_compile compiled
  · exact absurd success Bool.false_ne_true
  cases kind : options.kind with
  | library => exact iff_of_false nofun nofun
  | executable =>
      rw [kind] at quiet
      have chosen := Compile.isSome_selectEntry quiet
      exact iff_of_true (Option.isSome_map.trans chosen) rfl

theorem stagesOf_ite (described : Bool) :
    stagesOf (if described then .executable else .library)
      = ([.created, .parsed, .compiledOk, .loaded] : List Stage)
        ++ (if described then [.invoked] else []) ++ [.unloaded] := by
  cases described <;> rfl

/-- The outcome of a run that has unloaded its context after this answer to the invocation. -/
def concluded (trail : List Stage) (handle : UnloadHandle) :
    Except InvokeError (Option Int64) → RunOutcome
  | .ok returned => .ok ⟨trail, [], some handle, returned⟩
  | .error error => .error (.invocation error trail handle)

/-- A compiled image is loaded, invoked and unloaded, unless it cannot be loaded. In either case
nothing stays loaded. -/
theorem Host.runImage_ends (ran : host.runImage fuel config result = some (outcome, after)) :
    after.live = host.live ∧
      ((∃ fault, outcome = .error (.load fault)) ∨
        ∃ handle answer, after.isReclaimed handle = true ∧
          (result.entry = none → answer = .error (.entry .undescribed)) ∧
          outcome = concluded
            (stagesOf (if result.entry.isSome then .executable else .library)) handle answer) := by
  rw [runImage] at ran
  split at ran
  · next fault refused failed =>
      obtain ⟨rfl, rfl⟩ := Prod.mk.inj (Option.some.inj ran)
      have same := sameContexts_of_load_error (congrArg Prod.fst failed)
      rw [failed] at same
      exact ⟨same.live, .inl ⟨fault, rfl⟩⟩
  · next key loaded succeeded =>
      obtain ⟨context, contexts, fresh, unpinned, registry, rfl⟩ := enrolled_of_load succeeded
      split at ran
      · exact absurd ran nofun
      · next answer stages invoked answered =>
          obtain ⟨same, rfl, undescribed⟩ := invokeEntry_host answered
          have contexts' : invoked.contexts = host.contexts ++ [context] := by
            rw [same]
            exact contexts
          have found : invoked.context? host.contexts.length = some context := by
            rw [context?, contexts', List.getElem?_concat_length]
          obtain ⟨free, reclaimed, others⟩ := retired_of_unload found fresh unpinned
          have ended : after = (invoked.unload host.contexts.length).2.dropHandle
              host.contexts.length ∧ outcome = concluded
                (stagesOf (if result.entry.isSome then .executable else .library))
                (invoked.unload host.contexts.length).1 answer := by
            rw [stagesOf_ite]
            cases answer with
            | ok returned =>
                obtain ⟨rfl, rfl⟩ := Prod.mk.inj (Option.some.inj ran)
                exact ⟨rfl, rfl⟩
            | error error =>
                obtain ⟨rfl, rfl⟩ := Prod.mk.inj (Option.some.inj ran)
                exact ⟨rfl, rfl⟩
          obtain ⟨rfl, rfl⟩ := ended
          refine ⟨live_of_retired context.identity ?_ (fun key known ↦ ?_) free,
            .inr ⟨_, answer, reclaimed, undescribed, rfl⟩⟩
          · change invoked.registry = _
            rw [same]
            exact registry
          · rw [others key (Nat.ne_of_lt known), context?, contexts',
              List.getElem?_append_left known]
            rfl

/-- The names that are live after a run are those that were live before. -/
theorem Host.live_of_run (ran : host.run fuel config resolver source = some (outcome, after)) :
    after.live = host.live := by
  unfold run at ran
  simp only at ran
  split at ran
  · obtain ⟨-, rfl⟩ := Prod.mk.inj (Option.some.inj ran)
    rfl
  · split at ran
    · exact (runImage_ends ran).1
    · obtain ⟨-, rfl⟩ := Prod.mk.inj (Option.some.inj ran)
      rfl

/-- How a run of a host ends, what it leaves, and what the exit status shows of it. -/
structure Host.RunsThrough (host : Host) (config : RunConfig) (resolver : Resolver)
    (source : SourceUnit) (outcome : RunOutcome) (after : Host) : Prop where
  ends : host.Ends config resolver source after outcome
  live : after.live = host.live
  succeeds : exitCode .reflect outcome = 0 ↔
    ∃ report, outcome = .ok report ∧ report.trail = stagesOf .executable
  rejects : exitCode .reflect outcome = 1 ↔
    ∃ report, outcome = .ok report ∧ report.trail = rejectedStages
  fails : exitCode .reflect outcome = 2 ↔ ∃ error, outcome = .error error

/-- The exit status shows which way a run has ended. -/
theorem Host.Ends.runsThrough (ends : host.Ends config resolver source after outcome)
    (live : after.live = host.live) : host.RunsThrough config resolver source outcome after := by
  refine ⟨ends, live, ?_, ?_, ?_⟩
  all_goals
    cases ends with
    | rejected =>
        simp [exitCode, RunReport.compiled, rejectedStages, stagesOf]
    | finished =>
        simp [exitCode, RunReport.compiled, rejectedStages, stagesOf]
    | failed => simp [exitCode]
    | compiler => simp [exitCode]
    | load => simp [exitCode]

end Session

end GuestScript
