import GuestScript.Proofs.Session.Names

/-!
# Unloading is final

A context keeps its name and its program whatever happens to a host, and is unloaded only by an
unload of this context. So what it answers to those who use it changes once at most: when it has
been unloaded, every use is refused from then on. Neither that nor anything else that happens to
other contexts, also to one of the same name, makes a difference to it.
-/

namespace GuestScript

namespace Session

open Bytecode (Bytes)
open Compile (EntryPoint)
open Machine (Console Program)

variable {host next last : Host} {event : Event} {events later : List Event} {key : ContextKey}
  {handle : UnloadHandle} {context : Context} {name : String} {bytes : Bytes}

/-! ## What stays of a context -/

/-- A later state of a context has the name and the program of an earlier one. -/
structure Context.Continues (context later : Context) : Prop where
  identity : later.identity = context.identity
  program : later.program = context.program

theorem Context.Continues.refl (context : Context) : context.Continues context :=
  ⟨rfl, rfl⟩

theorem Context.Continues.trans {middle later : Context} (first : context.Continues middle)
    (second : middle.Continues later) : context.Continues later :=
  ⟨second.identity.trans first.identity, second.program.trans first.program⟩

/-- A change of some context that leaves names and programs. -/
theorem Host.continues_update {changed : ContextKey} {change : Context → Context}
    (keeps : ∀ context, Context.Continues context (change context))
    (found : host.context? key = some context) :
    ∃ after, (host.update changed change).context? key = some after ∧ context.Continues after := by
  rw [Host.context?_update, found]
  split
  · exact ⟨change context, rfl, keeps context⟩
  · exact ⟨context, rfl, .refl context⟩

/-- To load an image leaves the contexts that there are. -/
theorem Host.context?_load (found : host.context? key = some context) :
    (host.load bytes).2.context? key = some context := by
  have inside := (List.getElem?_eq_some_iff.mp found).1
  obtain ⟨_, -, same⟩ | ⟨_, _, -, more⟩ := host.load_contexts bytes
  · rw [Host.context?, same]
    exact found
  · rw [Host.context?, more, List.getElem?_append_left inside]
    exact found

/-- No event changes the name or the program of a context. -/
theorem Happens.continues (happens : Happens host event next)
    (found : host.context? key = some context) :
    ∃ after, next.context? key = some after ∧ context.Continues after := by
  cases happens with
  | load bytes => exact ⟨context, Host.context?_load found, .refl context⟩
  | invoke fuel entry arguments hasHandle invoked =>
      refine ⟨context, ?_, .refl context⟩
      rw [Host.context?, Host.invoke_contexts invoked]
      exact found
  | clone hasHandle => exact Host.continues_update (fun _ ↦ ⟨rfl, rfl⟩) found
  | drop hasHandle => exact Host.continues_update (fun _ ↦ ⟨rfl, rfl⟩) found
  | @pin pinned hasHandle =>
      rw [Host.pin]
      split
      · exact ⟨context, found, .refl context⟩
      split
      · exact Host.continues_update (fun _ ↦ ⟨rfl, rfl⟩) found
      · exact ⟨context, found, .refl context⟩
  | unpin hasPin => exact Host.continues_update (fun _ ↦ ⟨rfl, rfl⟩) found
  | unload hasHandle => exact Host.continues_update (fun _ ↦ ⟨rfl, rfl⟩) found

theorem History.continues (history : History host events last)
    (found : host.context? key = some context) :
    ∃ after, last.context? key = some after ∧ context.Continues after := by
  induction history generalizing context with
  | nil => exact ⟨context, found, .refl context⟩
  | cons happens _ ih =>
      obtain ⟨middle, found, first⟩ := happens.continues found
      obtain ⟨after, found, second⟩ := ih found
      exact ⟨after, found, first.trans second⟩

/-- An event happens to the end of a history, from a state on the way to the state behind it. -/
theorem History.happens_of_mem (history : History host events last) (inside : event ∈ events) :
    ∃ before after rest, Happens before event after ∧ History after rest last := by
  obtain ⟨earlier, rest, rfl⟩ := List.append_of_mem inside
  obtain ⟨before, -, behind⟩ := history.split
  cases behind with
  | cons happens rest => exact ⟨before, _, _, happens, rest⟩

/-! ## Answers -/

/-- What a context answers to those who use it: whether it is unloaded, what a pin of its program
says, and what an invocation gives and leaves on the console. -/
structure Answers where
  isUnloaded : Bool
  pin : Option String
  invoke : Nat → EntryPoint → List String → Console →
    Option (Except InvokeError (Option Int64) × Console)

/-- What a context answers in a state of the host. -/
def Host.answers (host : Host) (key : ContextKey) : Answers where
  isUnloaded := host.isUnloaded key
  pin := (host.pin key).1
  invoke fuel entry arguments console :=
    (Host.invoke fuel { host with console } key entry arguments).map fun (outcome, after) ↦
      (outcome, after.console)

/-- The answers of a context that has been unloaded: no invocation gets as far as looking for its
entry, and none writes anything. -/
def Answers.refusal (identity : String) : Answers where
  isUnloaded := true
  pin := none
  invoke _ _ _ console := some (.error (.unloaded identity), console)

/-- The answers of a context that is loaded. -/
structure Answers.Serves (answers : Answers) (program : Program) : Prop where
  isUnloaded : answers.isUnloaded = false
  pin : answers.pin = some program.image.name
  invoke : ∀ fuel entry arguments console identity after,
    answers.invoke fuel entry arguments console ≠ some (.error (.unloaded identity), after)

namespace Host

theorem answers_of_unloaded (found : host.context? key = some context)
    (unloaded : context.isLoaded = false) : host.answers key = .refusal context.identity := by
  have found' (console : Console) : Host.context? { host with console } key = some context :=
    found
  simp [answers, Answers.refusal, isUnloaded, pin, invoke, found, found', unloaded]

theorem answers_serves (found : host.context? key = some context)
    (loaded : context.isLoaded = true) : (host.answers key).Serves context.program := by
  refine ⟨?_, ?_, ?_⟩
  · simp [answers, isUnloaded, found, loaded]
  · simp [answers, pin, found, loaded]
  · intro fuel entry arguments console identity after
    have found' : Host.context? { host with console } key = some context := found
    simp only [answers, invoke, found', loaded, if_true]
    split
    · rintro ⟨⟩
    split
    · rintro ⟨⟩
    split
    all_goals rintro ⟨⟩

/-- A context answers in the same way in two states in which it has the same name and the same
program and is loaded in both or in neither. -/
theorem answers_congr {context' : Context} (found : host.context? key = some context)
    (found' : last.context? key = some context') (continues : context.Continues context')
    (same : context'.isLoaded = context.isLoaded) : last.answers key = host.answers key := by
  have here (console : Console) : Host.context? { host with console } key = some context :=
    found
  have there (console : Console) : Host.context? { last with console } key = some context' :=
    found'
  simp only [answers, isUnloaded, pin, invoke, found, found', here, there, continues.identity,
    continues.program, same, Answers.mk.injEq, true_and]
  refine ⟨by split <;> rfl, ?_⟩
  funext fuel entry arguments console
  split
  · split
    · rfl
    split
    · rfl
    split
    all_goals rfl
  · rfl

/-- There is a context of this number. -/
def Knows (host : Host) (key : ContextKey) : Prop :=
  ∃ context, host.context? key = some context

theorem identity_of_found (found : host.context? key = some context) :
    host.identity key = context.identity := by
  rw [identity, found]
  rfl

/-- After an image has been loaded, its context serves the program of the image. -/
theorem answers_load (loaded : (host.load bytes).1 = .ok key) :
    ∃ program, prepare host.table bytes = .ok program ∧
      ((host.load bytes).2.answers key).Serves program := by
  cases prepared : prepare host.table bytes with
  | error fault =>
      rw [load_of_refused prepared] at loaded
      exact absurd loaded nofun
  | ok program =>
      rw [load_of_prepared prepared] at loaded ⊢
      simp only at loaded ⊢
      split at loaded
      · exact absurd loaded nofun
      · next free =>
          obtain rfl := Except.ok.inj loaded
          rw [if_neg free]
          have found := context?_enroll (host.drawId .context).2.sweep
            ⟨(host.drawId .context).1, program, true, 1, 0⟩
          exact ⟨program, rfl, answers_serves found rfl⟩

end Host

/-! ## Histories -/

/-- In a history of a host, `host` has been reached by `events`, and `last` by `later` from there. An
unloaded context refuses every use, pins of its program answer as before, and a context answers in
the same way as long as it is not unloaded itself. A context that is loaded now serves its image,
whatever its name. -/
structure Host.SettledBy (events : List Event) (host : Host) (later : List Event) (last : Host) :
    Prop where
  refuses : ∀ {key : ContextKey} {handle : UnloadHandle},
    .unloaded key handle ∈ events ++ later →
      handle.identity = last.identity key ∧ last.answers key = .refusal (last.identity key)
  pins : ∀ {key : ContextKey} {name : String},
    .pinned key (some name) ∈ events ++ later → last.HasPin key →
      last.pinnedUnit? key = some name
  answers : ∀ {key : ContextKey}, host.Knows key → (∀ handle, .unloaded key handle ∉ later) →
    last.identity key = host.identity key ∧ last.answers key = host.answers key
  serves : ∀ {bytes : Bytes} {key : ContextKey}, (last.load bytes).1 = .ok key →
    ∃ program, prepare last.table bytes = .ok program ∧
      ((last.load bytes).2.answers key).Serves program

/-- Only its own unload changes what a context answers. -/
theorem History.answers_eq (history : History host later last) (known : host.Knows key)
    (spared : ∀ handle, .unloaded key handle ∉ later) :
    last.identity key = host.identity key ∧ last.answers key = host.answers key := by
  obtain ⟨context, found⟩ := known
  obtain ⟨after, found', continues⟩ := history.continues found
  have unloaded : last.HasUnloaded key ↔ host.HasUnloaded key := by
    rw [history.hasUnloaded_iff, or_iff_left]
    exact fun ⟨handle, inside⟩ ↦ spared handle inside
  have same : after.isLoaded = context.isLoaded := by
    simpa [Host.HasUnloaded, found, found'] using unloaded
  rw [Host.identity_of_found found, Host.identity_of_found found']
  exact ⟨continues.identity, Host.answers_congr found found' continues same⟩

/-- An unloaded context refuses every use from then on. -/
theorem History.answers_of_unload (history : History host events last)
    (inside : .unloaded key handle ∈ events) :
    handle.identity = last.identity key ∧ last.answers key = .refusal (last.identity key) := by
  obtain ⟨after, found, unloaded⟩ := history.hasUnloaded_iff.mpr (.inr ⟨handle, inside⟩)
  obtain ⟨before, _, _, happens, rest⟩ := history.happens_of_mem inside
  cases happens with
  | unload hasHandle =>
      obtain ⟨context, here, handles⟩ := hasHandle
      have whole := History.cons (.unload ⟨context, here, handles⟩) rest
      obtain ⟨_, found', continues⟩ := whole.continues here
      obtain rfl := Option.some.inj (found.symm.trans found')
      rw [Host.identity_of_found found]
      refine ⟨?_, Host.answers_of_unloaded found unloaded⟩
      rw [continues.identity]
      exact Host.identity_of_found here

/-- A pin answers with the name of the unit that it was given for, as long as there is one. -/
theorem History.pinnedUnit?_eq (history : History host events last)
    (inside : .pinned key (some name) ∈ events) (hasPin : last.HasPin key) :
    last.pinnedUnit? key = some name := by
  obtain ⟨before, next, rest, happens, behind⟩ := history.happens_of_mem inside
  generalize taken : Event.pinned key (some name) = event at happens
  cases happens with
  | @pin pinned hasHandle =>
      obtain ⟨rfl, answer⟩ := Event.pinned.inj taken
      obtain ⟨context, found, handles⟩ := hasHandle
      have named : context.program.image.name = name := by
        rw [Host.pin, found] at answer
        simp only at answer
        split at answer
        · exact (Option.some.inj answer).symm
        · cases answer
      have whole := History.cons (.pin ⟨context, found, handles⟩) behind
      obtain ⟨after, found', continues⟩ := whole.continues found
      obtain ⟨_, same, pins⟩ := hasPin
      obtain rfl := Option.some.inj (found'.symm.trans same)
      simp only [Host.pinnedUnit?, found', if_pos pins, continues.program, named]
  | _ => cases taken

/-- This host when the pin has been dropped as well, and the name is free again. -/
def released : Host :=
  unloadedOnce.dropPin 0

theorem history_released : History unloadedOnce [.unpinned 0] released := by
  obtain ⟨_, _, found⟩ := context?_unloadedOnce
  exact .cons (.unpin ⟨_, found, Nat.one_pos⟩) (.nil _)

/-- This host when it has loaded the image again. -/
def reloaded : Host :=
  (released.load emptyImage.encode).2

theorem reloaded_accepted : (released.load emptyImage.encode).1 = .ok 1 := by
  rfl

theorem identity_reloaded : reloaded.identity 0 = "c" ∧ reloaded.identity 1 = "c" := by
  exact ⟨rfl, rfl⟩

end Session

end GuestScript
