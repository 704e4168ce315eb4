import GuestScript.Session.Invocation

/-!
# What happens to a host

A history of a host is the list of what was done with it: images were loaded, entries invoked,
handles cloned and dropped, programs pinned and contexts unloaded, in any order. A handle or a pin
can be used only while there is one. What every event preserves holds after every history.
-/

namespace GuestScript

namespace Session

open Bytecode (Bytes)
open Compile (EntryPoint)

/-- Something that was done with a host, and what came of it. -/
inductive Event where
  | loaded (outcome : Except LoadFault ContextKey)
  | invoked (key : ContextKey) (outcome : Except InvokeError (Option Int64))
  | cloned (key : ContextKey)
  | dropped (key : ContextKey)
  | pinned (key : ContextKey) (unitName : Option String)
  | unpinned (key : ContextKey)
  | unloaded (key : ContextKey) (handle : UnloadHandle)

namespace Host

/-- There is a handle of a context. -/
def HasHandle (host : Host) (key : ContextKey) : Prop :=
  ∃ context, host.context? key = some context ∧ 0 < context.handles

/-- There is a pin of the program of a context. -/
def HasPin (host : Host) (key : ContextKey) : Prop :=
  ∃ context, host.context? key = some context ∧ 0 < context.pins

/-- Something holds the program of a context: the context, as long as it is loaded, or a pin. -/
def Holds (host : Host) (key : ContextKey) : Prop :=
  ∃ context, host.context? key = some context ∧ context.isLive = true

end Host

/-- An event leads from one state of a host to the next. -/
inductive Happens : Host → Event → Host → Prop where
  | load (host : Host) (bytes : Bytes) :
      Happens host (.loaded (host.load bytes).1) (host.load bytes).2
  | invoke {host after : Host} {key : ContextKey} {outcome : Except InvokeError (Option Int64)}
      (fuel : Nat) (entry : EntryPoint) (arguments : List String) :
      host.HasHandle key → host.invoke fuel key entry arguments = some (outcome, after) →
      Happens host (.invoked key outcome) after
  | clone {host : Host} {key : ContextKey} :
      host.HasHandle key → Happens host (.cloned key) (host.cloneHandle key)
  | drop {host : Host} {key : ContextKey} :
      host.HasHandle key → Happens host (.dropped key) (host.dropHandle key)
  | pin {host : Host} {key : ContextKey} :
      host.HasHandle key → Happens host (.pinned key (host.pin key).1) (host.pin key).2
  | unpin {host : Host} {key : ContextKey} :
      host.HasPin key → Happens host (.unpinned key) (host.dropPin key)
  | unload {host : Host} {key : ContextKey} :
      host.HasHandle key → Happens host (.unloaded key (host.unload key).1) (host.unload key).2

/-- Events lead from one state of a host to another, one after the other. -/
inductive History : Host → List Event → Host → Prop where
  | nil (host : Host) : History host [] host
  | cons {host next last : Host} {event : Event} {events : List Event} :
      Happens host event next → History next events last → History host (event :: events) last

variable {host next last : Host} {event : Event} {events later : List Event}

theorem History.append {middle : Host} (first : History host events middle)
    (second : History middle later last) : History host (events ++ later) last := by
  induction first with
  | nil => exact second
  | cons happens _ ih => exact .cons happens (ih second)

/-- The state between two parts of a history. -/
theorem History.split (history : History host (events ++ later) last) :
    ∃ middle, History host events middle ∧ History middle later last := by
  induction events generalizing host with
  | nil => exact ⟨host, .nil host, history⟩
  | cons event events ih =>
      cases history with
      | cons happens rest =>
          obtain ⟨middle, before, after⟩ := ih rest
          exact ⟨middle, .cons happens before, after⟩

/-- What every event preserves holds after a history. -/
theorem History.preserves {invariant : Host → Prop}
    (kept : ∀ {host event next}, Happens host event next → invariant host → invariant next)
    (history : History host events last) (holds : invariant host) : invariant last := by
  induction history with
  | nil => exact holds
  | cons happens _ ih => exact ih (kept happens holds)

/-! ## Contexts after an event -/

theorem Host.context?_update (host : Host) (key other : ContextKey) (change : Context → Context) :
    (host.update key change).context? other
      = if other = key then (host.context? other).map change else host.context? other := by
  simp only [Host.context?, Host.update, List.getElem?_modify, eq_comm (a := key)]
  split <;> simp

/-- An invocation may write to the console, and changes nothing else of the host. -/
theorem Host.invoke_host {fuel : Nat} {key : ContextKey} {entry : EntryPoint}
    {arguments : List String} {outcome : Except InvokeError (Option Int64)}
    (invoked : host.invoke fuel key entry arguments = some (outcome, next)) :
    next = { host with console := next.console } := by
  simp only [Host.invoke] at invoked
  split at invoked
  · obtain ⟨-, rfl⟩ := Prod.mk.inj (Option.some.inj invoked)
    rfl
  split at invoked
  · split at invoked
    · obtain ⟨-, rfl⟩ := Prod.mk.inj (Option.some.inj invoked)
      rfl
    split at invoked
    · exact absurd invoked nofun
    split at invoked
    all_goals
      obtain ⟨-, rfl⟩ := Prod.mk.inj (Option.some.inj invoked)
      rfl
  · obtain ⟨-, rfl⟩ := Prod.mk.inj (Option.some.inj invoked)
    rfl

theorem Host.invoke_contexts {fuel : Nat} {key : ContextKey} {entry : EntryPoint}
    {arguments : List String} {outcome : Except InvokeError (Option Int64)}
    (invoked : host.invoke fuel key entry arguments = some (outcome, next)) :
    next.contexts = host.contexts := by
  rw [Host.invoke_host invoked]

/-- A load that fails leaves the contexts as they are, and one that does not adds a context that is
loaded, with one handle and no pins. -/
theorem Host.load_contexts (host : Host) (bytes : Bytes) :
    (∃ fault, (host.load bytes).1 = .error fault ∧
      (host.load bytes).2.contexts = host.contexts) ∨
    ∃ identity program, (host.load bytes).1 = .ok host.contexts.length ∧
      (host.load bytes).2.contexts = host.contexts ++ [⟨identity, program, true, 1, 0⟩] := by
  rw [Host.load]
  split
  · exact .inl ⟨_, rfl, rfl⟩
  · simp only
    split
    · exact .inl ⟨_, rfl, rfl⟩
    · exact .inr ⟨_, _, rfl, rfl⟩

end Session

end GuestScript
