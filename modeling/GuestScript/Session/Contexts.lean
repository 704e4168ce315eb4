import GuestScript.Identifiers
import GuestScript.Session.Linking

/-!
# Execution contexts

A host loads each image into a context of its own, under a name drawn for it. The program of a
context stays in memory while something holds it: the context itself, which does until it is
unloaded or its last handle is dropped, and pins, which have escaped to elsewhere. Unloading a
context makes it useless at once, but it is reclaimed only when nothing holds its program.

The registry of a host has an entry for the name of each context. An entry does not hold the program
of its context, so it may outlive it: a name is free again when the context that had it has been
reclaimed, `live` lists the names that are not, and stale entries are struck off when the next
context is registered.

Contexts are never removed from a host; they are told apart by the order of their loading.
-/

namespace GuestScript

namespace Session

open Bytecode (Bytes)
open Machine (Console Program)

/-- The number of a context in the order of loading. -/
abbrev ContextKey := Nat

/-- A context. It is loaded until it is unloaded, whatever holds its program then. -/
structure Context where
  identity : String
  program : Program
  isLoaded : Bool
  handles : Nat
  pins : Nat

namespace Context

/-- The number of holders of the program: the context itself, and the pins. -/
def holders (context : Context) : Nat :=
  (if context.isLoaded && 0 < context.handles then 1 else 0) + context.pins

/-- Whether something still holds the program. -/
def isLive (context : Context) : Bool :=
  0 < context.holders

end Context

/-- What tells whether an unloaded context has been reclaimed. Unloading a context a second time
finds nothing to watch. -/
structure UnloadHandle where
  identity : String
  watched : Option ContextKey
  deriving DecidableEq

/-- An entry of a registry: a name, and the context that it was given to. -/
structure Registration where
  identity : String
  key : ContextKey
  deriving DecidableEq

/-- The state of a host: the modules it offers, its supply of names, the contexts in the order of
their loading, the registry of their names, and the console. -/
structure Host where
  table : ModuleTable
  ids : IdSource
  contexts : List Context
  registry : List Registration
  console : Console

namespace Host

/-- A host that has loaded nothing yet. -/
def fresh (table : ModuleTable) (ids : IdSource) (console : Console) : Host :=
  ⟨table, ids, [], [], console⟩

/-- A context by its number. -/
def context? (host : Host) (key : ContextKey) : Option Context :=
  host.contexts[key]?

/-- Change a context. -/
def update (host : Host) (key : ContextKey) (change : Context → Context) : Host :=
  { host with contexts := host.contexts.modify key change }

/-- Whether something still holds the program of a context. -/
def isHeld (host : Host) (key : ContextKey) : Bool :=
  (host.context? key).any Context.isLive

/-- The entries of the registry whose contexts have not been reclaimed. -/
def heldEntries (host : Host) : List Registration :=
  host.registry.filter fun entry ↦ host.isHeld entry.key

/-- The names of the contexts that have not been reclaimed, in order. -/
def live (host : Host) : List String :=
  (host.heldEntries.map Registration.identity).mergeSort fun first second ↦ decide (first ≤ second)

/-- Strike the entries of contexts that have been reclaimed off the registry. -/
def sweep (host : Host) : Host :=
  { host with registry := host.heldEntries }

/-- Whether the registry has an entry for a name. -/
def isTaken (host : Host) (identity : String) : Bool :=
  host.registry.any fun entry ↦ entry.identity = identity

/-- Add a context, with an entry for its name. -/
def enroll (host : Host) (context : Context) : Host :=
  { host with
    contexts := host.contexts ++ [context]
    registry := ⟨context.identity, host.contexts.length⟩ :: host.registry }

/-- Draw the next name. -/
def drawId (host : Host) (purpose : IdPurpose) : String × Host :=
  let (name, ids) := host.ids.draw purpose
  (name, { host with ids })

/-- Load an image into a new context with one handle. The name is drawn once the image has turned
out to be usable, and has to be free. It is registered when stale entries have been struck off. -/
def load (host : Host) (bytes : Bytes) : Except LoadFault ContextKey × Host :=
  match prepare host.table bytes with
  | .error fault => (.error fault, host)
  | .ok program =>
      let (identity, host) := host.drawId .context
      let host := host.sweep
      if host.isTaken identity then (.error (.duplicateContext identity), host)
      else (.ok host.contexts.length, host.enroll ⟨identity, program, true, 1, 0⟩)

/-- The name of a context. -/
def identity (host : Host) (key : ContextKey) : String :=
  ((host.context? key).map Context.identity).getD ""

/-- Whether a context has been unloaded. -/
def isUnloaded (host : Host) (key : ContextKey) : Bool :=
  match host.context? key with
  | some context => !context.isLoaded
  | none => true

/-- Make another handle of a context. -/
def cloneHandle (host : Host) (key : ContextKey) : Host :=
  host.update key fun context ↦ { context with handles := context.handles + 1 }

/-- Drop a handle of a context. -/
def dropHandle (host : Host) (key : ContextKey) : Host :=
  host.update key fun context ↦ { context with handles := context.handles - 1 }

/-- Pin the program of a context and give the name of its unit. An unloaded context has no program
to pin. -/
def pin (host : Host) (key : ContextKey) : Option String × Host :=
  match host.context? key with
  | none => (none, host)
  | some context =>
      if context.isLoaded then
        (some context.program.image.name,
          host.update key fun context ↦ { context with pins := context.pins + 1 })
      else (none, host)

/-- What a pin of the program of a context answers when it is asked for the name of the unit. -/
def pinnedUnit? (host : Host) (key : ContextKey) : Option String :=
  match host.context? key with
  | some context => if 0 < context.pins then some context.program.image.name else none
  | none => none

/-- Drop a pin of the program of a context. -/
def dropPin (host : Host) (key : ContextKey) : Host :=
  host.update key fun context ↦ { context with pins := context.pins - 1 }

/-- Unload a context. -/
def unload (host : Host) (key : ContextKey) : UnloadHandle × Host :=
  let watched := if host.isUnloaded key then none else some key
  (⟨host.identity key, watched⟩,
    host.update key fun context ↦ { context with isLoaded := false })

/-- Whether the context that a handle watches has been reclaimed. -/
def isReclaimed (host : Host) (handle : UnloadHandle) : Bool :=
  match handle.watched with
  | none => true
  | some key =>
      match host.context? key with
      | some context => !context.isLive
      | none => true

end Host

end Session

end GuestScript
