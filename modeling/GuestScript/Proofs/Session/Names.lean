import Mathlib.Data.List.Nodup
import GuestScript.Proofs.Session.Unloading

/-!
# Names of contexts

Whatever happens to a host and whatever names it draws, two contexts whose programs are held never
have the same name, `live` lists the names of these contexts, and a load gets its name exactly if no
such context has it. The registry and the contexts are kept in step by `Host.Registered`: every entry
is that of a context of its name, no name has two entries, and the entry of a context stays as long
as something holds the program.
-/

namespace GuestScript

namespace Session

open Bytecode (Bytes Image)
open Machine (Console Program)

variable {host next : Host} {key : ContextKey} {table : ModuleTable} {ids : IdSource}
  {console : Console} {bytes : Bytes} {program : Program} {fault : LoadFault}

/-- The program of a context is held by the context or by a pin. -/
theorem Context.isLive_iff {context : Context} : context.isLive = true ↔
    (context.isLoaded = true ∧ 0 < context.handles) ∨ 0 < context.pins := by
  simp only [Context.isLive, Context.holders, Bool.and_eq_true, decide_eq_true_eq]
  split
  · next holds => exact iff_of_true (by omega) (.inl holds)
  · next released => rw [Nat.zero_add, or_iff_right released]

namespace Host

/-! ## Held programs -/

theorem isHeld_iff : host.isHeld key = true ↔ host.Holds key := by
  simp only [isHeld, Holds, Option.any_eq_true]

theorem mem_heldEntries {entry : Registration} :
    entry ∈ host.heldEntries ↔ entry ∈ host.registry ∧ host.Holds entry.key := by
  rw [heldEntries, List.mem_filter, isHeld_iff]

/-- A name is live if an entry gives it to a context whose program is held. -/
theorem mem_live {name : String} :
    name ∈ host.live ↔ ∃ entry ∈ host.heldEntries, entry.identity = name := by
  rw [live, List.mem_mergeSort, List.mem_map]

/-- No name is live when nothing has been loaded. -/
theorem live_fresh (table : ModuleTable) (ids : IdSource) (console : Console) :
    (fresh table ids console).live = [] := by
  simp [live, heldEntries, fresh]

/-- To strike stale entries off the registry does not change which names are live. -/
theorem heldEntries_sweep (host : Host) : host.sweep.heldEntries = host.heldEntries := by
  refine List.filter_eq_self.mpr fun entry inside ↦ ?_
  exact (List.mem_filter.mp inside).2

theorem live_sweep (host : Host) : host.sweep.live = host.live := by
  rw [live, heldEntries_sweep, live]

theorem isTaken_sweep {name : String} : host.sweep.isTaken name = true ↔ name ∈ host.live := by
  simp only [isTaken, List.any_eq_true, decide_eq_true_eq, mem_live]
  rfl

/-! ## Loading -/

/-- A context that is added is the last one. -/
theorem context?_enroll (host : Host) (context : Context) :
    (host.enroll context).context? host.contexts.length = some context :=
  List.getElem?_concat_length

/-- An image that cannot be used does not get as far as drawing a name. -/
theorem load_of_refused (refused : prepare host.table bytes = .error fault) :
    host.load bytes = (.error fault, host) := by
  rw [load, refused]

/-- An image that can be used is loaded under the next name, unless that name is live. -/
theorem load_of_prepared (prepared : prepare host.table bytes = .ok program) :
    host.load bytes =
      let (identity, drawn) := host.drawId .context
      if identity ∈ host.live then (.error (.duplicateContext identity), drawn.sweep)
      else (.ok host.contexts.length, drawn.sweep.enroll ⟨identity, program, true, 1, 0⟩) := by
  rw [load, prepared]
  have taken : (host.drawId .context).2.sweep.isTaken (host.drawId .context).1 = true
      ↔ (host.drawId .context).1 ∈ host.live := isTaken_sweep
  simp only [taken]
  rfl

/-- Bytes can be used if they are those of an image whose imports can all be bound. -/
theorem prepare_eq_ok_iff :
    prepare table bytes = .ok program ↔
      ∃ image, Image.decode bytes = .ok image ∧ link table image = .ok program := by
  rw [prepare]
  cases bytes with
  | nil => exact ⟨nofun, fun ⟨_, decoded, _⟩ ↦ absurd decoded nofun⟩
  | cons first rest =>
      simp only [List.isEmpty_cons, Bool.false_eq_true, if_false]
      split
      · next refused =>
          refine ⟨nofun, fun ⟨_, decoded, _⟩ ↦ ?_⟩
          exact absurd (refused.symm.trans decoded) nofun
      · next image decoded =>
          refine ⟨fun linked ↦ ⟨image, decoded, linked⟩, ?_⟩
          rintro ⟨_, decoded', linked⟩
          obtain rfl := Except.ok.inj (decoded.symm.trans decoded')
          exact linked

/-! ## The registry and the contexts -/

/-- The registry and the contexts are in step. -/
structure Registered (host : Host) : Prop where
  known : ∀ entry ∈ host.registry,
    ∃ context, host.context? entry.key = some context ∧ context.identity = entry.identity
  distinct : (host.registry.map Registration.identity).Nodup
  complete : ∀ {key : ContextKey} {context : Context}, host.context? key = some context →
    context.isLive = true → ⟨context.identity, key⟩ ∈ host.registry

theorem registered_fresh (table : ModuleTable) (ids : IdSource) (console : Console) :
    (fresh table ids console).Registered :=
  ⟨nofun, .nil, nofun⟩

namespace Registered

/-- A change of a context keeps the registry in step if it leaves the name as it is and does not
bring a context back that has been reclaimed. -/
theorem update (registered : host.Registered) {change : Context → Context}
    (names : ∀ context, (change context).identity = context.identity)
    (brings : ∀ context, host.context? key = some context → (change context).isLive = true →
      context.isLive = true) :
    (host.update key change).Registered := by
  refine ⟨fun entry inside ↦ ?_, registered.distinct, ?_⟩
  · obtain ⟨context, found, name⟩ := registered.known entry inside
    rw [context?_update, found]
    split
    · exact ⟨change context, rfl, (names context).trans name⟩
    · exact ⟨context, rfl, name⟩
  · intro other context found live
    rw [context?_update] at found
    split at found
    · next same =>
        obtain ⟨before, here, rfl⟩ := Option.map_eq_some_iff.mp found
        rw [names]
        exact registered.complete here (brings before (same ▸ here) live)
    · exact registered.complete found live

theorem sweep (registered : host.Registered) : host.sweep.Registered := by
  refine ⟨fun entry inside ↦ registered.known entry (List.mem_of_mem_filter inside), ?_, ?_⟩
  · exact registered.distinct.sublist (List.filter_sublist.map _)
  · intro key context found live
    exact mem_heldEntries.mpr ⟨registered.complete found live, context, found, live⟩

/-- A context may be added under a name that has no entry. -/
theorem enroll (registered : host.Registered) {context : Context}
    (free : host.isTaken context.identity = false) : (host.enroll context).Registered := by
  have found (key : ContextKey) : (host.enroll context).context? key
      = if key < host.contexts.length then host.context? key
        else [context][key - host.contexts.length]? :=
    List.getElem?_append
  refine ⟨?_, ?_, ?_⟩
  · refine List.forall_mem_cons.mpr ⟨⟨context, ?_, rfl⟩, fun entry inside ↦ ?_⟩
    · rw [found, if_neg (Nat.lt_irrefl _), Nat.sub_self]
      rfl
    · obtain ⟨other, known, name⟩ := registered.known entry inside
      exact ⟨other, by rw [found, if_pos (List.getElem?_eq_some_iff.mp known).1, known], name⟩
  · refine List.nodup_cons.mpr ⟨fun inside ↦ ?_, registered.distinct⟩
    obtain ⟨entry, inside, same⟩ := List.mem_map.mp inside
    have apart := List.any_eq_false.mp free entry inside
    exact apart (decide_eq_true same)
  · intro key other here live
    rw [found] at here
    split at here
    · exact List.mem_cons_of_mem _ (registered.complete here live)
    · next outside =>
        -- behind the contexts that were there, only the new one is found
        obtain ⟨inside, rfl⟩ := List.getElem?_eq_some_iff.mp here
        have last : key = host.contexts.length :=
          Nat.le_antisymm (Nat.sub_eq_zero_iff_le.mp (Nat.lt_one_iff.mp inside))
            (Nat.le_of_not_lt outside)
        rw [List.getElem_singleton, last]
        exact List.mem_cons_self

theorem load (registered : host.Registered) (bytes : Bytes) :
    (host.load bytes).2.Registered := by
  cases prepared : prepare host.table bytes with
  | error fault =>
      rw [load_of_refused prepared]
      exact registered
  | ok program =>
      have drawn : (host.drawId .context).2.sweep.Registered :=
        sweep ⟨registered.known, registered.distinct, registered.complete⟩
      rw [load_of_prepared prepared]
      simp only
      split
      · exact drawn
      · next free =>
          refine drawn.enroll (Bool.eq_false_iff.mpr fun taken ↦ free ?_)
          exact isTaken_sweep.mp taken

/-- The name of a context whose program is held is live, and there is no other such name. -/
theorem mem_live_iff (registered : host.Registered) {name : String} :
    name ∈ host.live ↔ ∃ key, host.Holds key ∧ host.identity key = name := by
  rw [mem_live]
  constructor
  · rintro ⟨entry, held, rfl⟩
    obtain ⟨inside, holds⟩ := mem_heldEntries.mp held
    obtain ⟨context, found, name⟩ := registered.known entry inside
    exact ⟨entry.key, holds, by rw [identity, found]; exact name⟩
  · rintro ⟨key, ⟨context, found, live⟩, rfl⟩
    refine ⟨⟨context.identity, key⟩, ?_, by rw [identity, found]; rfl⟩
    exact mem_heldEntries.mpr ⟨registered.complete found live, context, found, live⟩

/-- Two contexts whose programs are held have different names. -/
theorem identity_injective (registered : host.Registered) {first second : ContextKey}
    (held : host.Holds first) (held' : host.Holds second)
    (same : host.identity first = host.identity second) : first = second := by
  obtain ⟨context, found, live⟩ := held
  obtain ⟨context', found', live'⟩ := held'
  rw [identity, identity, found, found'] at same
  have entries := List.inj_on_of_nodup_map registered.distinct (registered.complete found live)
    (registered.complete found' live') same
  exact congrArg Registration.key entries

/-- The live names are in order, and each is listed once. -/
theorem live_increasing (registered : host.Registered) : host.live.Pairwise (· < ·) := by
  have ordered : host.live.Pairwise (· ≤ ·) := by
    have sorted := @List.pairwise_mergeSort String (fun first second ↦ decide (first ≤ second))
      (fun _ _ _ ↦ by simpa using String.le_trans) (fun first second ↦ by
        simpa using String.le_total first second)
      (host.heldEntries.map Registration.identity)
    exact sorted.imp of_decide_eq_true
  have once : host.live.Nodup :=
    (List.mergeSort_perm _ _).nodup_iff.mpr
      (registered.distinct.sublist (List.filter_sublist.map _))
  exact (ordered.and once).imp fun ⟨le, different⟩ ↦ Std.lt_of_le_of_ne le different

end Registered

end Host

/-! ## Histories -/

/-- Every event keeps the registry in step with the contexts: only a load registers a name, and
nothing brings a context back that has been reclaimed. -/
theorem Happens.registered {event : Event} (happens : Happens host event next)
    (registered : host.Registered) : next.Registered := by
  cases happens with
  | load bytes => exact registered.load bytes
  | invoke fuel entry arguments hasHandle invoked =>
      rw [Host.invoke_host invoked]
      exact ⟨registered.known, registered.distinct, registered.complete⟩
  | clone hasHandle =>
      obtain ⟨context, found, handles⟩ := hasHandle
      refine registered.update (fun _ ↦ rfl) fun other same live ↦ ?_
      obtain rfl := Option.some.inj (found.symm.trans same)
      rw [Context.isLive_iff] at live ⊢
      exact live.imp_left fun there ↦ ⟨there.1, handles⟩
  | drop hasHandle =>
      refine registered.update (fun _ ↦ rfl) fun context _ live ↦ ?_
      rw [Context.isLive_iff] at live ⊢
      exact live.imp_left (And.imp_right fun handles ↦
        Nat.lt_of_lt_of_le handles (Nat.sub_le _ _))
  | @pin key' hasHandle =>
      rw [Host.pin]
      split
      · exact registered
      · next context found =>
          split
          · next loaded =>
              refine registered.update (fun _ ↦ rfl) fun other same _ ↦ ?_
              obtain ⟨other, same', handles⟩ := hasHandle
              obtain rfl := Option.some.inj (found.symm.trans same)
              obtain rfl := Option.some.inj (found.symm.trans same')
              exact Context.isLive_iff.mpr (.inl ⟨loaded, handles⟩)
          · exact registered
  | unpin hasPin =>
      refine registered.update (fun _ ↦ rfl) fun context _ live ↦ ?_
      rw [Context.isLive_iff] at live ⊢
      exact live.imp_right fun pins ↦ Nat.lt_of_lt_of_le pins (Nat.sub_le _ _)
  | @unload key' hasHandle =>
      refine registered.update (fun _ ↦ rfl) fun context _ live ↦ ?_
      rw [Context.isLive_iff] at live ⊢
      exact live.imp_left fun there ↦ absurd there.1 Bool.false_ne_true

/-- After any history the registry is in step with the contexts. -/
theorem History.registered {events : List Event}
    (history : History (.fresh table ids console) events host) : host.Registered :=
  history.preserves Happens.registered (Host.registered_fresh table ids console)

/-- Another state has the same contexts, each with its program, handles and pins. The same names are
live, the handles of unloads say the same, and nothing has been written. -/
structure Host.SameContexts (host next : Host) : Prop where
  contexts : next.contexts = host.contexts
  live : next.live = host.live
  reclaimed : ∀ handle, next.isReclaimed handle = host.isReclaimed handle
  console : next.console = host.console

/-- A load that fails leaves everything that has been loaded before as it is. -/
theorem Host.sameContexts_of_load_error (failed : (host.load bytes).1 = .error fault) :
    host.SameContexts (host.load bytes).2 := by
  cases prepared : prepare host.table bytes with
  | error refusal =>
      rw [load_of_refused prepared]
      exact ⟨rfl, rfl, fun _ ↦ rfl, rfl⟩
  | ok program =>
      rw [load_of_prepared prepared] at failed ⊢
      simp only at failed ⊢
      split at failed
      · next taken =>
          rw [if_pos taken]
          exact ⟨rfl, live_sweep _, fun _ ↦ rfl, rfl⟩
      · exact absurd failed nofun

/-- Names tell the contexts of a host apart, as long as something holds their programs: no two have
the same one, and the live names are theirs. An image that can be used is loaded exactly if the name
drawn for it is not live, and a load that fails changes nothing. -/
structure Host.KeepsNamesApart (host : Host) : Prop where
  distinct : ∀ {first second : ContextKey}, host.Holds first → host.Holds second →
    host.identity first = host.identity second → first = second
  ordered : host.live.Pairwise (· < ·)
  listed : ∀ name, name ∈ host.live ↔ ∃ key, host.Holds key ∧ host.identity key = name
  loads : ∀ {bytes : Bytes} {image : Image} {program : Program}, Image.decode bytes = .ok image →
    link host.table image = .ok program →
    let drawn := (host.drawId .context).1
    ((∃ key, (host.load bytes).1 = .ok key) ↔ drawn ∉ host.live) ∧
      (drawn ∈ host.live → (host.load bytes).1 = .error (.duplicateContext drawn))
  fails : ∀ {bytes : Bytes} {fault : LoadFault}, (host.load bytes).1 = .error fault →
    host.SameContexts (host.load bytes).2

/-- After any history, names tell the contexts apart whose programs are held. -/
theorem History.keepsNamesApart {events : List Event}
    (history : History (.fresh table ids console) events host) : host.KeepsNamesApart := by
  have registered := history.registered
  refine
    { distinct := registered.identity_injective
      ordered := registered.live_increasing
      listed := fun _ ↦ registered.mem_live_iff
      loads := fun decoded linked ↦ ?_
      fails := Host.sameContexts_of_load_error }
  have prepared := Host.prepare_eq_ok_iff.mpr ⟨_, decoded, linked⟩
  rw [Host.load_of_prepared prepared]
  simp only
  split
  · next taken => exact ⟨iff_of_false (fun ⟨_, loaded⟩ ↦ absurd loaded nofun)
      (not_not_intro taken), fun _ ↦ rfl⟩
  · next free => exact ⟨iff_of_true ⟨_, rfl⟩ free, fun taken ↦ absurd taken free⟩

theorem decode_emptyImage : Image.decode emptyImage.encode = .ok emptyImage := by
  rfl

theorem table_unloadedOnce : unloadedOnce.table = .standard := by
  rfl

/-- A host that draws the same name every time, and that has unloaded its only context while a pin
holds the program, does not load the image again. -/
theorem History.keepsNamesApart_unloadedOnce :
    "c" ∈ unloadedOnce.live ∧
      (unloadedOnce.load emptyImage.encode).1 = .error (.duplicateContext "c") ∧
      unloadedOnce.SameContexts (unloadedOnce.load emptyImage.encode).2 := by
  have apart := History.keepsNamesApart history_unloadedOnce
  obtain ⟨_, _, found⟩ := context?_unloadedOnce
  have live : "c" ∈ unloadedOnce.live := (apart.listed "c").mpr ⟨0, ⟨_, found, rfl⟩, rfl⟩
  have linked : link unloadedOnce.table emptyImage = .ok ⟨emptyImage, #[]⟩ := by
    rw [table_unloadedOnce]
    rfl
  have taken := (apart.loads decode_emptyImage linked).2 live
  exact ⟨live, taken, apart.fails taken⟩

end Session

end GuestScript
