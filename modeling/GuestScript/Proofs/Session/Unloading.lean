import GuestScript.Proofs.Session.Histories

/-!
# Unloaded contexts

A context is unloaded exactly if an unload of it has happened, and it stays so. The handle that the
first unload of a context gives tells at any later time whether something still holds the program.
A later unload of the same context gives a handle that watches nothing and always says that the
context has been reclaimed, also while a pin holds the program.
-/

namespace GuestScript

namespace Session

variable {host next last : Host} {event : Event} {events later : List Event} {key : ContextKey}
  {handle : UnloadHandle}

/-- A context is there and has been unloaded. -/
def Host.HasUnloaded (host : Host) (key : ContextKey) : Prop :=
  ∃ context, host.context? key = some context ∧ context.isLoaded = false

/-- A change that leaves contexts loaded or unloaded. -/
theorem Host.hasUnloaded_update {changed : ContextKey} {change : Context → Context}
    (keeps : ∀ context, (change context).isLoaded = context.isLoaded) :
    (host.update changed change).HasUnloaded key ↔ host.HasUnloaded key := by
  simp only [Host.HasUnloaded, Host.context?_update]
  split
  · simp only [Option.map_eq_some_iff]
    constructor
    · rintro ⟨_, ⟨context, found, rfl⟩, unloaded⟩
      exact ⟨context, found, keeps context ▸ unloaded⟩
    · rintro ⟨context, found, unloaded⟩
      exact ⟨_, ⟨context, found, rfl⟩, (keeps context).trans unloaded⟩
  · rfl

theorem Host.hasUnloaded_of_contexts (same : next.contexts = host.contexts) :
    next.HasUnloaded key ↔ host.HasUnloaded key := by
  simp only [Host.HasUnloaded, Host.context?, same]

/-- A context that is loaded is not unloaded. -/
theorem Host.hasUnloaded_load (bytes : Bytecode.Bytes) :
    (host.load bytes).2.HasUnloaded key ↔ host.HasUnloaded key := by
  obtain ⟨_, -, same⟩ | ⟨identity, program, -, more⟩ := host.load_contexts bytes
  · exact Host.hasUnloaded_of_contexts same
  · simp only [Host.HasUnloaded, Host.context?, more, List.getElem?_append]
    split
    · rfl
    · rename_i outside
      rw [List.getElem?_eq_none (Nat.le_of_not_lt outside)]
      constructor
      · rintro ⟨context, found, unloaded⟩
        rw [List.mem_singleton.mp (List.mem_of_getElem? found)] at unloaded
        cases unloaded
      · rintro ⟨_, ⟨⟩, _⟩

/-- An event unloads a context exactly if it is an unload of this context. -/
theorem Happens.hasUnloaded_iff (happens : Happens host event next) :
    next.HasUnloaded key ↔
      host.HasUnloaded key ∨ ∃ handle, event = .unloaded key handle := by
  cases happens with
  | load bytes => simp [Host.hasUnloaded_load]
  | invoke fuel entry arguments hasHandle invoked =>
      simp [Host.hasUnloaded_of_contexts (Host.invoke_contexts invoked)]
  | clone hasHandle => simp [Host.cloneHandle, Host.hasUnloaded_update]
  | drop hasHandle => simp [Host.dropHandle, Host.hasUnloaded_update]
  | @pin key' hasHandle =>
      have same : (host.pin key').2.HasUnloaded key ↔ host.HasUnloaded key := by
        rw [Host.pin]
        split
        · rfl
        split
        · exact Host.hasUnloaded_update fun _ ↦ rfl
        · rfl
      simp [same]
  | unpin hasPin => simp [Host.dropPin, Host.hasUnloaded_update]
  | @unload key' hasHandle =>
      obtain ⟨context, found, -⟩ := hasHandle
      simp only [Host.HasUnloaded, Host.unload, Host.context?_update]
      split
      · rename_i same
        subst same
        simp [found]
      · rename_i other
        simp [Ne.symm other]

/-- A context is unloaded exactly if an unload of it has happened. -/
theorem History.hasUnloaded_iff (history : History host events last) :
    last.HasUnloaded key ↔
      host.HasUnloaded key ∨ ∃ handle, .unloaded key handle ∈ events := by
  induction history with
  | nil => simp
  | cons happens _ ih =>
      rw [ih, happens.hasUnloaded_iff, or_assoc]
      simp only [List.mem_cons, exists_or, eq_comm]

/-- The handle of an unload watches the context if it is the first one. -/
theorem Host.unload_watched {context : Context} (found : host.context? key = some context) :
    (host.unload key).1.watched = if context.isLoaded then some key else none := by
  simp only [Host.unload, Host.isUnloaded, found]
  cases context.isLoaded <;> rfl

/-- A handle that watches a context says whether nothing holds its program. -/
theorem Host.isReclaimed_of_watched (watches : handle.watched = some key) :
    host.isReclaimed handle = true ↔ ¬ host.Holds key := by
  simp only [Host.isReclaimed, watches, Host.Holds]
  cases host.context? key with
  | none => simp
  | some context => simp

/-- After any history, the handle that an unload gave says that the context has been reclaimed
exactly if the context had been unloaded before or nothing holds its program. -/
theorem History.isReclaimed_iff {table : ModuleTable} {ids : IdSource} {console : Machine.Console}
    (history : History (.fresh table ids console) (events ++ .unloaded key handle :: later) last) :
    last.isReclaimed handle = true ↔
      (∃ earlier, .unloaded key earlier ∈ events) ∨ ¬ last.Holds key := by
  obtain ⟨middle, before, after⟩ := history.split
  cases after with
  | cons happens _ =>
      cases happens with
      | unload hasHandle =>
          obtain ⟨context, found, -⟩ := hasHandle
          have watched := Host.unload_watched found
          have fresh : ¬ (Host.fresh table ids console).HasUnloaded key := nofun
          have unloaded : middle.HasUnloaded key ↔ ∃ earlier, .unloaded key earlier ∈ events := by
            rw [before.hasUnloaded_iff, or_iff_right fresh]
          rw [← unloaded]
          -- only the unload that takes the program gives a handle that watches it
          cases loaded : context.isLoaded with
          | true =>
              rw [loaded, if_pos rfl] at watched
              rw [Host.isReclaimed_of_watched watched]
              have : ¬ middle.HasUnloaded key := by
                rintro ⟨other, same, unloaded⟩
                obtain rfl := Option.some.inj (found.symm.trans same)
                exact absurd (loaded.symm.trans unloaded) nofun
              rw [or_iff_right this]
          | false =>
              rw [loaded, if_neg nofun] at watched
              simp only [Host.isReclaimed, watched]
              exact iff_of_true trivial (.inl ⟨context, found, loaded⟩)

/-- An image with nothing in it. -/
def emptyImage : Bytecode.Image :=
  ⟨"unit", #[], #[], #[], none⟩

/-- A host that has loaded this image as its only context, with one handle. -/
def onlyLoaded : Host :=
  ((Host.fresh .standard (.fixed "c") .empty).load emptyImage.encode).2

theorem onlyLoaded_accepted :
    ((Host.fresh .standard (.fixed "c") .empty).load emptyImage.encode).1 = .ok 0 := by
  rfl

theorem context?_onlyLoaded : ∃ identity program,
    onlyLoaded.context? 0 = some ⟨identity, program, true, 1, 0⟩ := by
  rcases Host.load_contexts (.fresh .standard (.fixed "c") .empty) emptyImage.encode with
    ⟨_, failed, -⟩ | ⟨identity, program, -, contexts⟩
  · exact absurd (onlyLoaded_accepted.symm.trans failed) nofun
  · exact ⟨identity, program, by rw [Host.context?, onlyLoaded, contexts]; rfl⟩

/-- This host with a pin of the program. -/
def pinnedOnce : Host :=
  (onlyLoaded.pin 0).2

/-- This host after the context has been unloaded, but not the pin dropped. -/
def unloadedOnce : Host :=
  (pinnedOnce.unload 0).2

theorem context?_pinnedOnce : ∃ identity program,
    pinnedOnce.context? 0 = some ⟨identity, program, true, 1, 1⟩ := by
  obtain ⟨identity, program, found⟩ := context?_onlyLoaded
  refine ⟨identity, program, ?_⟩
  simp [pinnedOnce, Host.pin, found, Host.context?_update]

theorem context?_unloadedOnce : ∃ identity program,
    unloadedOnce.context? 0 = some ⟨identity, program, false, 1, 1⟩ := by
  obtain ⟨identity, program, found⟩ := context?_pinnedOnce
  refine ⟨identity, program, ?_⟩
  simp [unloadedOnce, Host.unload, found, Host.context?_update]

/-- The history of a context that is pinned and unloaded. -/
theorem history_unloadedOnce :
    History (.fresh .standard (.fixed "c") .empty)
      [.loaded (.ok 0), .pinned 0 (onlyLoaded.pin 0).1, .unloaded 0 (pinnedOnce.unload 0).1]
      unloadedOnce := by
  have loaded := Happens.load (.fresh .standard (.fixed "c") .empty) emptyImage.encode
  rw [onlyLoaded_accepted] at loaded
  obtain ⟨_, _, fresh⟩ := context?_onlyLoaded
  obtain ⟨_, _, pinned⟩ := context?_pinnedOnce
  exact .cons loaded <| .cons (.pin ⟨_, fresh, Nat.one_pos⟩) <|
    .cons (.unload ⟨_, pinned, Nat.one_pos⟩) (.nil _)

/-- The history of a context that is unloaded a second time while a pin holds the program. -/
theorem history_unloadedTwice :
    History (.fresh .standard (.fixed "c") .empty)
      ([.loaded (.ok 0), .pinned 0 (onlyLoaded.pin 0).1, .unloaded 0 (pinnedOnce.unload 0).1]
        ++ .unloaded 0 (unloadedOnce.unload 0).1 :: [])
      (unloadedOnce.unload 0).2 := by
  obtain ⟨_, _, unloaded⟩ := context?_unloadedOnce
  exact history_unloadedOnce.append (.cons (.unload ⟨_, unloaded, Nat.one_pos⟩) (.nil _))

/-- The handle of that second unload says whether the context has been reclaimed as it says after
any history: always, since the context had been unloaded before. -/
theorem History.isReclaimed_iff_unloadedTwice :
    (unloadedOnce.unload 0).2.isReclaimed (unloadedOnce.unload 0).1 = true ↔
      (∃ earlier, .unloaded 0 earlier ∈ [.loaded (.ok 0), .pinned 0 (onlyLoaded.pin 0).1,
        Event.unloaded 0 (pinnedOnce.unload 0).1]) ∨ ¬ (unloadedOnce.unload 0).2.Holds 0 :=
  History.isReclaimed_iff history_unloadedTwice

/-- Not every handle says whether something still holds the program of its context. -/
theorem not_isReclaimed_iff_holds :
    ¬ ∀ {table : ModuleTable} {ids : IdSource} {console : Machine.Console} {events : List Event}
      {last : Host} {key : ContextKey} {handle : UnloadHandle},
      History (.fresh table ids console) events last → .unloaded key handle ∈ events →
      (last.isReclaimed handle = true ↔ ¬ last.Holds key) := by
  intro truthful
  obtain ⟨identity, program, found⟩ := context?_unloadedOnce
  have complete : (unloadedOnce.unload 0).2.isReclaimed (unloadedOnce.unload 0).1 = true := by
    have watched := Host.unload_watched found
    simp only [Bool.false_eq_true, if_false] at watched
    rw [Host.isReclaimed, watched]
  have holds : (unloadedOnce.unload 0).2.Holds 0 :=
    ⟨⟨identity, program, false, 1, 1⟩, by simp [Host.unload, found, Host.context?_update], rfl⟩
  exact (truthful history_unloadedTwice (by simp)).mp complete holds

end Session

end GuestScript
