import Mathlib.Data.List.Induction
import Mathlib.Data.List.Nodup
import GuestScript.Proofs.Session.Linking

/-!
# Resolving names

A table that modules were bound to has each of their names once, where it was bound first, with what
was bound to it last. Resolving takes one name after the other and leaves out what is there already,
what is not allowed and what the table lacks: `entries_foldl_resolveName` says that this is one
filter over the names. So both ways to resolve find the same modules in the same order, apart from
those that have no marker.
-/

namespace GuestScript

/-! ## Lists without repetitions -/

theorem eraseDups_concat (names : List String) (name : String) :
    (names ++ [name]).eraseDups
      = if name ∈ names then names.eraseDups else names.eraseDups ++ [name] := by
  rw [List.eraseDups_append, List.removeAll]
  split
  · next known => simp [known]
  · next new => simp [new, List.eraseDups_cons]

theorem nodup_eraseDups (names : List String) : names.eraseDups.Nodup := by
  induction names using List.reverseRecOn with
  | nil => exact .nil
  | append_singleton names name ih =>
      rw [eraseDups_concat]
      split
      · exact ih
      · next new =>
          refine List.nodup_append.mpr ⟨ih, List.nodup_singleton name, ?_⟩
          rintro earlier inside _ again rfl
          obtain rfl := List.mem_singleton.mp again
          exact new (List.mem_eraseDups.mp inside)

/-! ## Modules that are bound -/

namespace ModuleTable

/-- The table after these bindings were made, one after the other. -/
def ofHistory (history : List ModuleBinding) : ModuleTable :=
  history.foldl (fun table binding ↦ table.bind binding.host binding.version) .empty

/-- The names of the modules, in order. -/
def names (table : ModuleTable) : List String :=
  table.bindings.map ModuleBinding.name

/-- The last binding of a name. -/
def latest? (history : List ModuleBinding) (name : String) : Option ModuleBinding :=
  history.reverse.find? fun binding ↦ binding.name = name

theorem latest?_concat (history : List ModuleBinding) (binding : ModuleBinding) (name : String) :
    latest? (history ++ [binding]) name
      = if binding.name = name then some binding else latest? history name := by
  rw [latest?, List.reverse_append, List.reverse_singleton, List.singleton_append, List.find?_cons]
  split
  · next same => rw [if_pos (of_decide_eq_true same)]
  · next other => rw [if_neg (of_decide_eq_false other), latest?]

theorem map_name_replaceOrAppend (binding : ModuleBinding) (bindings : List ModuleBinding) :
    (replaceOrAppend binding bindings).map ModuleBinding.name
      = if binding.name ∈ bindings.map ModuleBinding.name then bindings.map ModuleBinding.name
        else bindings.map ModuleBinding.name ++ [binding.name] := by
  induction bindings with
  | nil => rfl
  | cons first rest ih =>
      rw [replaceOrAppend]
      split
      · next same => simp [same]
      · next other =>
          have other' : ¬ binding.name = first.name := fun same ↦ other same.symm
          simp only [List.map_cons, ih, List.mem_cons, other', false_or]
          split <;> rfl

theorem find?_replaceOrAppend (binding : ModuleBinding) (bindings : List ModuleBinding)
    (name : String) :
    (replaceOrAppend binding bindings).find? (fun present ↦ present.name = name)
      = if binding.name = name then some binding
        else bindings.find? fun present ↦ present.name = name := by
  induction bindings with
  | nil => simp [replaceOrAppend, List.find?_singleton]
  | cons first rest ih =>
      rw [replaceOrAppend]
      split
      · next same => by_cases here : binding.name = name <;> simp [same, here]
      · next other =>
          by_cases here : first.name = name
          · have other' : ¬ binding.name = name := fun same ↦ other (here.trans same.symm)
            simp [here, other']
          · simp [here, ih]

theorem ofHistory_concat (history : List ModuleBinding) (binding : ModuleBinding) :
    ofHistory (history ++ [binding]) = (ofHistory history).bind binding.host binding.version := by
  rw [ofHistory, List.foldl_concat, ofHistory]

/-- The names of a table are those that were bound, each where it was bound first. -/
theorem names_ofHistory (history : List ModuleBinding) :
    (ofHistory history).names = (history.map ModuleBinding.name).eraseDups := by
  induction history using List.reverseRecOn with
  | nil => rfl
  | append_singleton history binding ih =>
      rw [ofHistory_concat, List.map_append, List.map_singleton, eraseDups_concat, ← ih]
      refine (map_name_replaceOrAppend binding (ofHistory history).bindings).trans ?_
      have known : binding.name ∈ (ofHistory history).bindings.map ModuleBinding.name
          ↔ binding.name ∈ history.map ModuleBinding.name := by
        rw [← List.mem_eraseDups (l := history.map ModuleBinding.name), ← ih, names]
      simp only [known, names]

/-- A table has the last binding of each name. -/
theorem lookup?_ofHistory (history : List ModuleBinding) (name : String) :
    (ofHistory history).lookup? name = latest? history name := by
  induction history using List.reverseRecOn with
  | nil => rfl
  | append_singleton history binding ih =>
      rw [ofHistory_concat, latest?_concat, ← ih]
      exact find?_replaceOrAppend binding (ofHistory history).bindings name

/-- What a table has under a name of its own is what is found there, if its names are distinct. -/
theorem lookup?_of_mem {table : ModuleTable} (distinct : table.names.Nodup)
    {binding : ModuleBinding} (inside : binding ∈ table.bindings) :
    table.lookup? binding.name = some binding := by
  obtain ⟨bindings⟩ := table
  induction bindings with
  | nil => cases inside
  | cons first rest ih =>
      obtain ⟨new, distinct⟩ := List.nodup_cons.mp distinct
      obtain rfl | later := List.mem_cons.mp inside
      · simp [lookup?]
      · have other : ¬ first.name = binding.name := fun same ↦
          new (same ▸ List.mem_map_of_mem later)
        rw [← ih distinct later]
        simp [lookup?, other]

end ModuleTable

/-! ## Names that are resolved -/

namespace ReferenceSet

variable {table : ModuleTable} {allowed : String → Bool}

theorem lookup_insert (set : ReferenceSet) (binding : ModuleBinding) (name : String) :
    (set.insert binding).lookup? name
      = (set.lookup? name).or (if binding.name = name then some binding else none) := by
  unfold insert
  split
  · next known =>
      split
      · next same =>
          obtain ⟨earlier, found⟩ := Option.isSome_iff_exists.mp known
          rw [← same, found, Option.some_or]
      · rw [Option.or_none]
  · rw [lookup?, List.find?_append, List.find?_singleton, lookup?]
    simp only [decide_eq_true_eq]

/-- A name that is looked for is found in the set already, or in the table if it is allowed. -/
theorem lookup_resolveName (set : ReferenceSet) (wanted name : String) :
    (set.resolveName allowed table wanted).lookup? name
      = (set.lookup? name).or
          (if wanted = name ∧ allowed name then table.lookup? name else none) := by
  have inserted (binding : ModuleBinding) (found : table.lookup? wanted = some binding) :
      (set.insert binding).lookup? name
        = (set.lookup? name).or (if wanted = name then table.lookup? name else none) := by
    rw [lookup_insert, ModuleTable.name_of_lookup? found]
    split
    · next same => rw [← same, found]
    · rfl
  unfold resolveName
  split
  · next known =>
      obtain ⟨earlier, found⟩ := Option.isSome_iff_exists.mp known
      split
      · next both => rw [← both.1, found, Option.some_or]
      · rw [Option.or_none]
  · split
    · next permitted =>
        have same : (wanted = name ∧ allowed name) ↔ wanted = name :=
          ⟨And.left, fun same ↦ ⟨same, same ▸ permitted⟩⟩
        simp only [same]
        cases found : table.lookup? wanted with
        | some binding => exact inserted binding found
        | none =>
            have nothing : (if wanted = name then table.lookup? name else none) = none :=
              ite_eq_right_iff.mpr fun same ↦ same ▸ found
            rw [nothing, Option.or_none]
    · next refused =>
        have nothing : ¬ (wanted = name ∧ allowed name) := fun both ↦ refused (both.1 ▸ both.2)
        rw [if_neg nothing, Option.or_none]

/-- Of the names that are looked for, those are found that are allowed and in the table. -/
theorem lookup_foldl_resolveName (names : List String) (set : ReferenceSet) (name : String) :
    (names.foldl (resolveName allowed table) set).lookup? name
      = (set.lookup? name).or
          (if name ∈ names ∧ allowed name then table.lookup? name else none) := by
  induction names generalizing set with
  | nil => rw [List.foldl_nil, if_neg fun both ↦ List.not_mem_nil both.1, Option.or_none]
  | cons first rest ih =>
      rw [List.foldl_cons, ih, lookup_resolveName, Option.or_assoc]
      congr 1
      by_cases here : first = name
      · subst here
        by_cases permitted : allowed first <;> by_cases again : first ∈ rest <;>
          simp [permitted, again]
      · have other : name ≠ first := fun same ↦ here same.symm
        simp [here, other]


/-- What a name stands for: what the table has under it, if it is allowed. -/
def found? (allowed : String → Bool) (table : ModuleTable) (name : String) :
    Option ModuleBinding :=
  if allowed name then table.lookup? name else none

/-- A module that is found goes by the name that was looked for, so it may be asked afterwards
whether it is allowed. -/
theorem found?_eq_filter (allowed : String → Bool) (table : ModuleTable) :
    found? allowed table = fun name ↦
      (found? (fun _ ↦ true) table name).filter fun binding ↦ allowed binding.name := by
  funext name
  rw [found?, found?, if_pos rfl]
  cases found : table.lookup? name with
  | none => simp
  | some binding => simp only [Option.filter_some, ModuleTable.name_of_lookup? found]

theorem entries_resolveName (set : ReferenceSet) (name : String) :
    (set.resolveName allowed table name).entries
      = if set.contains name then set.entries
        else set.entries ++ (found? allowed table name).toList := by
  rw [resolveName, found?]
  split
  · rfl
  next new =>
  split
  · cases found : table.lookup? name with
    | none => simp
    | some binding =>
        rw [← ModuleTable.name_of_lookup? found] at new
        simp only [ReferenceSet.insert, if_neg new, Option.toList_some]
  · simp

/-- Resolving names one after the other is a filter: each of them counts where it comes first, if it
is allowed and the table has it. -/
theorem entries_foldl_resolveName (names : List String) :
    (names.foldl (resolveName allowed table) empty).entries
      = names.eraseDups.filterMap (found? allowed table) := by
  induction names using List.reverseRecOn with
  | nil => rfl
  | append_singleton names name ih =>
      have known : ((names.foldl (resolveName allowed table) empty).contains name)
          = (decide (name ∈ names) && (found? allowed table name).isSome) := by
        rw [contains, lookup_foldl_resolveName, found?]
        by_cases earlier : name ∈ names <;> simp [earlier, empty, lookup?]
      rw [List.foldl_concat, entries_resolveName, known, ih, eraseDups_concat]
      by_cases earlier : name ∈ names <;>
        cases found : found? allowed table name <;> simp [earlier, List.filterMap_append, found]

end ReferenceSet

namespace Resolver

variable {table : ModuleTable} {imports others : List String} {isFile : String → Bool}

/-- A module is found for a name if the source implies the name, its marker is a file, and the table
has it. -/
theorem lookup?_probing (name : String) :
    (probing isFile table imports).lookup? name
      = if name ∈ candidates imports ∧ isFile (markerFile name) then table.lookup? name
        else none := by
  rw [probing, ReferenceSet.lookup_foldl_resolveName]
  rfl

/-- Resolving against the table alone is probing where every marker is a file. -/
theorem ofTable_eq_probing : ofTable table = probing (fun _ ↦ true) table :=
  rfl

theorem mem_candidates_congr (same : ∀ name, name ∈ imports ↔ name ∈ others) (name : String) :
    name ∈ candidates imports ↔ name ∈ candidates others := by
  rw [candidates, candidates, List.mem_append, List.mem_append, same]

/-- What a table, a source and the markers have for resolving: the table has each name that was bound
once, where it was bound first, with its last binding; the resolvers take the core names and then the
imports, each where it comes first, with what the table has under it, and one of them leaves out what
has no marker. So neither the order of imports nor their repetition makes a difference to what is
found. -/
structure ResolvesAlike (history : List ModuleBinding) (imports : List String)
    (isFile : String → Bool) : Prop where
  names : (ModuleTable.ofHistory history).names = (history.map ModuleBinding.name).eraseDups
  distinct : (ModuleTable.ofHistory history).names.Nodup
  latest : ∀ binding ∈ (ModuleTable.ofHistory history).bindings,
    ModuleTable.latest? history binding.name = some binding
  bound : ∀ name, (ModuleTable.ofHistory history).lookup? name = ModuleTable.latest? history name
  byTable : (ofTable (.ofHistory history) imports).entries
    = (coreSet ++ imports).eraseDups.filterMap (ModuleTable.ofHistory history).lookup?
  byProbing : (probing isFile (.ofHistory history) imports).entries
    = (ofTable (.ofHistory history) imports).entries.filter fun binding ↦
        isFile (markerFile binding.name)
  anyOrder : ∀ others, (∀ name, name ∈ imports ↔ name ∈ others) → ∀ name,
    (ofTable (.ofHistory history) imports).lookup? name
        = (ofTable (.ofHistory history) others).lookup? name ∧
      (probing isFile (.ofHistory history) imports).lookup? name
        = (probing isFile (.ofHistory history) others).lookup? name

/-- Both ways to resolve compute the same filter. -/
theorem resolvesAlike (history : List ModuleBinding) (imports : List String)
    (isFile : String → Bool) : ResolvesAlike history imports isFile where
  names := ModuleTable.names_ofHistory history
  distinct := by
    rw [ModuleTable.names_ofHistory]
    exact nodup_eraseDups _
  latest binding inside := by
    rw [← ModuleTable.lookup?_ofHistory]
    refine ModuleTable.lookup?_of_mem ?_ inside
    rw [ModuleTable.names_ofHistory]
    exact nodup_eraseDups _
  bound := ModuleTable.lookup?_ofHistory history
  byTable := ReferenceSet.entries_foldl_resolveName _
  byProbing := by
    rw [probing, ofTable, ReferenceSet.entries_foldl_resolveName,
      ReferenceSet.entries_foldl_resolveName, List.filter_filterMap,
      ReferenceSet.found?_eq_filter fun name ↦ isFile (markerFile name)]
  anyOrder others same name := by
    have all := mem_candidates_congr same name
    refine ⟨?_, ?_⟩
    · simp only [ofTable_eq_probing, lookup?_probing, all]
    · simp only [lookup?_probing, all]

end Resolver

end GuestScript
