import Mathlib.Data.List.Forall2
import GuestScript.Session.Linking

/-!
# Resolving and linking

Modules are taken from a table twice: when a source is compiled, and when its image is linked. What
may be used is drawn from the table, in its versions. Linking binds each import to the function that
the table offers for it, and fails at the first import that the table lacks.
-/

namespace GuestScript

open Bytecode (Image Import)

variable {table : ModuleTable} {references : ReferenceSet}

/-! ## Resolving -/

theorem ReferenceSet.mem_of_lookup? {name : String} {binding : ModuleBinding}
    (found : references.lookup? name = some binding) :
    binding ∈ references.entries ∧ binding.name = name :=
  ⟨List.mem_of_find?_eq_some found, by simpa using List.find?_some found⟩

/-- The modules that may be used are those of a table, in its versions. -/
def ReferenceSet.DrawnFrom (references : ReferenceSet) (table : ModuleTable) : Prop :=
  ∀ binding ∈ references.entries, table.lookup? binding.name = some binding

theorem ModuleTable.name_of_lookup? {name : String} {binding : ModuleBinding}
    (found : table.lookup? name = some binding) : binding.name = name := by
  simpa using List.find?_some found

namespace ReferenceSet.DrawnFrom

theorem empty (table : ModuleTable) : ReferenceSet.empty.DrawnFrom table :=
  nofun

theorem insert (drawn : references.DrawnFrom table) {binding : ModuleBinding}
    (offered : table.lookup? binding.name = some binding) :
    (references.insert binding).DrawnFrom table := by
  rw [ReferenceSet.insert]
  split
  · exact drawn
  · exact List.forall_mem_append.mpr ⟨drawn, List.forall_mem_singleton.mpr offered⟩

/-- Whichever names are allowed, what is added is taken from the table. -/
theorem resolveName (drawn : references.DrawnFrom table) (allowed : String → Bool) (name : String) :
    (references.resolveName allowed table name).DrawnFrom table := by
  rw [ReferenceSet.resolveName]
  split
  · exact drawn
  split
  · cases found : table.lookup? name with
    | none => exact drawn
    | some binding =>
        refine drawn.insert ?_
        rw [ModuleTable.name_of_lookup? found]
        exact found
  · exact drawn

/-- A module that may be used is the one of its name in the table. -/
theorem lookup? (drawn : references.DrawnFrom table) {name : String} {binding : ModuleBinding}
    (known : references.lookup? name = some binding) : table.lookup? name = some binding := by
  obtain ⟨inside, rfl⟩ := ReferenceSet.mem_of_lookup? known
  exact drawn binding inside

end ReferenceSet.DrawnFrom

/-- The modules that are found for a source by the table alone are those of the table. -/
theorem Resolver.drawnFrom_ofTable (table : ModuleTable) (imports : List String) :
    (Resolver.ofTable table imports).DrawnFrom table := by
  have resolved (names : List String) : ∀ {references : ReferenceSet}, references.DrawnFrom table →
      (names.foldl (ReferenceSet.resolveName (fun _ ↦ true) table) references).DrawnFrom table := by
    induction names with
    | nil => exact id
    | cons name rest ih => exact fun drawn ↦ ih (drawn.resolveName _ name)
  exact resolved _ (.empty table)

/-- A table offers what a compilation was allowed to use: each function does what the function of
its name did that the compilation was given. -/
def ModuleTable.Offers (table : ModuleTable) (references : ReferenceSet) : Prop :=
  ∀ {qualifier name : String} {binding : ModuleBinding} {function : HostFunction},
    references.lookup? qualifier = some binding → binding.host.function? name = some function →
    ∃ offered found, table.lookup? qualifier = some offered ∧
      offered.host.function? name = some found ∧ found.action = function.action

/-- A table offers the modules that are drawn from it. -/
theorem ReferenceSet.DrawnFrom.offers (drawn : references.DrawnFrom table) :
    table.Offers references :=
  fun known found ↦ ⟨_, _, drawn.lookup? known, found, rfl⟩

/-! ## What a table lacks -/

/-- What keeps a table from offering an import: its module is missing, has another major version or a
smaller version, or lacks the function. -/
inductive ModuleTable.Lacks (table : ModuleTable) (imported : Import) : Prop where
  | module : table.lookup? imported.moduleName = none → Lacks table imported
  | major {binding : ModuleBinding} : table.lookup? imported.moduleName = some binding →
      binding.version.major ≠ imported.major → Lacks table imported
  | minor {binding : ModuleBinding} : table.lookup? imported.moduleName = some binding →
      binding.version.major = imported.major → binding.version.minor < imported.minor →
      Lacks table imported
  | function {binding : ModuleBinding} : table.lookup? imported.moduleName = some binding →
      binding.host.function? imported.function = none → Lacks table imported

/-- An import is the first one of these that a table lacks. -/
def ModuleTable.FirstLacks (table : ModuleTable) (imports : List Import) (imported : Import) : Prop :=
  ∃ before after, imports = before ++ imported :: after ∧
    (∀ earlier ∈ before, ¬ table.Lacks earlier) ∧ table.Lacks imported

namespace ModuleTable

variable {first imported : Import} {rest imports : List Import}

theorem not_firstLacks_nil : ¬ table.FirstLacks [] imported :=
  fun ⟨before, _, split, _⟩ ↦
    List.append_ne_nil_of_right_ne_nil before (List.cons_ne_nil _ _) split.symm

theorem firstLacks_cons_of_lacks (lacks : table.Lacks first) :
    table.FirstLacks (first :: rest) imported ↔ imported = first := by
  constructor
  · rintro ⟨before, after, split, offered, -⟩
    cases before with
    | nil => exact (List.cons.inj split).1.symm
    | cons _ _ =>
        obtain ⟨rfl, -⟩ := List.cons.inj split
        exact absurd lacks (offered _ List.mem_cons_self)
  · rintro rfl
    exact ⟨[], rest, rfl, nofun, lacks⟩

theorem firstLacks_cons_of_not_lacks (offered : ¬ table.Lacks first) :
    table.FirstLacks (first :: rest) imported ↔ table.FirstLacks rest imported := by
  constructor
  · rintro ⟨before, after, split, earlier, lacks⟩
    cases before with
    | nil => exact absurd ((List.cons.inj split).1 ▸ lacks) offered
    | cons _ before =>
        obtain ⟨rfl, rfl⟩ := List.cons.inj split
        exact ⟨before, after, rfl, (List.forall_mem_cons.mp earlier).2, lacks⟩
  · rintro ⟨before, after, rfl, earlier, lacks⟩
    exact ⟨first :: before, after, rfl, List.forall_mem_cons.mpr ⟨offered, earlier⟩, lacks⟩

/-- There is a first import that a table lacks if it lacks any. -/
theorem exists_firstLacks_iff :
    (∃ imported, table.FirstLacks imports imported) ↔ ∃ imported ∈ imports, table.Lacks imported := by
  induction imports with
  | nil => exact iff_of_false (fun ⟨_, first⟩ ↦ not_firstLacks_nil first) nofun
  | cons first rest ih =>
      rw [List.exists_mem_cons_iff]
      by_cases lacks : table.Lacks first
      · exact iff_of_true ⟨first, (firstLacks_cons_of_lacks lacks).mpr rfl⟩ (.inl lacks)
      · rw [or_iff_right lacks, ← ih]
        exact exists_congr fun _ ↦ firstLacks_cons_of_not_lacks lacks

end ModuleTable

/-- A table offers an import, and this is the function that it offers. -/
def ModuleTable.Implements (table : ModuleTable) (imported : Import) (function : HostFunction) :
    Prop :=
  ∃ binding, table.lookup? imported.moduleName = some binding ∧
    ModuleVersion.isServedBy ⟨imported.major, imported.minor⟩ binding.version = true ∧
    binding.host.function? imported.function = some function

namespace Session

open Machine (LinkedHost Program)

variable {imported : Import} {imports : List Import} {image : Image} {program : Program}

/-! ## Linking -/

/-- Linking binds an import to one host function after the other. -/
theorem forall₂_of_hostsFor {hosts : List LinkedHost} (bound : hostsFor table imports = .ok hosts) :
    List.Forall₂ (fun imported host ↦ hostFor? table imported = some host) imports hosts := by
  induction imports generalizing hosts with
  | nil =>
      obtain rfl := Except.ok.inj bound
      exact .nil
  | cons first rest ih =>
      rw [hostsFor] at bound
      split at bound
      · exact absurd bound nofun
      · next host here =>
          split at bound
          · exact absurd bound nofun
          · next others bound' =>
              obtain rfl := Except.ok.inj bound
              exact .cons here (ih bound')

/-- Linking leaves an image as it is and binds its imports. -/
theorem hostsFor_of_link (linked : link table image = .ok program) :
    program.image = image ∧ hostsFor table image.imports.toList = .ok program.hosts.toList := by
  rw [link] at linked
  split at linked
  · exact absurd linked nofun
  · next hosts bound =>
      obtain rfl := Except.ok.inj linked
      exact ⟨rfl, bound⟩

/-- Linking binds as many host functions as an image imports, and leaves the image as it is. -/
theorem link_image (linked : link table image = .ok program) :
    program.image = image ∧ program.hosts.size = image.imports.size := by
  obtain ⟨same, bound⟩ := hostsFor_of_link linked
  exact ⟨same, (forall₂_of_hostsFor bound).length_eq.symm⟩

/-- Linking binds each import to its host function. -/
theorem hosts_of_link (linked : link table image = .ok program) {index : Nat} {imported : Import}
    (found : image.imports[index]? = some imported) :
    program.hosts[index]? = hostFor? table imported ∧ (hostFor? table imported).isSome := by
  obtain ⟨inside, rfl⟩ := Array.getElem?_eq_some_iff.mp found
  obtain ⟨-, size⟩ := link_image linked
  have inside' : index < program.hosts.size := size ▸ inside
  have bound := (forall₂_of_hostsFor (hostsFor_of_link linked).2).get inside inside'
  exact ⟨(Array.getElem?_eq_getElem inside').trans bound.symm, Option.isSome_iff_exists.mpr ⟨_, bound⟩⟩

theorem isServedBy_iff {needed offered : ModuleVersion} :
    needed.isServedBy offered = true ↔
      offered.major = needed.major ∧ ¬ offered.minor < needed.minor := by
  rw [ModuleVersion.isServedBy, Bool.and_eq_true, decide_eq_true_eq, decide_eq_true_eq,
    UInt16.not_lt, eq_comm]

/-- An import that a table offers is bound to its function, under the names of the two. -/
theorem hostFor?_of_implements {function : HostFunction}
    (implements : table.Implements imported function) :
    hostFor? table imported
      = some ⟨imported.moduleName ++ "::" ++ imported.function, function.action⟩ := by
  obtain ⟨binding, found, served, member⟩ := implements
  simp only [hostFor?, found, Option.bind_eq_bind, Option.bind_some, if_pos served, member,
    Option.pure_def]

/-- A table either offers an import or lacks it. -/
theorem hostFor?_eq_none_iff : hostFor? table imported = none ↔ table.Lacks imported := by
  cases found : table.lookup? imported.moduleName with
  | none =>
      refine iff_of_true ?_ (.module found)
      rw [hostFor?, found]
      rfl
  | some binding =>
      cases member : binding.host.function? imported.function with
      | none =>
          refine iff_of_true ?_ (.function found member)
          simp only [hostFor?, found, Option.bind_eq_bind, Option.bind_some, member,
            Option.bind_none, ite_self]
      | some function =>
          by_cases served :
              ModuleVersion.isServedBy ⟨imported.major, imported.minor⟩ binding.version = true
          · rw [hostFor?_of_implements ⟨binding, found, served, member⟩]
            refine iff_of_false nofun ?_
            obtain ⟨major, minor⟩ := isServedBy_iff.mp served
            rintro (missing | ⟨found', other⟩ | ⟨found', -, smaller⟩ | ⟨found', missing⟩)
            · exact absurd (found.symm.trans missing) nofun
            all_goals obtain rfl := Option.some.inj (found.symm.trans found')
            · exact other major
            · exact minor smaller
            · exact absurd (member.symm.trans missing) nofun
          · have unbound : hostFor? table imported = none := by
              simp only [hostFor?, found, Option.bind_eq_bind, Option.bind_some, if_neg served]
            refine iff_of_true unbound ?_
            by_cases major : binding.version.major = imported.major
            · refine .minor found major (Decidable.of_not_not fun minor ↦ served ?_)
              exact isServedBy_iff.mpr ⟨major, minor⟩
            · exact .major found major

/-- Binding imports fails at the first one that the table lacks, and only there. -/
theorem hostsFor_eq_error_iff {fault : LoadFault} :
    hostsFor table imports = .error fault ↔
      ∃ imported, table.FirstLacks imports imported ∧ fault = .unresolvedImport imported := by
  induction imports with
  | nil => exact iff_of_false nofun fun ⟨_, first, _⟩ ↦ ModuleTable.not_firstLacks_nil first
  | cons first rest ih =>
      rw [hostsFor]
      cases bound : hostFor? table first with
      | none =>
          have lacks := hostFor?_eq_none_iff.mp bound
          simp only [ModuleTable.firstLacks_cons_of_lacks lacks, exists_eq_left, Except.error.injEq]
          exact eq_comm
      | some found =>
          have offered : ¬ table.Lacks first := fun lacks ↦
            absurd (bound.symm.trans (hostFor?_eq_none_iff.mpr lacks)) nofun
          simp only [ModuleTable.firstLacks_cons_of_not_lacks offered, ← ih]
          cases hostsFor table rest with
          | error _ => exact Iff.rfl
          | ok _ => exact iff_of_false nofun nofun

/-- Linking fails with the first import that the table lacks, and for no other reason. -/
theorem link_eq_error_iff {fault : LoadFault} :
    link table image = .error fault ↔
      ∃ imported, table.FirstLacks image.imports.toList imported ∧
        fault = .unresolvedImport imported := by
  rw [← hostsFor_eq_error_iff, link]
  cases hostsFor table image.imports.toList with
  | error _ => exact ⟨fun failed ↦ congrArg _ (Except.error.inj failed),
      fun failed ↦ congrArg _ (Except.error.inj failed)⟩
  | ok _ => exact iff_of_false nofun nofun

/-- A program has been made of an image by binding each import to the function that a table offers. -/
structure LinkedOver (table : ModuleTable) (image : Image) (program : Program) : Prop where
  unchanged : program.image = image
  size : program.hosts.size = image.imports.size
  bound : ∀ {index : Nat} {imported : Import}, image.imports[index]? = some imported →
    ∃ function, table.Implements imported function ∧ program.hosts[index]?
      = some ⟨imported.moduleName ++ "::" ++ imported.function, function.action⟩

/-- An image whose imports a table offers can be linked against it. -/
theorem link_of_implements
    (offers : ∀ imported ∈ image.imports, ∃ function, table.Implements imported function) :
    ∃ program, link table image = .ok program ∧ LinkedOver table image program := by
  cases linked : link table image with
  | error fault =>
      obtain ⟨imported, ⟨before, after, split, -, lacks⟩, -⟩ := link_eq_error_iff.mp linked
      have inside : imported ∈ image.imports := by
        rw [← Array.mem_toList_iff, split]
        exact List.mem_append_right _ List.mem_cons_self
      obtain ⟨function, implements⟩ := offers imported inside
      have unbound := hostFor?_eq_none_iff.mpr lacks
      rw [hostFor?_of_implements implements] at unbound
      exact absurd unbound nofun
  | ok program =>
      obtain ⟨same, size⟩ := link_image linked
      refine ⟨program, rfl, same, size, fun {index imported} found ↦ ?_⟩
      obtain ⟨function, implements⟩ := offers imported (Array.mem_of_getElem? found)
      refine ⟨function, implements, ?_⟩
      rw [(hosts_of_link linked found).1, hostFor?_of_implements implements]

end Session

end GuestScript
