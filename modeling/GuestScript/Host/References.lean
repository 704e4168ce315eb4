import GuestScript.Host.Module

/-!
# Which modules a source may use

A `ModuleTable` is what the host binds: at most one module of each name, with its version. A
`ReferenceSet` is what one compilation may use. A `Resolver` finds the references that a source
implies: a core set that needs no asking, and the modules it asks for. Names that cannot be resolved
are left out, and the compiler reports their use.
-/

namespace GuestScript

/-- The version of a module. A greater minor version only adds functions. -/
structure ModuleVersion where
  major : UInt16
  minor : UInt16
  deriving DecidableEq

/-- The written form of a version. -/
def ModuleVersion.text (version : ModuleVersion) : String :=
  toString version.major.toNat ++ "." ++ toString version.minor.toNat

/-- Whether the second version offers all that the first one does. -/
def ModuleVersion.isServedBy (needed offered : ModuleVersion) : Bool :=
  needed.major = offered.major && needed.minor ≤ offered.minor

/-- A module that the host offers in some version. -/
structure ModuleBinding where
  host : HostModule
  version : ModuleVersion
  deriving DecidableEq

/-- The name that a bound module goes by. -/
def ModuleBinding.name (binding : ModuleBinding) : String :=
  binding.host.name

/-- The modules that a host offers. -/
structure ModuleTable where
  bindings : List ModuleBinding
  deriving DecidableEq

namespace ModuleTable

/-- The table that offers nothing. -/
def empty : ModuleTable := ⟨[]⟩

/-- Put a binding in the place of the one of the same name, or behind all others. -/
def replaceOrAppend (binding : ModuleBinding) : List ModuleBinding → List ModuleBinding
  | [] => [binding]
  | first :: rest =>
      if first.name = binding.name then binding :: rest
      else first :: replaceOrAppend binding rest

/-- Offer a module in a version, in place of any earlier binding of its name. -/
def bind (table : ModuleTable) (host : HostModule) (version : ModuleVersion) : ModuleTable :=
  ⟨replaceOrAppend ⟨host, version⟩ table.bindings⟩

/-- The binding of this name. -/
def lookup? (table : ModuleTable) (name : String) : Option ModuleBinding :=
  table.bindings.find? fun binding ↦ binding.name = name

/-- The table of the standard modules, all in their first version. -/
def standard : ModuleTable :=
  HostModule.standard.foldl (fun table host ↦ table.bind host ⟨1, 0⟩) empty

end ModuleTable

/-- The modules that a compilation may use, each name once, in the order of resolution. -/
structure ReferenceSet where
  entries : List ModuleBinding
  deriving DecidableEq

namespace ReferenceSet

/-- The set that holds nothing. -/
def empty : ReferenceSet := ⟨[]⟩

/-- The binding of this name. -/
def lookup? (set : ReferenceSet) (name : String) : Option ModuleBinding :=
  set.entries.find? fun binding ↦ binding.name = name

/-- Whether a module of this name may be used. -/
def contains (set : ReferenceSet) (name : String) : Bool :=
  (set.lookup? name).isSome

/-- Add a binding behind the others, unless its name is taken. -/
def insert (set : ReferenceSet) (binding : ModuleBinding) : ReferenceSet :=
  if set.contains binding.name then set else ⟨set.entries ++ [binding]⟩

/-- The names of the modules, in order. -/
def names (set : ReferenceSet) : List String :=
  set.entries.map ModuleBinding.name

/-- Add the first module of this name that a table offers and a condition allows. -/
def resolveName (allowed : String → Bool) (table : ModuleTable) (set : ReferenceSet)
    (name : String) : ReferenceSet :=
  if set.contains name then set
  else if allowed name then
    match table.lookup? name with
    | some binding => set.insert binding
    | none => set
  else set

end ReferenceSet

/-- A way to find the modules that a source may use, given the names it asks for. -/
abbrev Resolver := List String → ReferenceSet

namespace Resolver

/-- The modules that every source may use without asking. -/
def coreSet : List String :=
  ["core", "io", "text", "dynamic"]

/-- The names that a source implies, in the order in which they are resolved. -/
def candidates (imports : List String) : List String :=
  coreSet ++ imports

/-- Resolve against a module table alone. -/
def ofTable (table : ModuleTable) : Resolver := fun imports ↦
  (candidates imports).foldl (ReferenceSet.resolveName (fun _ ↦ true) table) .empty

/-- The name of the file that marks a module as installed. -/
def markerFile (name : String) : String :=
  name ++ ".flib"

/-- Resolve against a module table, but only modules whose marker is a file. -/
def probing (isFile : String → Bool) (table : ModuleTable) : Resolver := fun imports ↦
  (candidates imports).foldl
    (ReferenceSet.resolveName (fun name ↦ isFile (markerFile name)) table) .empty

/-- Whatever a source asks for, allow these modules of a table. -/
def fixed (names : List String) (table : ModuleTable) : Resolver := fun _ ↦
  (names.filterMap table.lookup?).foldl ReferenceSet.insert .empty

end Resolver

end GuestScript
