import GuestScript.Ty

/-!
# Host modules

A host offers functions to the programs it runs, grouped into modules. A `HostFunction` pairs the
signature that the checker uses with the action that the machine takes; signatures may leave one
type open. The standard modules are `core`, `io`, `text`, `dynamic` and `seq`.
-/

namespace GuestScript

/-- What a host function does. -/
inductive HostAction where
  | panic
  | printLine
  | print
  | textIsEmpty
  | textLength
  | textUpper
  | seqFilter
  | seqMap
  | seqCount
  | seqToArray
  | arrayLength
  deriving DecidableEq

/-- A function that the host offers. -/
structure HostFunction where
  name : String
  parameters : List Ty
  result : Ty
  action : HostAction
  deriving DecidableEq

/-- The name and the type of a host function. -/
def HostFunction.text (function : HostFunction) : String :=
  function.name ++ ": " ++ (Ty.function function.parameters function.result).text

/-- A module of host functions. -/
structure HostModule where
  name : String
  functions : List HostFunction
  deriving DecidableEq

namespace HostModule

/-- The function of this name. -/
def function? (host : HostModule) (name : String) : Option HostFunction :=
  host.functions.find? fun function ↦ function.name = name

/-- The module that lets a program give up. -/
def core : HostModule :=
  ⟨"core", [⟨"panic", [.str], .unit, .panic⟩]⟩

/-- The module that writes to the console. -/
def io : HostModule :=
  ⟨"io", [⟨"print_line", [.dyn], .unit, .printLine⟩, ⟨"print", [.dyn], .unit, .print⟩]⟩

/-- The module that works on texts. -/
def text : HostModule :=
  ⟨"text", [⟨"is_empty", [.str], .bool, .textIsEmpty⟩, ⟨"len", [.str], .int, .textLength⟩,
    ⟨"upper", [.str], .str, .textUpper⟩]⟩

/-- A module without functions: that it is there permits the type `dyn` in a source. -/
def dynamic : HostModule :=
  ⟨"dynamic", []⟩

/-- The module that works on sequences and arrays. -/
def seq : HostModule :=
  ⟨"seq", [
    ⟨"filter", [.seq .parameter, .function [.parameter] .bool], .seq .parameter, .seqFilter⟩,
    ⟨"map", [.seq .parameter, .function [.parameter] .parameter], .seq .parameter, .seqMap⟩,
    ⟨"count", [.seq .parameter], .int, .seqCount⟩,
    ⟨"to_array", [.seq .parameter], .array .parameter, .seqToArray⟩,
    ⟨"len", [.array .parameter], .int, .arrayLength⟩]⟩

/-- The standard modules. -/
def standard : List HostModule :=
  [core, io, text, dynamic, seq]

end HostModule

end GuestScript
