import GuestScript.Bytecode.Wire
import GuestScript.Host.References
import GuestScript.Machine.Step

/-!
# Linking images

Before an image can run, each of its imports is bound to a function of the host. The module has to
offer the same major version and at least the minor version that the image asks for. The first of
the imports that cannot be bound is reported.
-/

namespace GuestScript.Session

open Bytecode (Bytes Image ImageError Import)
open Machine (LinkedHost Program)

/-- Why an image cannot be loaded. -/
inductive LoadFault where
  | emptyImage
  | malformed (error : ImageError)
  | unresolvedImport (imported : Import)
  | duplicateContext (identity : String)
  deriving DecidableEq

namespace LoadFault

/-- The message of a load fault. -/
def message : LoadFault → String
  | .emptyImage => "cannot load an empty image"
  | .malformed error => "malformed image: " ++ error.message
  | .unresolvedImport imported =>
      "import " ++ imported.moduleName ++ "::" ++ imported.function ++ " ("
        ++ (ModuleVersion.mk imported.major imported.minor).text
        ++ ") is not provided by the host"
  | .duplicateContext identity =>
      "context " ++ identity ++ " is still live; refusing to reuse its identity"

/-- The messages of what lies behind a load fault. -/
def causes : LoadFault → List String
  | .malformed error => error.message :: error.causes
  | _ => []

end LoadFault

/-- The host function that an import is bound to. -/
def hostFor? (table : ModuleTable) (imported : Import) : Option LinkedHost := do
  let binding ← table.lookup? imported.moduleName
  if ModuleVersion.isServedBy ⟨imported.major, imported.minor⟩ binding.version then
    let function ← binding.host.function? imported.function
    pure ⟨imported.moduleName ++ "::" ++ imported.function, function.action⟩
  else none

/-- The host functions that imports are bound to, in order. -/
def hostsFor (table : ModuleTable) : List Import → Except LoadFault (List LinkedHost)
  | [] => .ok []
  | imported :: rest =>
      match hostFor? table imported with
      | none => .error (.unresolvedImport imported)
      | some host =>
          match hostsFor table rest with
          | .error fault => .error fault
          | .ok hosts => .ok (host :: hosts)

/-- Bind the imports of an image. -/
def link (table : ModuleTable) (image : Image) : Except LoadFault Program :=
  match hostsFor table image.imports.toList with
  | .error fault => .error fault
  | .ok hosts => .ok ⟨image, hosts.toArray⟩

/-- Decode bytes and bind the imports of the image. -/
def prepare (table : ModuleTable) (bytes : Bytes) : Except LoadFault Program :=
  if bytes.isEmpty then .error .emptyImage
  else
    match Image.decode bytes with
    | .error error => .error (.malformed error)
    | .ok image => link table image

end GuestScript.Session
