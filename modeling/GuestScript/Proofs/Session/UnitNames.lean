import GuestScript.Proofs.Bytecode.RoundTrip
import GuestScript.Proofs.Session.Linking
import GuestScript.Session.Pipeline

/-!
# Names of units

The name that is drawn for a unit goes into its image and into the bytes of the image. What is done
with them afterwards does not depend on it: a source that is compiled, written, read and linked under
another name gives the same but for the name. `compileSource_cases` says so of the compiler and
`prepare_named` of the loader.
-/

namespace GuestScript

open Bytecode (Bytes Fit Image Reader textNumbers)

/-! ## Images -/

namespace Bytecode

/-- An image under another name. -/
def Image.named (name : String) (image : Image) : Image :=
  { image with name }

theorem Image.verify_named (name : String) (image : Image) :
    (image.named name).verify = image.verify :=
  rfl

/-- The bytes of the fields of an image behind its name. -/
def Write.behindName (image : Image) : Bytes :=
  Write.list Write.imported image.imports.toList
    ++ Write.list Write.typeDefinition image.types.toList
    ++ Write.list Write.routine image.routines.toList
    ++ Write.option Write.natural image.entry

/-- The fields of an image behind its name, in an image of this name. -/
def Read.behindName (name : String) : Reader Image := do
  let imports ← list imported
  let types ← list typeDefinition
  let routines ← list routine
  let entry ← option natural
  pure ⟨name, imports.toArray, types.toArray, routines.toArray, entry⟩

/-- The fields behind a name are read in the same way whatever the name is. -/
theorem Read.behindName_named (name : String) (bytes : Bytes) :
    Read.behindName name bytes
      = (Read.behindName "" bytes).map fun (image, rest) ↦ (image.named name, rest) := by
  simp only [behindName, bind_apply]
  cases list imported bytes with
  | error error => rfl
  | ok imports =>
      obtain ⟨imports, bytes⟩ := imports
      simp only
      cases list typeDefinition bytes with
      | error error => rfl
      | ok types =>
          obtain ⟨types, bytes⟩ := types
          simp only
          cases list routine bytes with
          | error error => rfl
          | ok routines =>
              obtain ⟨routines, bytes⟩ := routines
              simp only
              cases option natural bytes <;> rfl

theorem payload_named {name : String} (fits : Fit (textNumbers name)) (image : Image) :
    Read.payload (Write.payload (image.named name)) = Read.behindName name (Write.behindName image) := by
  have written : Write.payload (image.named name) = Write.text name ++ Write.behindName image := by
    simp only [Write.payload, Write.behindName, Image.named, List.append_assoc]
  change (Read.text >>= Read.behindName) _ = _
  rw [written, bind_apply, mirrors_text.reads fits]

/-- The bytes of an image are read in the same way whatever its name is. -/
theorem decode_named {name : String} (fits : Fit (textNumbers name)) (image : Image) :
    Image.decode (image.named name).encode
      = (Image.decode (image.named "").encode).map (Image.named name) := by
  have empty : Fit (textNumbers "") := by decide
  rw [encode_eq, encode_eq, decode_header, decode_header, Image.decodePayload, Image.decodePayload,
    payload_named fits, payload_named empty, Read.behindName_named]
  cases Read.behindName "" (Write.behindName image) with
  | error error => rfl
  | ok found =>
      obtain ⟨image, rest⟩ := found
      simp only [Except.map, Image.verify_named]
      cases image.verify <;> rfl

end Bytecode

/-! ## Programs -/

/-- A program whose image has another name. -/
def Machine.Program.named (name : String) (program : Machine.Program) : Machine.Program :=
  { program with image := program.image.named name }

/-- A run does not look at the name of the image. -/
theorem Machine.run_named (name : String) (program : Machine.Program) (fuel : Nat)
    (state : Machine.State) :
    Machine.run (program.named name) fuel state = Machine.run program fuel state := by
  induction fuel generalizing state with
  | zero => rfl
  | succ fuel ih =>
      have same : Machine.step (program.named name) state = Machine.step program state := rfl
      rw [Machine.run, Machine.run, same]
      split
      · rfl
      · exact ih _

namespace Session

open Machine (Program)

theorem link_named (table : ModuleTable) (name : String) (image : Image) :
    link table (image.named name) = (link table image).map (Program.named name) := by
  simp only [link, Image.named]
  cases hostsFor table image.imports.toList <;> rfl

/-- Bytes of an image are made a program in the same way whatever its name is. -/
theorem prepare_named (table : ModuleTable) {name : String} (fits : Fit (textNumbers name))
    (image : Image) :
    prepare table (image.named name).encode
      = (prepare table (image.named "").encode).map (Program.named name) := by
  have some (name : String) : (image.named name).encode.isEmpty = false := rfl
  rw [prepare, prepare, some, some, Bytecode.decode_named fits]
  cases Image.decode (image.named "").encode with
  | error error => rfl
  | ok image => exact link_named table name image

end Session

/-! ## Compilations -/

namespace Compilation

open Compile (EntryPoint)

/-- What becomes of a source under any name: it is refused with some diagnostics, its image does not
pass the check, or it is compiled to an image that has the name. -/
theorem compileSource_cases (options : CompileOptions) (source : SourceUnit)
    (resolver : Resolver) :
    (∃ diagnostics, ∀ name,
      compileSource options name source resolver = .ok (.failed name diagnostics)) ∨
    (∃ invalid, ∀ name, compileSource options name source resolver = .error ⟨name, invalid⟩) ∨
    ∃ (image : Image) (entry : Option EntryPoint), ∀ name,
      compileSource options name source resolver
        = .ok (.succeeded name (image.named name) entry) := by
  unfold compileSource
  cases Syntax.parse source with
  | error diagnostics => exact .inl ⟨_, fun _ ↦ rfl⟩
  | ok file =>
      -- neither the findings nor the check look at the name
      have sameFindings (name : String) :
          unitDiagnostics options source
              (Compile.compileUnit (resolver file.importNames) options.kind name file)
            = unitDiagnostics options source
                (Compile.compileUnit (resolver file.importNames) options.kind "" file) := rfl
      have sameCheck (name : String) :
          (Compile.compileUnit (resolver file.importNames) options.kind name file).image.verify
            = (Compile.compileUnit (resolver file.importNames) options.kind "" file).image.verify :=
        rfl
      cases found : unitDiagnostics options source
          (Compile.compileUnit (resolver file.importNames) options.kind "" file) with
      | cons first rest =>
          refine .inl ⟨first :: rest, fun name ↦ ?_⟩
          simp only [compile, sameFindings, found]
      | nil =>
          cases checked :
              (Compile.compileUnit (resolver file.importNames) options.kind "" file).image.verify with
          | error invalid =>
              refine .inr (.inl ⟨invalid, fun name ↦ ?_⟩)
              simp only [compile, sameFindings, found, sameCheck, checked]
          | ok =>
              refine .inr (.inr ⟨(Compile.compileUnit (resolver file.importNames) options.kind ""
                file).image, (Compile.compileUnit (resolver file.importNames) options.kind ""
                file).entry, fun name ↦ ?_⟩)
              simp only [compile, sameFindings, found, sameCheck, checked]
              rfl

end Compilation

end GuestScript
