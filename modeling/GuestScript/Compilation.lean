import GuestScript.Bytecode.Wire
import GuestScript.Compile.Unit
import GuestScript.Identifiers
import GuestScript.Syntax.Parse

/-!
# Compilations

`compile` turns a syntax tree into the bytes of an image, or into the diagnostics that say why there
are none; `compileSource` starts from the source text. Only errors make a compilation fail and are
reported, with warnings among them if the options say so. A compiled image is verified before it is
written, and an image that does not pass is a fault of the host and not of the source.
-/

namespace GuestScript

open Bytecode (Bytes Image Invalid ImageError)
open Compile (CompiledUnit EntryPoint OutputKind)
open Syntax (File)

/-- What a compilation is asked for. -/
structure CompileOptions where
  kind : OutputKind := .executable
  warningsAsErrors : Bool := false

/-- The outcome of a compilation. A failed one has diagnostics, no bytes and no entry. -/
structure CompilationResult where
  unitName : String
  success : Bool
  diagnostics : List (Diagnostic Location)
  image : Bytes
  entry : Option EntryPoint

namespace CompilationResult

/-- The outcome of a compilation that failed for these reasons. -/
def failed (unitName : String) (diagnostics : List (Diagnostic Location)) : CompilationResult :=
  ⟨unitName, false, diagnostics, [], none⟩

/-- The outcome of a compilation that produced this image. -/
def succeeded (unitName : String) (image : Image) (entry : Option EntryPoint) :
    CompilationResult :=
  ⟨unitName, true, [], image.encode, entry⟩

end CompilationResult

/-- A compilation that goes wrong without a mistake in the source: the image of this unit does not
pass verification. -/
structure CompilerFault where
  unitName : String
  invalid : Invalid
  deriving DecidableEq

namespace CompilerFault

/-- What lies behind a compiler fault. -/
def cause (fault : CompilerFault) : ImageError :=
  .invalid fault.invalid

/-- The message of a compiler fault. -/
def message (fault : CompilerFault) : String :=
  "compiler produced an invalid image for " ++ fault.unitName ++ ": " ++ fault.cause.message

/-- The messages of what lies behind a compiler fault. -/
def causes (fault : CompilerFault) : List String :=
  fault.cause.message :: fault.cause.causes

end CompilerFault

namespace Compilation

/-- The diagnostics that a compilation reports: errors, and warnings that count as errors. -/
def reportable {Position : Type} (options : CompileOptions)
    (diagnostics : List (Diagnostic Position)) : List (Diagnostic Position) :=
  (diagnostics.map fun diagnostic ↦
    if options.warningsAsErrors then diagnostic.escalate else diagnostic).filter
      Diagnostic.isReportable

/-- The outcome for a source that has no syntax tree. -/
def reject (options : CompileOptions) (unitName : String)
    (diagnostics : List (Diagnostic Location)) : CompilationResult :=
  .failed unitName (reportable options diagnostics)

/-- The diagnostics of a compiled unit that are reported, in the order of the text. -/
def unitDiagnostics (options : CompileOptions) (source : SourceUnit) (unit : CompiledUnit) :
    List (Diagnostic Location) :=
  Diagnostic.inOrder
    ((reportable options unit.findings).map (Diagnostic.relocate source.locate))

/-- Compile a syntax tree into a unit of a given name. -/
def compile (options : CompileOptions) (unitName : String) (source : SourceUnit) (file : File)
    (references : ReferenceSet) : Except CompilerFault CompilationResult :=
  let unit := Compile.compileUnit references options.kind unitName file
  match unitDiagnostics options source unit with
  | [] =>
      match unit.image.verify with
      | .error invalid => .error ⟨unitName, invalid⟩
      | .ok () => .ok (.succeeded unitName unit.image unit.entry)
  | diagnostics => .ok (.failed unitName diagnostics)

/-- Compile a source text into a unit of a given name. -/
def compileSource (options : CompileOptions) (unitName : String) (source : SourceUnit)
    (resolver : Resolver) : Except CompilerFault CompilationResult :=
  match Syntax.parse source with
  | .ok file => compile options unitName source file (resolver file.importNames)
  | .error diagnostics => .ok (reject options unitName diagnostics)

end Compilation

end GuestScript
