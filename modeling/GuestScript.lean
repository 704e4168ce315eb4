import GuestScript.Main
import GuestScript.Meaning.Evaluation
import GuestScript.Proofs.Session.LoadedSafety
import GuestScript.Proofs.Compile.Accepted
import GuestScript.Proofs.Compile.Scopes
import GuestScript.Proofs.Simulation.Callbacks
import GuestScript.Proofs.Simulation.Calls
import GuestScript.Proofs.Bytecode.Mirrors
import GuestScript.Proofs.Bytecode.RoundTrip
import GuestScript.Proofs.Session.Histories
import GuestScript.Proofs.Session.Unloading
import GuestScript.Proofs.Simulation.Programs
import GuestScript.Proofs.Bytecode.Shapes
import GuestScript.Proofs.Compile.Balance
import GuestScript.Proofs.Compile.Steadiness
import GuestScript.Proofs.Compile.Validity
import GuestScript.Proofs.Session.Names
import GuestScript.Proofs.Session.Finality
import GuestScript.Proofs.Session.PipelineRuns
import GuestScript.Proofs.Session.Links
import GuestScript.Proofs.Session.Descriptions
import GuestScript.Proofs.Session.Residue
import GuestScript.Proofs.Session.Endings
import GuestScript.Proofs.Syntax.Layout
import GuestScript.Proofs.Machine.Sequences
import GuestScript.Proofs.Machine.Reuse
import GuestScript.Proofs.Compile.Returns
import GuestScript.Proofs.Compile.Wiring
import GuestScript.Proofs.Compile.Accesses
import GuestScript.Proofs.Grammar.Derivations
import GuestScript.Proofs.Syntax.Precedence
import GuestScript.Proofs.Session.PrintedLines
import GuestScript.Proofs.Compile.WiderReferences
import GuestScript.Proofs.Machine.Arithmetic
import GuestScript.Proofs.Types.Instantiation
import GuestScript.Proofs.Compile.DeclarationOrder
import GuestScript.Proofs.Compile.PrivateCalls
import GuestScript.Proofs.Compile.UnusedLocals
import GuestScript.Proofs.Syntax.SpelledLiterals
import GuestScript.Proofs.Grammar.Places
import GuestScript.Proofs.Syntax.Building
import GuestScript.Proofs.Types.Order
import GuestScript.Proofs.Syntax.Regions
import GuestScript.Proofs.Syntax.PlacedPieces
import GuestScript.Proofs.Syntax.PlacedAssembly
import GuestScript.Proofs.Syntax.PlacedTrees
import GuestScript.Proofs.Syntax.VersionGates
import GuestScript.Proofs.Compile.SourceOrder
import GuestScript.Proofs.Machine.Comparisons
import GuestScript.Proofs.Host.Resolving
import GuestScript.Proofs.Compile.LoopSlots
import GuestScript.Proofs.Compile.Poison
