import GuestScript.Samples
import GuestScript.Session.Pipeline

/-!
# The command line

The command runs a sample program. Options come first; the first argument that is not a known
option, or `--`, starts arguments that are accepted and ignored. An option that is given twice, a
flag with a value and a version that does not exist are bad usage; only the flag for more detail in
the log may be repeated.
-/

namespace GuestScript.CommandLine

open Machine (Console)
open Session (ExitPolicy Host RunConfig)

/-- The options given so far. -/
structure Options where
  legacyExitStatus : Bool := false
  warningsAsErrors : Bool := false
  version : Option LanguageVersion := none

/-- Why a command line is not run: it is bad usage, or it asks for information only. -/
inductive Refusal where
  | badUsage
  | information
  deriving DecidableEq

/-- Read the value of the option for the language version, which may be given once. -/
def withVersion (options : Options) (name : String) : Except Refusal Options :=
  match options.version, LanguageVersion.ofText name with
  | none, .ok version => .ok { options with version := some version }
  | _, _ => .error .badUsage

/-- Whether an argument is the flag for more detail, possibly several times in one. -/
def isVerbose (argument : String) : Bool :=
  argument = "--verbose" ||
    match argument.toList with
    | '-' :: 'v' :: more => more.all (· = 'v')
    | _ => false

/-- Whether an argument is made of flags of one letter, and one of them asks for information. -/
def asksForInformation (argument : String) : Bool :=
  argument = "--help" || argument = "--version" ||
    match argument.toList with
    | '-' :: first :: more => (first :: more).all ['v', 'h', 'V'].contains
    | _ => false

/-- The part of an argument behind this beginning. -/
def valueAfter? (beginning argument : String) : Option String :=
  if beginning.toList.isPrefixOf argument.toList then
    some (String.ofList (argument.toList.drop beginning.length))
  else none

/-- Whether an argument gives a value to an option that takes none. -/
def givesValueToFlag (argument : String) : Bool :=
  ["--legacy-exit-status=", "--warnings-as-errors=", "--verbose=", "--help=", "--version="].any
    fun beginning ↦ (valueAfter? beginning argument).isSome

/-- Read arguments behind the options given so far. -/
def read (options : Options) : List String → Except Refusal Options
  | [] => .ok options
  | "--language-version" :: [] => .error .badUsage
  | "--language-version" :: name :: rest => do
      let options ← withVersion options name
      read options rest
  | argument :: rest =>
      if argument = "--legacy-exit-status" then
        if options.legacyExitStatus then .error .badUsage
        else read { options with legacyExitStatus := true } rest
      else if argument = "--warnings-as-errors" then
        if options.warningsAsErrors then .error .badUsage
        else read { options with warningsAsErrors := true } rest
      else if isVerbose argument then read options rest
      else if asksForInformation argument then .error .information
      else if givesValueToFlag argument then .error .badUsage
      else
        match valueAfter? "--language-version=" argument with
        | some name => do
            let options ← withVersion options name
            read options rest
        | none => .ok options

/-- What the command leaves behind: what it wrote and its exit status. -/
structure Outcome where
  output : String
  status : Nat

/-- The run that options ask for. -/
def configOf (options : Options) : RunConfig :=
  { compile := { warningsAsErrors := options.warningsAsErrors }
    exitPolicy := if options.legacyExitStatus then .legacy else .reflect }

/-- Run the sample program. There is no answer if the program uses up its fuel. -/
def runSample (fuel : Nat) (options : Options) : Option Outcome :=
  let config := configOf options
  let source : SourceUnit := ⟨Samples.filteredEcho, options.version.getD .latest⟩
  let host := Host.fresh .standard (.sequential "run") .empty
  match host.runWithTable fuel config source with
  | none => none
  | some (outcome, host) =>
      some ⟨host.console.text, Session.exitCode config.exitPolicy outcome⟩

/-- Run the command with these arguments. -/
def run (fuel : Nat) (arguments : List String) : Option Outcome :=
  match read {} arguments with
  | .error .badUsage => some ⟨"", 2⟩
  | .error .information => some ⟨"", 0⟩
  | .ok options => runSample fuel options

end GuestScript.CommandLine
