import GuestScript.Source

/-!
# Diagnostics

A diagnostic is one remark about a source text: how grave it is, a stable code, a message, and a
position. Analyses speak of spans and readers of lines and columns, so the type of the position
is a parameter, and `Diagnostic.relocate` passes from the one to the other.
-/

namespace GuestScript

/-- How grave a diagnostic is. -/
inductive Severity where
  | info
  | warning
  | error
  deriving DecidableEq

/-- The written name of a severity. -/
def Severity.text : Severity → String
  | .info => "info"
  | .warning => "warning"
  | .error => "error"

/-- The part of the language that a diagnostic is about. -/
inductive Category where
  | grammar
  | resolution
  | typing
  | entry
  | lint
  | emission
  deriving DecidableEq

/-- The written name of a category. -/
def Category.text : Category → String
  | .grammar => "syntax"
  | .resolution => "resolution"
  | .typing => "type"
  | .entry => "entry"
  | .lint => "lint"
  | .emission => "emit"

/-- The kinds of remark that can be made about a source text. -/
inductive Code where
  | syntaxError
  | featureUnavailable
  | invalidLiteral
  | unresolvedModule
  | unknownFunction
  | unknownName
  | unknownType
  | duplicateDefinition
  | unknownField
  | unknownMethod
  | dynamicUnavailable
  | typeMismatch
  | argumentCount
  | invalidOperation
  | invalidOperands
  | selfOutsideInstance
  | missingReturn
  | noEntryPoint
  | multipleEntryPoints
  | entrySignature
  | unusedLocal
  | discardedSequence
  | emitFailed
  deriving DecidableEq

namespace Code

/-- Every code, in the order of their numbers. -/
def all : List Code :=
  [.syntaxError, .featureUnavailable, .invalidLiteral, .unresolvedModule, .unknownFunction,
    .unknownName, .unknownType, .duplicateDefinition, .unknownField, .unknownMethod,
    .dynamicUnavailable, .typeMismatch, .argumentCount, .invalidOperation, .invalidOperands,
    .selfOutsideInstance, .missingReturn, .noEntryPoint, .multipleEntryPoints, .entrySignature,
    .unusedLocal, .discardedSequence, .emitFailed]

/-- The stable spelling of a code. -/
def text : Code → String
  | .syntaxError => "FL0001"
  | .featureUnavailable => "FL0002"
  | .invalidLiteral => "FL0003"
  | .unresolvedModule => "FL1001"
  | .unknownFunction => "FL1002"
  | .unknownName => "FL1003"
  | .unknownType => "FL1004"
  | .duplicateDefinition => "FL1005"
  | .unknownField => "FL1006"
  | .unknownMethod => "FL1007"
  | .dynamicUnavailable => "FL1008"
  | .typeMismatch => "FL2001"
  | .argumentCount => "FL2002"
  | .invalidOperation => "FL2003"
  | .invalidOperands => "FL2004"
  | .selfOutsideInstance => "FL2005"
  | .missingReturn => "FL2006"
  | .noEntryPoint => "FL2101"
  | .multipleEntryPoints => "FL2102"
  | .entrySignature => "FL2103"
  | .unusedLocal => "FL3001"
  | .discardedSequence => "FL3002"
  | .emitFailed => "FL4001"

/-- The category that a code belongs to. -/
def category : Code → Category
  | .syntaxError | .featureUnavailable | .invalidLiteral => .grammar
  | .unresolvedModule | .unknownFunction | .unknownName | .unknownType | .duplicateDefinition
  | .unknownField | .unknownMethod | .dynamicUnavailable => .resolution
  | .typeMismatch | .argumentCount | .invalidOperation | .invalidOperands
  | .selfOutsideInstance | .missingReturn => .typing
  | .noEntryPoint | .multipleEntryPoints | .entrySignature => .entry
  | .unusedLocal | .discardedSequence => .lint
  | .emitFailed => .emission

/-- The code that is spelled so, if there is one. -/
def ofText? (name : String) : Option Code :=
  all.find? fun code ↦ code.text = name

end Code

/-- A remark about a source text. `escalated` marks a warning that the compile options turned into
an error. A remark about the text as a whole has no position. -/
structure Diagnostic (Position : Type) where
  severity : Severity
  code : Code
  message : String
  position : Option Position := none
  escalated : Bool := false
  deriving DecidableEq

namespace Diagnostic

variable {Position : Type}

/-- An error at a position. -/
def error (code : Code) (message : String) (position : Position) : Diagnostic Position :=
  ⟨.error, code, message, some position, false⟩

/-- A warning at a position. -/
def warning (code : Code) (message : String) (position : Position) : Diagnostic Position :=
  ⟨.warning, code, message, some position, false⟩

/-- The category of a diagnostic is that of its code. -/
def category (diagnostic : Diagnostic Position) : Category :=
  diagnostic.code.category

/-- Turn a warning into an error and mark it; leave everything else alone. -/
def escalate (diagnostic : Diagnostic Position) : Diagnostic Position :=
  if diagnostic.severity = .warning then { diagnostic with severity := .error, escalated := true }
  else diagnostic

/-- Whether a diagnostic makes a compilation fail and is reported by it. -/
def isReportable (diagnostic : Diagnostic Position) : Bool :=
  diagnostic.severity = .error || diagnostic.escalated

/-- Express the position in other terms. -/
def relocate {Target : Type} (place : Position → Target) (diagnostic : Diagnostic Position) :
    Diagnostic Target :=
  ⟨diagnostic.severity, diagnostic.code, diagnostic.message, diagnostic.position.map place,
    diagnostic.escalated⟩

/-- The text shown to a reader: severity, code, location and message. -/
def text (diagnostic : Diagnostic Location) : String :=
  let place := match diagnostic.position with
    | some location => " " ++ location.text
    | none => ""
  let mark := if diagnostic.escalated then " (warning treated as error)" else ""
  diagnostic.severity.text ++ "[" ++ diagnostic.code.text ++ "]" ++ place ++ ": "
    ++ diagnostic.message ++ mark

/-- Whether the first diagnostic is shown no later than the second: by line, then by column, and
those without a location last. -/
def precedes (first second : Diagnostic Location) : Bool :=
  match first.position, second.position with
  | some here, some there =>
      here.line < there.line || (here.line = there.line && here.column ≤ there.column)
  | none, some _ => false
  | _, none => true

/-- Diagnostics in the order of their locations; those at one location keep their order. -/
def inOrder (diagnostics : List (Diagnostic Location)) : List (Diagnostic Location) :=
  diagnostics.mergeSort precedes

end Diagnostic

end GuestScript
