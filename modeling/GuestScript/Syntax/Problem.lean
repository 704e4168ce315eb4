import GuestScript.Diagnostic

/-!
# Problems found in a well-formed text

A text can follow the grammar and still not be acceptable: it can use a feature that its version
does not have, or a literal that has no value. Such a `Problem` is found while the syntax tree is
made. A feature that a later version introduced is a problem only under an earlier version.
-/

namespace GuestScript.Syntax

/-- A part of the language that not every version has. -/
inductive Feature where
  | lambda
  | dynamicType
  deriving DecidableEq

namespace Feature

/-- The version that introduced a feature. -/
def since : Feature → LanguageVersion
  | .lambda => .v2
  | .dynamicType => .v2

/-- What a message calls a feature. -/
def text : Feature → String
  | .lambda => "lambda expressions"
  | .dynamicType => "the `dyn` type"

end Feature

/-- What can be wrong with a well-formed text. -/
inductive Problem where
  | usesFeature (feature : Feature) (span : Span)
  | integerOutOfRange (digits : String) (span : Span)
  | unknownEscape (character : Char) (span : Span)
  deriving DecidableEq

namespace Problem

/-- Whether something is a problem under a version. -/
def appliesTo (version : LanguageVersion) : Problem → Bool
  | .usesFeature feature _ => !version.includes feature.since
  | _ => true

/-- The diagnostic of a problem under a version. -/
def diagnostic (version : LanguageVersion) : Problem → Diagnostic Span
  | .usesFeature feature span =>
      .error .featureUnavailable
        (feature.text ++ " need language version " ++ feature.since.text
          ++ " or later; the source declares " ++ version.text) span
  | .integerOutOfRange digits span =>
      .error .invalidLiteral ("integer literal `" ++ digits ++ "` is out of range") span
  | .unknownEscape character span =>
      .error .invalidLiteral ("unknown escape `\\" ++ character.toString ++ "`") span

end Problem

end GuestScript.Syntax
