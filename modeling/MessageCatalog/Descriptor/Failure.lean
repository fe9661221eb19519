import MessageCatalog.Message.Element
import MessageCatalog.Text.Lines

/-!
The faults that end the extraction of a source, with their wording.
-/

namespace MessageCatalog.Descriptor

inductive Fault where
  | unevaluatable
  | messageSyntax (e : Message.SyntaxError)
  /-- A message that does not parse, with backslashes in a literal that has no escapes. -/
  | escapingHint
  | missingField
  | duplicateId (id : String)
  | missingDescription (id : String)
  | invalidShape (callee : String)
  deriving DecidableEq, Repr

def Fault.code : Fault → String
  | .unevaluatable => "unevaluatable"
  | .messageSyntax _ => "message-syntax"
  | .escapingHint => "escaping-hint"
  | .missingField => "missing-required-field"
  | .duplicateId _ => "duplicate-id-conflict"
  | .missingDescription _ => "missing-description"
  | .invalidShape _ => "invalid-descriptor-shape"

def Fault.message : Fault → String
  | .unevaluatable => "Messages must be statically evaluate-able for extraction."
  | .messageSyntax e => "Message failed to parse: " ++ e.display
  | .escapingHint =>
      "Message failed to parse. It looks like `\\`s were used for escaping, " ++
        "this won't work with JSX string literals. Wrap with `\x7b\x7d`."
  | .missingField => "Message Descriptors require an `id` and `defaultMessage`."
  | .duplicateId id =>
      "Duplicate message id: \"" ++ id ++
        "\", but the `description` and/or `defaultMessage` are different."
  | .missingDescription _ => "Message must have a `description`."
  | .invalidShape callee =>
      "`" ++ callee ++ "()` must be called with message descriptors defined as object expressions."

def Fault.hint : Fault → Option String
  | .messageSyntax _ => some "See: https://formatjs.io/docs/core-concepts/icu-syntax"
  | .escapingHint => some "See: https://react.dev/learn/javascript-in-jsx-with-curly-braces"
  | .unevaluatable => some "use string literals or module-level constants"
  | _ => none

structure Failure where
  fault : Fault
  location : Location
  deriving DecidableEq, Repr

def Failure.display (f : Failure) : String :=
  f.location.render ++ ": " ++ f.fault.message

end MessageCatalog.Descriptor
