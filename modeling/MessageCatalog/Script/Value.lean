import MessageCatalog.Decimal.Read
import MessageCatalog.Decimal.Shortest
import MessageCatalog.Text.Characters

/-!
The values that an expression can fold to, and their coercions.
-/

namespace MessageCatalog.Script

inductive Value where
  | text (content : String)
  | number (value : Float)
  | bool (value : Bool)
  | null
  | undefined
  deriving DecidableEq

def Value.isTruthy : Value → Bool
  | .text content => !content.isEmpty
  | .number value => !(value == 0.0) && !value.isNaN
  | .bool value => value
  | .null => false
  | .undefined => false

def Value.isNullish : Value → Bool
  | .null => true
  | .undefined => true
  | _ => false

def Value.typeName : Value → String
  | .text _ => "string"
  | .number _ => "number"
  | .bool _ => "boolean"
  | .null => "object"
  | .undefined => "undefined"

/-- A text with nothing but blanks in it counts as zero, and one that is no decimal as NaN. -/
def textNumber (content : String) : Float :=
  match Text.trim content.toList with
  | [] => 0.0
  | digits => (Decimal.parseFloat? digits).getD (0.0 / 0.0)

def Value.toNumber : Value → Float
  | .text content => textNumber content
  | .number value => value
  | .bool value => if value then 1.0 else 0.0
  | .null => 0.0
  | .undefined => 0.0 / 0.0

/-- Both zeros have the same text. -/
def numberText (value : Float) : String :=
  if value == 0.0 then "0" else Decimal.floatText value

def Value.toText : Value → String
  | .text content => content
  | .number value => numberText value
  | .bool value => if value then "true" else "false"
  | .null => "null"
  | .undefined => "undefined"

/-- Equality without coercion: NaN differs from itself, and the two zeros are equal. -/
def Value.same : Value → Value → Bool
  | .text left, .text right => left == right
  | .number left, .number right => left == right
  | .bool left, .bool right => left == right
  | .null, .null => true
  | .undefined, .undefined => true
  | _, _ => false

end MessageCatalog.Script
