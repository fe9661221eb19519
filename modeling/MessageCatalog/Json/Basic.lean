import MessageCatalog.Text.Quoted

/-!
JSON values and their texts. The fields of an object have an order. A text is written on one line
without blanks, or with two blanks of indentation for each level.
-/

namespace MessageCatalog.Json

inductive Value where
  | null
  | bool (value : Bool)
  | integer (value : Int)
  | decimal (written : String)
  | text (content : String)
  /-- A text with half of a surrogate pair in it, which has no content. -/
  | brokenText
  | array (items : List Value)
  | object (fields : List (String × Value))
  deriving Inhabited

namespace Value

def ofOption {α : Type} (encode : α → Value) : Option α → Value
  | some value => encode value
  | none => .null

def texts (contents : List String) : Value :=
  .array (contents.map .text)

def nat (value : Nat) : Value :=
  .integer (Int.ofNat value)

/-- The text of a value that holds no others. -/
def scalarText : Value → String
  | .null => "null"
  | .bool value => if value then "true" else "false"
  | .integer value => toString value
  | .decimal written => written
  | .text content => Text.quote content
  | .brokenText => "\"\""
  | .array _ => "[]"
  | .object _ => "\x7b\x7d"

def indentation (level : Nat) : String :=
  String.ofList (List.replicate (2 * level) ' ')

def bracketed (level : Nat) (left right : String) : List String → String
  | [] => left ++ right
  | lines =>
      left ++ "\n" ++ indentation (level + 1) ++
        String.intercalate (",\n" ++ indentation (level + 1)) lines ++
        "\n" ++ indentation level ++ right

mutual

def prettyAt (level : Nat) : Value → String
  | .array items => bracketed level "[" "]" (prettyItems (level + 1) items)
  | .object fields => bracketed level "\x7b" "\x7d" (prettyFields (level + 1) fields)
  | scalar => scalarText scalar

def prettyItems (level : Nat) : List Value → List String
  | [] => []
  | first :: rest => prettyAt level first :: prettyItems level rest

def prettyFields (level : Nat) : List (String × Value) → List String
  | [] => []
  | (key, value) :: rest =>
      (Text.quote key ++ ": " ++ prettyAt level value) :: prettyFields level rest

end

def pretty (j : Value) : String :=
  j.prettyAt 0

end Value

end MessageCatalog.Json
