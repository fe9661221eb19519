/-!
Message trees: literal text, escaped hashes and arguments, and the causes for which a message
text is refused.
-/

namespace MessageCatalog.Message

inductive SimpleKind where
  | number
  | date
  | time
  deriving DecidableEq, Repr

mutual

inductive Element where
  /-- Literal text with its escapes decoded. -/
  | text (content : String)
  /-- A hash that never stands for a plural's count. -/
  | escapedHash
  | argument (name : String) (format : Option Format)

inductive Format where
  | simple (kind : SimpleKind) (style : Option String)
  | plural (ordinal : Bool) (offset : Nat) (options : List Choice)
  | select (options : List Choice)

inductive Choice where
  | mk (selector : String) (body : List Element)

end

instance : Inhabited Element := ⟨.escapedHash⟩

instance : Inhabited Format := ⟨.select []⟩

instance : Inhabited Choice := ⟨.mk "" []⟩

def SimpleKind.keyword : SimpleKind → String
  | .number => "number"
  | .date => "date"
  | .time => "time"

def SimpleKind.ofKeyword? (keyword : String) : Option SimpleKind :=
  [SimpleKind.number, .date, .time].find? fun kind => kind.keyword == keyword

inductive Cause where
  | expected (wanted : Char) (found : Option Char)
  | strayBrace
  | controlCharacter (found : Char)
  | unicodeEscape
  | escape
  | missingName
  | missingType
  | unknownType (keyword : String)
  | missingStyle
  | missingNumber
  | offsetRange
  | missingOption
  | missingSelector
  | other (reason : String)
  deriving DecidableEq, Repr

structure SyntaxError where
  offset : Nat
  cause : Cause
  deriving DecidableEq, Repr

def codePointText (c : Char) : String :=
  let digits := (Nat.toDigits 16 c.toNat).map Char.toUpper
  String.ofList (List.replicate (4 - digits.length) '0' ++ digits)

def Cause.message : Cause → String
  | .expected wanted (some found) =>
      "expected `" ++ toString wanted ++ "` but found `" ++ toString found ++ "`"
  | .expected wanted none => "expected `" ++ toString wanted ++ "` but reached end of message"
  | .strayBrace => "unexpected `\x7d`"
  | .controlCharacter found => "unexpected control character U+" ++ codePointText found
  | .unicodeEscape => "invalid unicode escape"
  | .escape => "invalid escape sequence"
  | .missingName => "expected argument name"
  | .missingType => "expected argument type"
  | .unknownType keyword => "unknown argument type `" ++ keyword ++ "`"
  | .missingStyle => "expected argument style"
  | .missingNumber => "expected a number"
  | .offsetRange => "offset is out of range"
  | .missingOption => "expected at least one option"
  | .missingSelector => "expected option selector"
  | .other reason => reason

def SyntaxError.message (e : SyntaxError) : String :=
  e.cause.message

def SyntaxError.display (e : SyntaxError) : String :=
  e.message ++ " (at offset " ++ toString e.offset ++ ")"

end MessageCatalog.Message
