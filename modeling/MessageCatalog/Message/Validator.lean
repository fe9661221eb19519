import MessageCatalog.Message.Parser

/-!
Canonical spellings of messages. A message is printed with one space after each comma and between
options, none inside the braces, and an escape before each backslash and brace of literal text. A
validator accepts a text with its canonical spelling, or refuses it.
-/

namespace MessageCatalog.Message

def escapeChar (c : Char) : List Char :=
  if c == '\\' || c == '\x7b' || c == '\x7d' then ['\\', c] else [c]

mutual

def Element.print : Element → List Char
  | .text content => content.toList.flatMap escapeChar
  | .escapedHash => ['\\', '#']
  | .argument name none => '\x7b' :: name.toList ++ ['\x7d']
  | .argument name (some format) =>
      '\x7b' :: name.toList ++ [',', ' '] ++ format.print ++ ['\x7d']

def Format.print : Format → List Char
  | .simple kind none => kind.keyword.toList
  | .simple kind (some style) => kind.keyword.toList ++ [',', ' '] ++ style.toList
  | .plural ordinal offset options =>
      (if ordinal then "selectordinal, " else "plural, ").toList ++
        (if offset > 0 then ("offset:" ++ toString offset ++ " ").toList else []) ++
        printOptions options
  | .select options => "select, ".toList ++ printOptions options

def Choice.print : Choice → List Char
  | .mk selector body => selector.toList ++ [' ', '\x7b'] ++ printElements body ++ ['\x7d']

def printElements : List Element → List Char
  | [] => []
  | element :: rest => element.print ++ printElements rest

def printOptions : List Choice → List Char
  | [] => []
  | [option] => option.print
  | option :: rest => option.print ++ ' ' :: printOptions rest

end

def print (elements : List Element) : String :=
  String.ofList (printElements elements)

abbrev Validator := String → Except SyntaxError String

/-- The message syntax: a text is parsed and printed. -/
def canonicalize : Validator :=
  fun text => (parse text).map print

end MessageCatalog.Message
