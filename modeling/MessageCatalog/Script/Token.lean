import MessageCatalog.Script.Identifier
import MessageCatalog.Script.Literal
import MessageCatalog.Text.Characters

/-!
Tokens of scripts. A token is read from the place where it starts; the white space and the
comments between two tokens are skipped beforehand. An angle bracket is always a token of its
own, as are the opening marks of regular expressions and templates: what comes after them
depends on where they stand.
-/

namespace MessageCatalog.Script

/-- A place in a source: its byte offset, and the text from there on. -/
structure Cursor where
  offset : Nat
  rest : List Char
  deriving Inhabited

def Cursor.next (c : Cursor) : Cursor :=
  match c.rest with
  | [] => c
  | head :: rest => ⟨c.offset + head.utf8Size, rest⟩

def Cursor.skip : Nat → Cursor → Cursor
  | 0, c => c
  | count + 1, c => skip count c.next

inductive Token where
  /-- An identifier or a keyword; one with an escape in it is no keyword. -/
  | word (name : String) (escaped : Bool)
  | privateName
  | number (value : Float)
  | bigInteger
  | text (content : String)
  | sign (name : String)
  | finish
  | invalid (offset : Nat)

inductive Gap where
  | blank
  | lineComment
  | opening
  | blockComment
  | closing

def isScriptBlank (c : Char) : Bool :=
  (Text.isBlank c && c != '\u0085') || c == '\ufeff'

/-- Whether a comment up to the end of the line begins. The closing mark of a comment of markup
begins one too where it is the first token of its line. -/
def opensLineComment (lineEnded : Bool) (c : Char) (rest : List Char) : Bool :=
  (c == '/' && rest.head? == some '/') || (c == '<' && ['!', '-', '-'].isPrefixOf rest) ||
    (lineEnded && c == '-' && ['-', '>'].isPrefixOf rest)

def Gap.step (gap : Gap) (lineEnded : Bool) (c : Char) (rest : List Char) : Option Gap :=
  match gap with
  | .blank =>
      if isScriptBlank c then some .blank
      else if opensLineComment lineEnded c rest then some .lineComment
      else if c == '/' && rest.head? == some '*' then some .opening
      else none
  | .lineComment => some (if isLineEnd c then .blank else .lineComment)
  | .opening => some .blockComment
  | .blockComment => some (if c == '*' && rest.head? == some '/' then .closing else .blockComment)
  | .closing => some .blank

/-- Skips white space and comments; the flag says whether a line ended among them. -/
def skipGap (gap : Gap) (lineEnded : Bool) (offset : Nat) : List Char → Bool × Cursor
  | [] => (lineEnded, ⟨offset, []⟩)
  | c :: rest =>
      match gap.step lineEnded c rest with
      | none => (lineEnded, ⟨offset, c :: rest⟩)
      | some gap => skipGap gap (lineEnded || isLineEnd c) (offset + c.utf8Size) rest

/-- The signs, where a sign comes before its own beginnings. -/
def signs : List String :=
  ["...", "**=", "&&=", "||=", "??=", "===", "!==", "=>", "==", "!=", "++", "--", "+=", "-=",
   "*=", "/=", "%=", "&=", "|=", "^=", "&&", "||", "??", "**", "?.", "\x7b", "\x7d", "(", ")", "[",
   "]", ";", ",", "<", ">", "?", ":", ".", "+", "-", "*", "/", "%", "&", "|", "^", "!", "=", "~",
   "@", "\x60"]

/-- A question mark and a point in front of a digit are two signs. -/
def isSignAt (text : List Char) (sign : String) : Bool :=
  sign.toList.isPrefixOf text &&
    !(sign == "?." && (text[2]?.any Char.isDigit))

def sign? (text : List Char) : Option String :=
  signs.find? (isSignAt text)

/-- The characters of an identifier, escapes decoded; the flag says whether there were any. The
first `pending` characters belong to an escape that is decoded already. -/
def takeWord (pending offset : Nat) : List Char → List Char × Bool × Cursor
  | [] => ([], false, ⟨offset, []⟩)
  | c :: rest =>
      match pending with
      | pending + 1 => takeWord pending (offset + c.utf8Size) rest
      | 0 =>
          if isIdentifierPart c then
            let (name, escaped, stop) := takeWord 0 (offset + c.utf8Size) rest
            (c :: name, escaped, stop)
          else
            match if c == '\\' && rest.head? == some 'u' then unicodeEscape? rest.tail else none with
            | some (code, count) =>
                let (name, _, stop) := takeWord (count + 1) (offset + 1) rest
                (Char.ofNat code :: name, true, stop)
            | none => ([], false, ⟨offset, c :: rest⟩)

def Cursor.takeWord (c : Cursor) : List Char × Bool × Cursor :=
  Script.takeWord 0 c.offset c.rest

/-- The units of a quoted text up to its closing quote, or to the end of the line. The first
`pending` characters belong to an escape that is decoded already. -/
def quotedUnits (quote : Char) (pending offset : Nat) :
    List Char → Except Nat (List Nat × Cursor)
  | [] => .ok ([], ⟨offset, []⟩)
  | c :: rest =>
      match pending with
      | pending + 1 => quotedUnits quote pending (offset + c.utf8Size) rest
      | 0 =>
          if c == '\\' then
            match escape? false rest with
            | some (unit?, count) => do
                let (units, stop) ← quotedUnits quote count (offset + 1) rest
                return (unit?.toList ++ units, stop)
            | none => if rest.isEmpty then .ok ([], ⟨offset + 1, []⟩) else .error offset
          else if c == quote then .ok ([], ⟨offset + 1, rest⟩)
          else if c == '\n' || c == '\r' then .ok ([], ⟨offset, c :: rest⟩)
          else do
            let (units, stop) ← quotedUnits quote 0 (offset + c.utf8Size) rest
            return (c.toNat :: units, stop)

def quotedToken (quote : Char) (c : Cursor) : Token × Cursor :=
  match quotedUnits quote 0 c.next.offset c.next.rest with
  | .ok (units, stop) => (.text (String.ofList (textOfUnits units)), stop)
  | .error offset => (.invalid offset, c.next)

def wordToken (c : Cursor) : Token × Cursor :=
  let (name, escaped, stop) := c.takeWord
  (.word (String.ofList name) escaped, stop)

/-- A numeral; no identifier can begin right behind it. -/
def numberToken (c : Cursor) : Token × Cursor :=
  match numeral? c.rest with
  | some (numeral, after) =>
      let stop := c.skip (c.rest.length - after.length)
      if after.head?.any isIdentifierStart then (.invalid stop.offset, stop)
      else
        match numeral with
        | .number value => (.number value, stop)
        | .bigInteger => (.bigInteger, stop)
  | none => (.invalid c.offset, c.next)

def signToken (c : Cursor) : Token × Cursor :=
  match sign? c.rest with
  | some name => (.sign name, c.skip name.length)
  | none => (.invalid c.offset, c.next)

def Cursor.token (c : Cursor) : Token × Cursor :=
  match c.rest with
  | [] => (.finish, c)
  | head :: rest =>
      if isIdentifierStart head || (head == '\\' && rest.head? == some 'u') then wordToken c
      else if head == '"' || head == '\'' then quotedToken head c
      else if head.isDigit || (head == '.' && rest.head?.any Char.isDigit) then numberToken c
      else if head == '#' then
        match c.next.takeWord with
        | ([], _, _) => (.invalid c.offset, c.next)
        | (_, _, stop) => (.privateName, stop)
      else signToken c

end MessageCatalog.Script
