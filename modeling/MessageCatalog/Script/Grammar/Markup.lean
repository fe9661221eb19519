import MessageCatalog.Script.Entity
import MessageCatalog.Script.Grammar.Types

/-!
Rules for markup. Names may hold hyphens, quoted values have references instead of escapes, and
text between tags is skipped.
-/

namespace MessageCatalog.Script.Grammar

def isMarkupNamePart (c : Char) : Bool :=
  isIdentifierPart c || c == '-'

def takeMarkupName (offset : Nat) : List Char → List Char × Cursor
  | [] => ([], ⟨offset, []⟩)
  | c :: rest =>
      if isMarkupNamePart c then
        let (name, stop) := takeMarkupName (offset + c.utf8Size) rest
        (c :: name, stop)
      else ([], ⟨offset, c :: rest⟩)

def markupWord : Parse String := do
  let s ← get
  if s.start.rest.head?.any isIdentifierStart then
    let (name, stop) := takeMarkupName s.start.offset s.start.rest
    Parse.moveTo stop
    return String.ofList name
  else Parse.fail

def tagName (g : Grammar) : Parse TagName := do
  let first ← markupWord
  if ← Parse.takeSign ":" then return .namespaced first (← markupWord)
  else
    let rest ← Parse.many g.fuel do
      if ← Parse.takeSign "." then return some (← markupWord) else return none
    return .path first rest

def attributeName : Parse String := do
  let first ← markupWord
  if ← Parse.takeSign ":" then return first ++ ":" ++ (← markupWord) else return first

def takeQuoted? (quote : Char) (offset : Nat) : List Char → Option (List Char × Cursor)
  | [] => none
  | c :: rest =>
      if c == quote then some ([], ⟨offset + c.utf8Size, rest⟩)
      else (takeQuoted? quote (offset + c.utf8Size) rest).map fun (text, stop) => (c :: text, stop)

def quotedValue (quote : Char) : Parse AttributeValue := do
  let start := (← get).start
  match takeQuoted? quote start.next.offset start.next.rest with
  | none => Parse.failAt start.offset
  | some (text, stop) => do
      Parse.moveTo stop
      return .text start.offset (String.ofList (decodeEntities text))

def attributeValue (g : Grammar) : Parse AttributeValue := do
  let s ← get
  let start := s.start.offset
  if s.start.rest.head? == some '"' then quotedValue '"'
  else if s.start.rest.head? == some '\'' then quotedValue '\''
  else if ← Parse.takeSign "\x7b" then
    if ← Parse.isSign "\x7d" then Parse.failAt start
    let value ← Parse.inside (expression g)
    Parse.expectSign "\x7d"
    return .braces start value
  else if s.isSign "<" then return .markup start (← g.markup)
  else Parse.fail

def markupAttribute (g : Grammar) : Parse Attribute := do
  if ← Parse.takeSign "\x7b" then
    Parse.expectSign "..."
    let value ← Parse.inside g.assignment
    Parse.expectSign "\x7d"
    return .spread value
  else
    let start ← Parse.offset
    let name ← attributeName
    let value ← if ← Parse.takeSign "=" then attributeValue g else pure .missing
    return .named ⟨start, (← get).behind.offset⟩ name value

def skipText (offset : Nat) : List Char → Cursor
  | [] => ⟨offset, []⟩
  | c :: rest =>
      if c == '<' || c == '\x7b' then ⟨offset, c :: rest⟩
      else skipText (offset + c.utf8Size) rest

def braced (g : Grammar) : Parse (List Expr) := do
  if ← Parse.isSign "\x7d" then return []
  let _ ← Parse.takeSign "..."
  return [← Parse.inside (expression g)]

def children (g : Grammar) : Nat → Cursor → Parse (List Expr)
  | 0, _ => Parse.fail
  | fuel + 1, c => do
      Parse.moveTo (skipText c.offset c.rest)
      let s ← get
      if s.isSign "\x7b" then
        Parse.advance
        let first ← braced g
        let s ← get
        unless s.isSign "\x7d" do Parse.fail
        return first ++ (← children g fuel s.ahead)
      else if s.isSign "<" then
        if s.advance.isSign "/" then return []
        else
          let first ← g.markup
          return first :: (← children g fuel (← get).behind)
      else Parse.failAt c.offset

def enclosed (g : Grammar) : Parse (List Expr) := do
  let s ← get
  unless s.isSign ">" do Parse.fail
  let found ← children g g.fuel s.ahead
  Parse.expectSign "<"
  Parse.expectSign "/"
  return found

def attributeUnlessClosed (g : Grammar) : Parse (Option Attribute) := do
  if (← Parse.isSign ">") || (← Parse.isSign "/") then return none
  else return some (← markupAttribute g)

def markupRule (g : Grammar) : Parse Expr := do
  let start ← Parse.offset
  Parse.expectSign "<"
  if ← Parse.isSign ">" then
    let found ← enclosed g
    Parse.expectSign ">"
    return .other start (found.map .expr)
  else
    let tag ← tagName g
    let inType ← if (← Parse.hasTypes) && (← Parse.isSign "<") then typeArguments g else pure []
    let attributes ← Parse.inside (Parse.many g.fuel (attributeUnlessClosed g))
    if ← Parse.takeSign "/" then
      Parse.expectSign ">"
      return .element (.mk start tag attributes inType [])
    else
      let found ← enclosed g
      let closing ← Parse.offset
      unless (← tagName g) == tag do Parse.failAt closing
      Parse.expectSign ">"
      return .element (.mk start tag attributes inType found)

end MessageCatalog.Script.Grammar
