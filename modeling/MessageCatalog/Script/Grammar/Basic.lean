import MessageCatalog.Path
import MessageCatalog.Script.Syntax
import MessageCatalog.Script.Token

/-!
The means by which the rules of the grammar are written. A rule reads tokens from a state; it
fails with the byte offset of the first token that cannot continue. Rules that refer to each
other take the rest of the grammar as an argument, so that each stands on its own. A file's
extension selects a dialect of the language.
-/

namespace MessageCatalog.Script

inductive Dialect where
  | types
  | typesAndMarkup
  | markup
  deriving DecidableEq, Repr

def Dialect.hasTypes : Dialect → Bool
  | .markup => false
  | _ => true

def Dialect.hasMarkup : Dialect → Bool
  | .types => false
  | _ => true

/-- Unknown extensions, and none, select types with markup. -/
def Dialect.ofPath (path : String) : Dialect :=
  match Path.extension? path with
  | some extension =>
      if ["ts", "mts", "cts"].contains extension then .types
      else if ["js", "jsx", "mjs", "cjs"].contains extension then .markup
      else .typesAndMarkup
  | none => .typesAndMarkup

structure Context where
  dialect : Dialect
  allowIn : Bool := true
  inGenerator : Bool := false
  beforeColon : Bool := false
  allowConditionalType : Bool := true

structure State where
  behind : Cursor
  start : Cursor
  token : Token
  lineEnded : Bool
  ahead : Cursor

def State.ofCursor (c : Cursor) : State :=
  let (lineEnded, start) := skipGap .blank false c.offset c.rest
  let (found, ahead) := start.token
  ⟨c, start, found, lineEnded, ahead⟩

def State.advance (s : State) : State :=
  State.ofCursor s.ahead

def State.fault (s : State) : Nat :=
  match s.token with
  | .invalid offset => offset
  | _ => s.start.offset

def State.isSign (name : String) (s : State) : Bool :=
  match s.token with
  | .sign found => found == name
  | _ => false

def State.isWord (name : String) (s : State) : Bool :=
  match s.token with
  | .word found escaped => found == name && !escaped
  | _ => false

def State.isAnyWord (s : State) : Bool :=
  match s.token with
  | .word _ _ => true
  | _ => false

def State.isFinished (s : State) : Bool :=
  match s.token with
  | .finish => true
  | _ => false

def reservedWords : List String :=
  ["break", "case", "catch", "class", "const", "continue", "debugger", "default", "delete", "do",
   "else", "enum", "export", "extends", "false", "finally", "for", "function", "if", "import",
   "in", "instanceof", "new", "null", "return", "super", "switch", "this", "throw", "true", "try",
   "typeof", "var", "void", "while", "with"]

def isReserved (name : String) : Bool :=
  reservedWords.contains name

def State.isName (s : State) : Bool :=
  match s.token with
  | .word name escaped => escaped || !isReserved name
  | _ => false

abbrev Parse := ReaderT Context (StateT State (Except Nat))

namespace Parse

def failAt {α : Type} (offset : Nat) : Parse α :=
  fun _ _ => .error offset

def fail {α : Type} : Parse α :=
  fun _ s => .error s.fault

def advance : Parse Unit :=
  modify State.advance

def moveTo (c : Cursor) : Parse Unit :=
  set (State.ofCursor c)

def isSign (name : String) : Parse Bool :=
  return (← get).isSign name

def isWord (name : String) : Parse Bool :=
  return (← get).isWord name

def following : Parse State :=
  return (← get).advance

def takeSign (name : String) : Parse Bool := do
  if ← isSign name then
    advance
    return true
  else return false

def takeWord (name : String) : Parse Bool := do
  if ← isWord name then
    advance
    return true
  else return false

def expectSign (name : String) : Parse Unit := do
  unless ← takeSign name do fail

def expectWord (name : String) : Parse Unit := do
  unless ← takeWord name do fail

def offset : Parse Nat :=
  return (← get).start.offset

/-- What a rule reads, or nothing, and the state as it was, if it fails. -/
def attempt {α : Type} (rule : Parse α) : Parse (Option α) :=
  fun context s =>
    match rule context s with
    | .ok (value, after) => .ok (some value, after)
    | .error _ => .ok (none, s)

/-- The first of two rules that reads something. If neither does, the error is the one that lies
farther. -/
def orElse {α : Type} (first second : Parse α) : Parse α :=
  fun context s =>
    match first context s with
    | .ok found => .ok found
    | .error offset =>
        match second context s with
        | .ok found => .ok found
        | .error other => .error (max offset other)

/-- Reads with the rule until it has nothing to read. -/
def many {α : Type} (fuel : Nat) (rule : Parse (Option α)) : Parse (List α) :=
  match fuel with
  | 0 => fail
  | fuel + 1 => do
      match ← rule with
      | none => return []
      | some first => return first :: (← many fuel rule)

def listUntil {α : Type} (fuel : Nat) (close : String) (item : Parse α) : Parse (List α) :=
  match fuel with
  | 0 => fail
  | fuel + 1 => do
      if ← takeSign close then return []
      let first ← item
      if ← takeSign close then return [first]
      expectSign ","
      return first :: (← listUntil fuel close item)

def semicolon : Parse Unit := do
  unless ← takeSign ";" do
    let s ← get
    unless s.isSign "\x7d" || s.isFinished || s.lineEnded do fail

def anyWord : Parse String := do
  match (← get).token with
  | .word name _ => do
      advance
      return name
  | _ => fail

def name : Parse String := do
  if (← get).isName then anyWord else fail

def hasTypes : Parse Bool :=
  return (← read).dialect.hasTypes

def hasMarkup : Parse Bool :=
  return (← read).dialect.hasMarkup

def inside {α : Type} (rule : Parse α) : Parse α :=
  withReader (fun context =>
    { context with allowIn := true, beforeColon := false, allowConditionalType := true }) rule

end Parse

structure Grammar where
  fuel : Nat
  assignment : Parse Expr
  binary : Nat → Parse Expr
  unary : Parse Expr
  /-- What can be called or assigned to; the flag says whether calls may be part of it. -/
  leftHand : Bool → Parse Expr
  markup : Parse Expr
  pattern : Parse Pattern
  /-- A type; of it, only the expressions inside are kept. -/
  type : Parse (List Expr)
  statement : Parse Part
  item : Parse Item

namespace Grammar

def expression (g : Grammar) : Parse Expr := do
  let first ← g.assignment
  let rest ← Parse.many g.fuel do
    if ← Parse.takeSign "," then return some (← g.assignment) else return none
  if rest.isEmpty then return first
  else return .other first.start ((first :: rest).map .expr)

def key (g : Grammar) : Parse Key := do
  let start ← Parse.offset
  match (← get).token with
  | .word name _ => do
      Parse.advance
      return .name start name
  | .text content => do
      Parse.advance
      return .literal start (.text content)
  | .number value => do
      Parse.advance
      return .literal start (.number value)
  | .bigInteger => do
      Parse.advance
      return .bigInteger start
  | _ => do
      Parse.expectSign "["
      let value ← Parse.inside g.assignment
      Parse.expectSign "]"
      return .computed start value

end Grammar

def Key.exprs : Key → List Expr
  | .computed _ value => [value]
  | _ => []

end MessageCatalog.Script
