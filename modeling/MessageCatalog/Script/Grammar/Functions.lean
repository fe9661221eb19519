import MessageCatalog.Script.Grammar.Types

/-!
Rules for functions, blocks and classes. The types of a function are walked over behind its body,
and what a class extends behind its members.
-/

namespace MessageCatalog.Script.Grammar

def statements (g : Grammar) : Parse (List Part) :=
  Parse.many g.fuel do
    if ← Parse.isSign "\x7d" then return none else return some (← g.statement)

def block (g : Grammar) : Parse Part := do
  Parse.expectSign "\x7b"
  let parts ← Parse.inside (statements g)
  Parse.expectSign "\x7d"
  return .block parts

def inFunction {α : Type} (generator : Bool) (rule : Parse α) : Parse α :=
  withReader (fun context => { context with inGenerator := generator }) rule

/-- A function from its parameters on. Where a declaration without a body is allowed, it ends as a
statement does. -/
def functionTail (g : Grammar) (kind : FunctionKind) (generator bodyless : Bool) : Parse Part := do
  let own ← typeParameters? g
  let bound ← inFunction generator (parameters g)
  let result ← result? g
  let body ←
    if bodyless && (← Parse.hasTypes) && !(← Parse.isSign "\x7b") then do
      Parse.semicolon
      pure []
    else pure [← inFunction generator (block g)]
  return .function kind bound (body ++ (own ++ result).map .expr)

def namedFunction (g : Grammar) (bodyless : Bool) : Parse (Option String × Part) := do
  let generator ← Parse.takeSign "*"
  let name ← if (← get).isName then some <$> Parse.name else pure none
  return (name, ← functionTail g .function generator bodyless)

structure ArrowHead where
  parameters : List Pattern
  types : List Expr
  hasResult : Bool

def arrow : Parse Unit := do
  if (← get).lineEnded then Parse.fail
  Parse.expectSign "=>"

def arrowHead (g : Grammar) : Parse ArrowHead := do
  let own ← typeParameters? g
  let bound ← parameters g
  let hasResult := (← Parse.hasTypes) && (← Parse.isSign ":")
  let result ← result? g
  arrow
  return ⟨bound, own ++ result, hasResult⟩

/-- An arrow function behind its arrow: its body is a block or an expression. -/
def arrowTail (g : Grammar) (start : Nat) (head : ArrowHead) : Parse Expr := do
  let body ←
    if ← Parse.isSign "\x7b" then inFunction false (block g)
    else Part.expr <$> inFunction false g.assignment
  return .other start [.function .arrow head.parameters (body :: head.types.map .expr)]

def arrowFunction (g : Grammar) (start : Nat) : Parse (Option Expr) := do
  let context ← read
  let s ← get
  match ← Parse.attempt (arrowHead g) with
  | none => return none
  | some head =>
      if context.beforeColon && head.hasResult then
        set s
        Parse.attempt do
          let found ← arrowTail g start (← arrowHead g)
          unless ← Parse.isSign ":" do Parse.fail
          return found
      else return some (← arrowTail g start head)

def classModifiers : List String :=
  ["public", "private", "protected", "static", "abstract", "override", "readonly", "declare",
   "accessor"]

def isModifier (words : List String) (s : State) : Bool :=
  words.any fun word =>
    s.isWord word && beginsKey s.advance && !(word == "async" && s.advance.lineEnded)

structure MemberName where
  exprs : List Expr
  isConstructor : Bool

def isConstructorKey : Key → Bool
  | .name _ text => text == "constructor"
  | .literal _ (.text content) => content == "constructor"
  | _ => false

def memberName (g : Grammar) : Parse MemberName := do
  match (← get).token with
  | .privateName => do
      Parse.advance
      return ⟨[], false⟩
  | _ => do
      let key ← key g
      return ⟨key.exprs, isConstructorKey key⟩

def indexSignature? (g : Grammar) : Parse (Option (List Expr)) := do
  let s ← get
  let inner := s.advance
  if (← Parse.hasTypes) && s.isSign "[" && inner.isName && inner.advance.isSign ":" then
    let found ← bracketedKey g
    let result ← annotation g
    Parse.semicolon
    return some (found ++ result)
  else return none

def classMethod (g : Grammar) (name : MemberName) (generator plain : Bool) :
    Parse (List Part) := do
  let kind := if plain && name.isConstructor then FunctionKind.constructor else .method
  let tail ← functionTail g kind generator true
  return name.exprs.map .expr ++ [tail]

def classField (g : Grammar) (name : MemberName) : Parse (List Part) := do
  let inType ← annotation g
  let value ← if ← Parse.takeSign "=" then some <$> Parse.inside g.assignment else pure none
  Parse.semicolon
  return (name.exprs ++ value.toList ++ inType).map .expr

def takeModifiers (g : Grammar) (words : List String) : Parse (List String) :=
  Parse.many g.fuel do
    if isModifier words (← get) then return some (← Parse.anyWord) else return none

/-- A member of a class, if the closing brace is not at hand. -/
def classMember (g : Grammar) : Parse (Option (List Part)) := do
  if ← Parse.isSign "\x7d" then return none
  if ← Parse.takeSign ";" then return some []
  let first ← get
  if first.isWord "static" && first.advance.isSign "\x7b" then
    Parse.advance
    return some [← block g]
  let modifiers ← takeModifiers g classModifiers
  match ← indexSignature? g with
  | some found => return some (found.map .expr)
  | none =>
      let roles ← takeModifiers g ["async", "get", "set"]
      let generator ← Parse.takeSign "*"
      let name ← memberName g
      if ← Parse.hasTypes then
        let _ ← Parse.takeSign "?"
        let _ ← Parse.takeSign "!"
      if (← Parse.isSign "(") || (← Parse.isSign "<") then
        let plain := !modifiers.contains "static" && roles.isEmpty && !generator
        return some (← classMethod g name generator plain)
      else return some (← classField g name)

def implemented (g : Grammar) : Parse (List Expr) := do
  if (← Parse.hasTypes) && (← Parse.takeWord "implements") then
    let first ← g.type
    let rest ← Parse.many g.fuel do
      if ← Parse.takeSign "," then return some (← g.type) else return none
    return first ++ rest.flatten
  else return []

def heritage (g : Grammar) : Parse (List Expr) := do
  if ← Parse.takeWord "extends" then
    let parent ← g.leftHand true
    let inType ← if (← Parse.hasTypes) && (← Parse.isSign "<") then typeArguments g else pure []
    return parent :: inType
  else return []

def classTail (g : Grammar) : Parse (List Part) := do
  let own ← typeParameters? g
  let parent ← heritage g
  let types ← implemented g
  Parse.expectSign "\x7b"
  let members ← Parse.inside (Parse.many g.fuel (classMember g))
  Parse.expectSign "\x7d"
  return members.flatten ++ (parent ++ own ++ types).map .expr

def namedClass (g : Grammar) : Parse (Option String × List Part) := do
  let s ← get
  let name ← if s.isName && !s.isWord "implements" then some <$> Parse.name else pure none
  return (name, ← classTail g)

end MessageCatalog.Script.Grammar
