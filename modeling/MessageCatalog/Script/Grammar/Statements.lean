import MessageCatalog.Script.Grammar.Functions

/-!
Rules for statements, and for the declarations that only types need.
-/

namespace MessageCatalog.Script.Grammar

def exprPart (rule : Parse Expr) : Parse Part :=
  Part.expr <$> rule

def declarator (g : Grammar) : Parse Declarator := do
  let target ← typedPattern g "!" (← g.pattern)
  let init ← if ← Parse.takeSign "=" then some <$> g.assignment else pure none
  return .mk target init

def declarators (g : Grammar) : Parse (List Declarator) := do
  let first ← declarator g
  let rest ← Parse.many g.fuel do
    if ← Parse.takeSign "," then return some (← declarator g) else return none
  return first :: rest

def beginsPattern (s : State) : Bool :=
  s.isName || s.isSign "[" || s.isSign "\x7b"

def declaresVariables (s : State) : Bool :=
  let next := s.advance
  s.isWord "var" || (s.isWord "const" && !next.isWord "enum") ||
    (s.isWord "let" && beginsPattern next)

def variableDeclaration (g : Grammar) : Parse Part := do
  let constant ← Parse.isWord "const"
  Parse.advance
  return .variableDeclaration constant (← declarators g)

/-- A declaration of resources binds nothing here; its values are walked over. -/
def resources (g : Grammar) : Parse Part := do
  let _ ← Parse.takeWord "await"
  Parse.advance
  let found ← declarators g
  return .group (found.filterMap fun
    | .mk _ init => init.map .expr)

def declaresResources (s : State) : Bool :=
  let keyword := if s.isWord "await" then s.advance else s
  let next := keyword.advance
  keyword.isWord "using" && next.isName && !next.lineEnded && !next.isWord "of" &&
    !next.isWord "in"

def condition (g : Grammar) : Parse Part := do
  Parse.expectSign "("
  let test ← Parse.inside (expression g)
  Parse.expectSign ")"
  return .expr test

def ifStatement (g : Grammar) : Parse Part := do
  let test ← condition g
  let yes ← g.statement
  if ← Parse.takeWord "else" then return .group [test, yes, ← g.statement]
  else return .group [test, yes]

/-- An expression before a sign, if the sign is not at hand. -/
def expressionBefore (g : Grammar) (sign : String) : Parse (List Part) := do
  let found ←
    if ← Parse.isSign sign then pure [] else pure [← exprPart (Parse.inside (expression g))]
  Parse.expectSign sign
  return found

def iterationTail (g : Grammar) (target : List Part) : Parse Part := do
  let source ← Parse.inside (expression g)
  Parse.expectSign ")"
  return .group (target ++ [.expr source, ← g.statement])

/-- The rest of a loop behind the parts that start it: over items, over keys, or counted. -/
def loopTail (g : Grammar) (target : List Part) : Parse Part := do
  if ← Parse.takeWord "of" then iterationTail g target
  else if ← Parse.takeWord "in" then iterationTail g target
  else
    Parse.expectSign ";"
    let test ← expressionBefore g ";"
    let update ← expressionBefore g ")"
    return .group (target ++ test ++ update ++ [← g.statement])

def withoutIn {α : Type} (rule : Parse α) : Parse α :=
  withReader (fun context => { context with allowIn := false }) rule

def forStatement (g : Grammar) : Parse Part := do
  let _ ← Parse.takeWord "await"
  Parse.expectSign "("
  let s ← get
  let start ←
    if s.isSign ";" then pure []
    else if declaresVariables s then pure [← withoutIn (variableDeclaration g)]
    else if declaresResources s then pure [← withoutIn (resources g)]
    else pure [← exprPart (withoutIn (expression g))]
  loopTail g start

def whileStatement (g : Grammar) : Parse Part := do
  let test ← condition g
  return .group [test, ← g.statement]

/-- The condition of this loop is walked over before its body. -/
def doStatement (g : Grammar) : Parse Part := do
  let body ← g.statement
  Parse.expectWord "while"
  let test ← condition g
  let _ ← Parse.takeSign ";"
  return .group [test, body]

def switchCase (g : Grammar) : Parse (Option Part) := do
  if ← Parse.isSign "\x7d" then return none
  let test ←
    if ← Parse.takeWord "default" then pure []
    else do
      Parse.expectWord "case"
      pure [← exprPart (expression g)]
  Parse.expectSign ":"
  let body ← Parse.many g.fuel do
    let s ← get
    if s.isSign "\x7d" || s.isWord "case" || s.isWord "default" then return none
    else return some (← g.statement)
  return some (.group (test ++ body))

def switchStatement (g : Grammar) : Parse Part := do
  let value ← condition g
  Parse.expectSign "\x7b"
  let cases ← Parse.inside (Parse.many g.fuel (switchCase g))
  Parse.expectSign "\x7d"
  return .group (value :: cases)

def catchClause (g : Grammar) : Parse Part := do
  let bound ←
    if ← Parse.takeSign "(" then do
      let target ← typedPattern g "!" (← g.pattern)
      Parse.expectSign ")"
      pure (some target)
    else pure none
  return .catching bound [← block g]

def tryStatement (g : Grammar) : Parse Part := do
  let body ← block g
  let handler ← if ← Parse.takeWord "catch" then pure [← catchClause g] else pure []
  let final ← if ← Parse.takeWord "finally" then pure [← block g] else pure []
  if handler.isEmpty && final.isEmpty then Parse.fail
  return .group (body :: handler ++ final)

def optionalValue (g : Grammar) : Parse Part := do
  let s ← get
  if s.isSign ";" || s.isSign "\x7d" || s.isFinished || s.lineEnded then
    Parse.semicolon
    return .group []
  else
    let value ← expression g
    Parse.semicolon
    return .expr value

def thrown (g : Grammar) : Parse Part := do
  if (← get).lineEnded then Parse.fail
  let value ← expression g
  Parse.semicolon
  return .expr value

def jump : Parse Part := do
  let s ← get
  if s.isName && !s.lineEnded then Parse.advance
  Parse.semicolon
  return .group []

def functionDeclaration (g : Grammar) : Parse Part := do
  match ← namedFunction g true with
  | (some name, tail) => return .declaration name [tail]
  | (none, _) => Parse.fail

def classDeclaration (g : Grammar) : Parse Part := do
  match ← namedClass g with
  | (some name, parts) => return .declaration name parts
  | (none, _) => Parse.fail

/-! ### Declarations that only types need -/

def exprGroup (values : List Expr) : Part :=
  .group (values.map .expr)

def typeAlias (g : Grammar) : Parse Part := do
  let _ ← Parse.name
  let own ← typeParameters? g
  Parse.expectSign "="
  let value ← g.type
  Parse.semicolon
  return exprGroup (own ++ value)

def interface (g : Grammar) : Parse Part := do
  let _ ← Parse.name
  let own ← typeParameters? g
  let parents ←
    if ← Parse.takeWord "extends" then do
      let first ← g.type
      let rest ← Parse.many g.fuel do
        if ← Parse.takeSign "," then return some (← g.type) else return none
      pure (first ++ rest.flatten)
    else pure []
  let members ← objectType g
  return exprGroup (own ++ parents ++ members)

def enumMember (g : Grammar) : Parse (List Expr) := do
  let key ← key g
  if ← Parse.takeSign "=" then return key.exprs ++ [← g.assignment] else return key.exprs

def enumeration (g : Grammar) : Parse Part := do
  let _ ← Parse.name
  Parse.expectSign "\x7b"
  let members ← Parse.inside (Parse.listUntil g.fuel "\x7d" (enumMember g))
  return exprGroup members.flatten

/-- The body of a namespace, which opens no scope. -/
def namespaceBody (g : Grammar) : Parse Part := do
  Parse.expectSign "\x7b"
  let items ← Parse.inside (Parse.many g.fuel do
    if ← Parse.isSign "\x7d" then return none else return some (← g.item))
  Parse.expectSign "\x7d"
  return .group (items.map Item.toPart)

def namespaceDeclaration (g : Grammar) : Parse Part := do
  match (← get).token with
  | .text _ => do
      Parse.advance
      if ← Parse.isSign "\x7b" then namespaceBody g
      else
        Parse.semicolon
        return .group []
  | _ => do
      let _ ← Parse.name
      qualifiers g
      namespaceBody g

/-- A declaration that begins with a word that is no keyword elsewhere, if one is at hand. -/
def typeDeclaration? (g : Grammar) : Parse (Option Part) := do
  let s ← get
  let next := s.advance
  let named := next.isName && !next.lineEnded
  if !(← Parse.hasTypes) then return none
  else if s.isWord "type" && named then
    Parse.advance
    return some (← typeAlias g)
  else if s.isWord "interface" && named then
    Parse.advance
    return some (← interface g)
  else if s.isWord "enum" then
    Parse.advance
    return some (← enumeration g)
  else if s.isWord "const" && next.isWord "enum" then
    Parse.advance
    Parse.advance
    return some (← enumeration g)
  else if s.isWord "namespace" && named then
    Parse.advance
    return some (← namespaceDeclaration g)
  else if s.isWord "module" && !next.lineEnded && (next.isName || next.token matches .text _) then
    Parse.advance
    return some (← namespaceDeclaration g)
  else if s.isWord "global" && next.isSign "\x7b" then
    Parse.advance
    return some (← namespaceBody g)
  else if s.isWord "abstract" && next.isWord "class" && !next.lineEnded then
    Parse.advance
    Parse.advance
    return some (← classDeclaration g)
  else if s.isWord "declare" && next.isAnyWord && !next.lineEnded && !next.isWord "in" &&
      !next.isWord "instanceof" && !next.isWord "as" && !next.isWord "satisfies" then
    Parse.advance
    return some (← g.statement)
  else return none

/-! ### Statements -/

def keywordStatement (g : Grammar) (name : String) : Parse (Option Part) := do
  match name with
  | "if" => do
      Parse.advance
      some <$> ifStatement g
  | "for" => do
      Parse.advance
      some <$> forStatement g
  | "while" => do
      Parse.advance
      some <$> whileStatement g
  | "with" => do
      Parse.advance
      some <$> whileStatement g
  | "do" => do
      Parse.advance
      some <$> doStatement g
  | "switch" => do
      Parse.advance
      some <$> switchStatement g
  | "try" => do
      Parse.advance
      some <$> tryStatement g
  | "return" => do
      Parse.advance
      some <$> optionalValue g
  | "throw" => do
      Parse.advance
      some <$> thrown g
  | "break" => do
      Parse.advance
      some <$> jump
  | "continue" => do
      Parse.advance
      some <$> jump
  | "debugger" => do
      Parse.advance
      Parse.semicolon
      return some (.group [])
  | "function" => do
      Parse.advance
      some <$> functionDeclaration g
  | "class" => do
      Parse.advance
      some <$> classDeclaration g
  | _ => return none

def asyncDeclaration? (g : Grammar) : Parse (Option Part) := do
  let s ← get
  if s.isWord "async" && s.advance.isWord "function" && !s.advance.lineEnded then
    Parse.advance
    Parse.advance
    some <$> functionDeclaration g
  else return none

def expressionStatement (g : Grammar) : Parse Part := do
  let s ← get
  if s.isName && s.advance.isSign ":" then
    Parse.advance
    Parse.advance
    g.statement
  else
    let value ← expression g
    Parse.semicolon
    return .expr value

def wordStatement (g : Grammar) (name : String) (escaped : Bool) : Parse Part := do
  let s ← get
  if escaped then expressionStatement g
  else
    match ← typeDeclaration? g with
    | some found => return found
    | none =>
        if declaresVariables s then
          let found ← variableDeclaration g
          Parse.semicolon
          return found
        else if declaresResources s then
          let found ← resources g
          Parse.semicolon
          return found
        else
          match ← keywordStatement g name with
          | some found => return found
          | none =>
              match ← asyncDeclaration? g with
              | some found => return found
              | none => expressionStatement g

def statementRule (g : Grammar) : Parse Part := do
  match (← get).token with
  | .sign "\x7b" => block g
  | .sign ";" => do
      Parse.advance
      return .group []
  | .word name escaped => wordStatement g name escaped
  | _ => expressionStatement g

end MessageCatalog.Script.Grammar
