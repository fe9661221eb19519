import MessageCatalog.Script.Grammar.Patterns
import MessageCatalog.Script.Template

/-!
Rules for types. Types fold to nothing and bind nothing, so that of each only the expressions
inside are kept.
-/

namespace MessageCatalog.Script.Grammar

def typeArguments (g : Grammar) : Parse (List Expr) := do
  Parse.expectSign "<"
  return (← Parse.inside (Parse.listUntil g.fuel ">" g.type)).flatten

def typeArguments? (g : Grammar) : Parse (List Expr) := do
  let s ← get
  if s.isSign "<" && !s.lineEnded then typeArguments g else return []

def isVariance (s : State) : Bool :=
  (s.isWord "const" || s.isWord "in" || s.isWord "out") && s.advance.isAnyWord

def typeParameter (g : Grammar) : Parse (List Expr) := do
  let _ ← Parse.many g.fuel do
    if isVariance (← get) then
      Parse.advance
      return some ()
    else return none
  let _ ← Parse.name
  let bound ← if ← Parse.takeWord "extends" then g.type else pure []
  let default ← if ← Parse.takeSign "=" then g.type else pure []
  return bound ++ default

def typeParameters? (g : Grammar) : Parse (List Expr) := do
  if (← Parse.hasTypes) && (← Parse.takeSign "<") then
    return (← Parse.inside (Parse.listUntil g.fuel ">" (typeParameter g))).flatten
  else return []

/-- What a function gives back: a type, or what it asserts of an argument. -/
def resultType (g : Grammar) : Parse (List Expr) := do
  let s ← get
  let next := s.advance
  if s.isWord "asserts" && next.isAnyWord && !next.lineEnded && !next.isWord "is" then
    Parse.advance
    Parse.advance
    if ← Parse.takeWord "is" then g.type else return []
  else if s.isAnyWord && next.isWord "is" && !next.lineEnded then
    Parse.advance
    Parse.advance
    g.type
  else g.type

def result? (g : Grammar) : Parse (List Expr) := do
  if (← Parse.hasTypes) && (← Parse.takeSign ":") then resultType g else return []

def signature (g : Grammar) : Parse (List Expr) := do
  let own ← typeParameters? g
  let bound ← parameters g
  let result ← result? g
  return own ++ Pattern.exprsOfAll bound ++ result

def arrowSignature (g : Grammar) : Parse (List Expr) := do
  let own ← typeParameters? g
  let bound ← parameters g
  Parse.expectSign "=>"
  return own ++ Pattern.exprsOfAll bound

def beginsKey (s : State) : Bool :=
  match s.token with
  | .word _ _ => true
  | .privateName => true
  | .number _ => true
  | .bigInteger => true
  | .text _ => true
  | .sign name => name == "[" || name == "\x7b" || name == "*"
  | _ => false

/-- What stands in the brackets of a member: a mapped key, an index, or an expression. -/
def bracketedKey (g : Grammar) : Parse (List Expr) := do
  Parse.expectSign "["
  let s ← get
  if s.isAnyWord && s.advance.isWord "in" then
    Parse.advance
    Parse.advance
    let domain ← g.type
    let renamed ← if ← Parse.takeWord "as" then g.type else pure []
    Parse.expectSign "]"
    return domain ++ renamed
  else if s.isAnyWord && s.advance.isSign ":" then
    Parse.advance
    Parse.advance
    let domain ← g.type
    Parse.expectSign "]"
    return domain
  else
    let value ← g.assignment
    Parse.expectSign "]"
    return [value]

def takeAdjustment : Parse Unit := do
  if (← Parse.isSign "+") || (← Parse.isSign "-") then Parse.advance

def memberModifiers : List String :=
  ["readonly", "get", "set"]

def memberModifier : Parse (Option Unit) := do
  takeAdjustment
  match (← get).token with
  | .word name _ =>
      if memberModifiers.contains name && beginsKey (← Parse.following) then
        Parse.advance
        return some ()
      else return none
  | _ => return none

def memberKey (g : Grammar) : Parse (List Expr) := do
  if ← Parse.isSign "[" then bracketedKey g else return (← key g).exprs

/-- A member of an object type, if the closing brace is not at hand. -/
def typeMember (g : Grammar) : Parse (Option (List Expr)) := do
  if ← Parse.isSign "\x7d" then return none
  let _ ← Parse.many g.fuel memberModifier
  let s ← get
  let found ←
    if s.isSign "(" || s.isSign "<" then signature g
    else if s.isWord "new" && (s.advance.isSign "(" || s.advance.isSign "<") then do
      Parse.advance
      signature g
    else do
      let key ← memberKey g
      takeAdjustment
      let _ ← Parse.takeSign "?"
      let s ← get
      let shape ← if s.isSign "(" || s.isSign "<" then signature g else annotation g
      pure (key ++ shape)
  unless ← Parse.takeSign "," do Parse.semicolon
  return some found

def objectType (g : Grammar) : Parse (List Expr) := do
  Parse.expectSign "\x7b"
  let members ← Parse.inside (Parse.many g.fuel (typeMember g))
  Parse.expectSign "\x7d"
  return members.flatten

def tupleElement (g : Grammar) : Parse (List Expr) := do
  let _ ← Parse.takeSign "..."
  let s ← get
  let next := s.advance
  if s.isAnyWord && (next.isSign ":" || (next.isSign "?" && next.advance.isSign ":")) then
    Parse.advance
    let _ ← Parse.takeSign "?"
    Parse.expectSign ":"
    g.type
  else
    let found ← g.type
    let _ ← Parse.takeSign "?"
    return found

def templateTypes (g : Grammar) (start : Nat) : Nat → Cursor → Parse (List Expr)
  | 0, _ => Parse.fail
  | fuel + 1, c =>
      match c.chunk? with
      | none => Parse.failAt start
      | some chunk => do
          Parse.moveTo chunk.stop
          if chunk.opensHole then
            let hole ← Parse.inside g.type
            let s ← get
            unless s.isSign "\x7d" do Parse.fail
            return hole ++ (← templateTypes g start fuel s.ahead)
          else return []

def qualifiers (g : Grammar) : Parse Unit := do
  let _ ← Parse.many g.fuel do
    if ← Parse.takeSign "." then
      let _ ← Parse.anyWord
      return some ()
    else return none

def importedType (g : Grammar) : Parse (List Expr) := do
  Parse.expectSign "("
  let source ← Parse.inside g.type
  if ← Parse.takeSign "," then
    let _ ← Parse.inside g.assignment
    let _ ← Parse.takeSign ","
  Parse.expectSign ")"
  qualifiers g
  return source ++ (← typeArguments? g)

def queriedType (g : Grammar) : Parse (List Expr) := do
  if ← Parse.takeWord "import" then importedType g
  else
    let _ ← Parse.anyWord
    qualifiers g
    typeArguments? g

def namedType (g : Grammar) : Parse (List Expr) := do
  if ← Parse.takeWord "typeof" then queriedType g
  else if ← Parse.takeWord "import" then importedType g
  else
    let s ← get
    let _ ← Parse.anyWord
    unless s.isName || ["void", "null", "this", "true", "false"].any s.isWord do
      Parse.failAt s.fault
    qualifiers g
    typeArguments? g

def primaryType (g : Grammar) : Parse (List Expr) := do
  let s ← get
  match s.token with
  | .word _ _ => namedType g
  | .text _ => do
      Parse.advance
      return []
  | .number _ => do
      Parse.advance
      return []
  | .bigInteger => do
      Parse.advance
      return []
  | .sign "-" => do
      Parse.advance
      match (← get).token with
      | .number _ => Parse.advance
      | .bigInteger => Parse.advance
      | _ => Parse.fail
      return []
  | .sign "\x60" => templateTypes g s.start.offset g.fuel s.ahead
  | .sign "(" => do
      Parse.advance
      let found ← Parse.inside g.type
      Parse.expectSign ")"
      return found
  | .sign "[" => do
      Parse.advance
      return (← Parse.inside (Parse.listUntil g.fuel "]" (tupleElement g))).flatten
  | .sign "\x7b" => objectType g
  | _ => Parse.fail

def arrayType (g : Grammar) : Parse (List Expr) := do
  let found ← primaryType g
  let keys ← Parse.many g.fuel do
    let s ← get
    if s.isSign "[" && !s.lineEnded then
      Parse.advance
      if ← Parse.takeSign "]" then return some []
      else
        let key ← Parse.inside g.type
        Parse.expectSign "]"
        return some key
    else return none
  return found ++ keys.flatten

def beginsType (s : State) : Bool :=
  match s.token with
  | .word name _ => name != "is" && name != "extends"
  | .number _ => true
  | .text _ => true
  | .sign name => ["(", "[", "\x7b", "\x60", "-"].contains name
  | _ => false

def isTypeOperator (s : State) : Bool :=
  (s.isWord "keyof" || s.isWord "unique" || s.isWord "readonly") && beginsType s.advance

/-- The bound of an inferred type; a question mark behind it would make it a condition. -/
def inferredBound (g : Grammar) : Parse (List Expr) := do
  Parse.expectWord "extends"
  let bound ← withReader (fun context => { context with allowConditionalType := false }) g.type
  if (← read).allowConditionalType && (← Parse.isSign "?") then Parse.fail
  return bound

def operatorType (g : Grammar) : Parse (List Expr) := do
  let _ ← Parse.many g.fuel do
    if isTypeOperator (← get) then
      Parse.advance
      return some ()
    else return none
  let s ← get
  if s.isWord "infer" && s.advance.isName then
    Parse.advance
    Parse.advance
    if ← Parse.isWord "extends" then return (← Parse.attempt (inferredBound g)).getD []
    else return []
  else arrayType g

def typesBetween (g : Grammar) (sign : String) (rule : Parse (List Expr)) : Parse (List Expr) := do
  let _ ← Parse.takeSign sign
  let first ← rule
  let rest ← Parse.many g.fuel do
    if ← Parse.takeSign sign then return some (← rule) else return none
  return first ++ rest.flatten

def unionType (g : Grammar) : Parse (List Expr) :=
  typesBetween g "|" (typesBetween g "&" (operatorType g))

def conditionalType (g : Grammar) : Parse (List Expr) := do
  let checked ← unionType g
  let s ← get
  if (← read).allowConditionalType && s.isWord "extends" && !s.lineEnded then
    Parse.advance
    let bound ← withReader (fun context => { context with allowConditionalType := false }) g.type
    Parse.expectSign "?"
    let yes ← Parse.inside g.type
    Parse.expectSign ":"
    let no ← g.type
    return checked ++ bound ++ yes ++ no
  else return checked

def typeRule (g : Grammar) : Parse (List Expr) := do
  let s ← get
  if s.isWord "abstract" && s.advance.isWord "new" then Parse.advance
  if ← Parse.takeWord "new" then
    let head ← arrowSignature g
    return head ++ (← resultType g)
  else if s.isSign "<" || s.isSign "(" then
    match ← Parse.attempt (arrowSignature g) with
    | some head => return head ++ (← resultType g)
    | none => conditionalType g
  else conditionalType g

end MessageCatalog.Script.Grammar
