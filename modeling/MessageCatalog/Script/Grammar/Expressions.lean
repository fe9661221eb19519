import MessageCatalog.Script.Grammar.Functions
import MessageCatalog.Script.Grammar.Markup

/-!
Rules for expressions. Operators of one strength group from the left, but for the power.
-/

namespace MessageCatalog.Script.Grammar

/-! ### Literals, objects and other primary expressions -/

def templateParts (g : Grammar) (start : Nat) (tagged : Bool) :
    Nat → Cursor → Parse (List (Option String) × List Expr)
  | 0, _ => Parse.fail
  | fuel + 1, c =>
      match c.chunk? with
      | none => Parse.failAt start
      | some chunk => do
          if let some offset := chunk.invalid then
            unless tagged do Parse.failAt offset
          Parse.moveTo chunk.stop
          if chunk.opensHole then
            let hole ← Parse.inside (expression g)
            let s ← get
            unless s.isSign "\x7d" do Parse.fail
            let (chunks, holes) ← templateParts g start tagged fuel s.ahead
            return (chunk.text :: chunks, hole :: holes)
          else return ([chunk.text], [])

def template (g : Grammar) (tagged : Bool) : Parse Expr := do
  let s ← get
  let (chunks, holes) ← templateParts g s.start.offset tagged g.fuel s.ahead
  return .template s.start.offset chunks holes

/-- The length of a regular expression up to its closing slash; a slash in brackets is part of
it. -/
def patternLength? (inBrackets escaped : Bool) : List Char → Option Nat
  | [] => none
  | c :: rest =>
      if isLineEnd c then none
      else if escaped then (patternLength? inBrackets false rest).map (· + 1)
      else if c == '/' && !inBrackets then some 1
      else
        (patternLength? (c == '[' || (inBrackets && c != ']')) (c == '\\') rest).map (· + 1)

def regularExpression : Parse Expr := do
  let start := (← get).start
  match patternLength? false false start.next.rest with
  | none => Parse.failAt start.offset
  | some length => do
      let (_, _, stop) := (start.next.skip length).takeWord
      Parse.moveTo stop
      return .other start.offset []

def spreadArgument (g : Grammar) : Parse Argument := do
  if ← Parse.takeSign "..." then return .spread (← g.assignment)
  else return .plain (← g.assignment)

def arguments (g : Grammar) : Parse (List Argument) := do
  Parse.expectSign "("
  Parse.inside (Parse.listUntil g.fuel ")" (spreadArgument g))

/-- An element of an array; one that is left out is nothing. -/
def arrayItem (g : Grammar) : Parse (List Expr) := do
  if ← Parse.isSign "," then return []
  else
    let _ ← Parse.takeSign "..."
    return [← g.assignment]

def array (g : Grammar) : Parse Expr := do
  let start ← Parse.offset
  Parse.expectSign "["
  let items ← Parse.inside (Parse.listUntil g.fuel "]" (arrayItem g))
  return .other start (items.flatten.map .expr)

def isRole (name : String) (s : State) : Bool :=
  s.isWord name && beginsKey s.advance && !s.advance.isSign "\x7b" &&
    !(name == "async" && s.advance.lineEnded)

def method (g : Grammar) (start : Nat) (kind : FunctionKind) (generator : Bool) (key : Key) :
    Parse Property :=
  return .method start key (← functionTail g kind generator false)

/-- A property that is no method, behind its key. -/
def plainProperty (g : Grammar) (s : State) (key : Key) : Parse Property := do
  if ← Parse.takeSign ":" then return .keyed key (← g.assignment)
  else
    match key with
    | .name start text =>
        if !s.isName then Parse.fail
        else if ← Parse.takeSign "=" then return .assigned start text (← g.assignment)
        else return .shorthand start text
    | _ => Parse.fail

def property (g : Grammar) : Parse Property := do
  let s ← get
  let start := s.start.offset
  if ← Parse.takeSign "..." then return .spread start (← g.assignment)
  else if isRole "get" s || isRole "set" s then
    Parse.advance
    method g start .accessor false (← key g)
  else if isRole "async" s then
    Parse.advance
    let generator ← Parse.takeSign "*"
    method g start .method generator (← key g)
  else if ← Parse.takeSign "*" then method g start .method true (← key g)
  else
    let key ← key g
    if (← Parse.isSign "(") || (← Parse.isSign "<") then method g start .method false key
    else plainProperty g s key

def object (g : Grammar) : Parse Expr := do
  let start ← Parse.offset
  Parse.expectSign "\x7b"
  let properties ← Parse.inside (Parse.listUntil g.fuel "\x7d" (property g))
  return .object ⟨start, (← get).behind.offset⟩ properties

def parenthesized (g : Grammar) : Parse Expr := do
  let start ← Parse.offset
  Parse.expectSign "("
  let inner ← Parse.inside (expression g)
  Parse.expectSign ")"
  return .paren start inner

/-- A construction behind its keyword: what is constructed takes the first arguments. -/
def construction (g : Grammar) (start : Nat) : Parse Expr := do
  if ← Parse.takeSign "." then
    let _ ← Parse.anyWord
    return .other start []
  else
    let callee ← g.leftHand false
    let inType ←
      if (← Parse.hasTypes) && (← Parse.isSign "<") then
        pure ((← Parse.attempt (typeArguments g)).getD [])
      else pure []
    let found ← if ← Parse.isSign "(" then arguments g else pure []
    return .other start ((callee :: found.map Argument.value ++ inType).map .expr)

def keywordExpression (g : Grammar) (start : Nat) (name : String) : Parse Expr := do
  match name with
  | "null" => return .literal start .null
  | "true" => return .literal start (.bool true)
  | "false" => return .literal start (.bool false)
  | "this" => return .other start []
  | "super" => return .other start []
  | "import" => do
      if (← Parse.isSign "(") || (← Parse.isSign ".") then return .other start []
      else Parse.fail
  | "new" => construction g start
  | "function" => do
      let (_, tail) ← namedFunction g false
      return .other start [tail]
  | "class" => do
      let (_, parts) ← namedClass g
      return .other start parts
  | _ => Parse.failAt start

def wordExpression (g : Grammar) (name : String) (escaped : Bool) : Parse Expr := do
  let s ← get
  let start := s.start.offset
  Parse.advance
  if name == "async" && !escaped && s.advance.isWord "function" && !s.advance.lineEnded then
    Parse.advance
    let (_, tail) ← namedFunction g false
    return .other start [tail]
  else if isReserved name && !escaped then keywordExpression g start name
  else return .ident start name

def primary (g : Grammar) : Parse Expr := do
  let s ← get
  let start := s.start.offset
  match s.token with
  | .word name escaped => wordExpression g name escaped
  | .number value => do
      Parse.advance
      return .literal start (.number value)
  | .text content => do
      Parse.advance
      return .literal start (.text content)
  | .bigInteger => do
      Parse.advance
      return .other start []
  | .privateName => do
      Parse.advance
      unless ← Parse.isWord "in" do Parse.failAt start
      return .other start []
  | .sign "(" => parenthesized g
  | .sign "[" => array g
  | .sign "\x7b" => object g
  | .sign "\x60" => template g false
  | .sign "/" => regularExpression
  | .sign "/=" => regularExpression
  | .sign "<" => if ← Parse.hasMarkup then g.markup else Parse.fail
  | _ => Parse.fail

/-! ### Members, calls and tags -/

def namedMember (object : Expr) : Parse Expr := do
  match (← get).token with
  | .privateName => do
      Parse.advance
      return .other object.start [.expr object]
  | _ => return .member object.start object (← Parse.anyWord)

def indexKey (g : Grammar) : Parse Expr := do
  Parse.expectSign "["
  let key ← Parse.inside (expression g)
  Parse.expectSign "]"
  return key

def optionalMember (g : Grammar) (object : Expr) : Parse Expr := do
  let s ← get
  if s.isSign "[" then
    let key ← indexKey g
    return .other object.start [.expr object, .expr key]
  else if s.isSign "(" then
    let found ← arguments g
    return .other object.start ((object :: found.map Argument.value).map .expr)
  else
    unless s.isAnyWord || (s.token matches .privateName) do Parse.fail
    Parse.advance
    return .other object.start [.expr object]

def endsArguments (s : State) : Bool :=
  match s.token with
  | .sign name => !(["<", ">", "+", "-", "[", "\x7b", "!", "~", "/", "++", "--"].contains name)
  | .finish => true
  | .word name _ => s.lineEnded || ["as", "satisfies", "in", "instanceof"].contains name
  | _ => s.lineEnded

/-- Types in angle brackets behind an expression: the callee of a call or a template, or an
expression of its own. -/
def typeInstance (g : Grammar) (withCalls : Bool) (object : Expr) : Parse Expr := do
  let inType ← typeArguments g
  let s ← get
  if s.isSign "(" && withCalls then
    let found ← arguments g
    return .call object.start object found inType
  else if s.isSign "\x60" then
    let text ← template g true
    return .other object.start (.expr object :: .expr text :: inType.map .expr)
  else if s.isSign "(" || !endsArguments s then Parse.fail
  else return .other object.start (.expr object :: inType.map .expr)

def subscript (g : Grammar) (withCalls : Bool) (object : Expr) : Parse (Option Expr) := do
  let s ← get
  match s.token with
  | .sign "." => do
      Parse.advance
      some <$> namedMember object
  | .sign "?." =>
      if withCalls then do
        Parse.advance
        some <$> optionalMember g object
      else Parse.fail
  | .sign "[" => return some (.index object.start object (← indexKey g))
  | .sign "(" =>
      if withCalls then return some (.call object.start object (← arguments g) [])
      else return none
  | .sign "\x60" => do
      let text ← template g true
      return some (.other object.start [.expr object, .expr text])
  | .sign "!" =>
      if (← Parse.hasTypes) && !s.lineEnded then do
        Parse.advance
        return some (.typed object.start object [])
      else return none
  | .sign "<" =>
      if ← Parse.hasTypes then Parse.attempt (typeInstance g withCalls object) else return none
  | _ => return none

def subscripts (g : Grammar) (withCalls : Bool) : Nat → Expr → Parse Expr
  | 0, _ => Parse.fail
  | fuel + 1, object => do
      match ← subscript g withCalls object with
      | some longer => subscripts g withCalls fuel longer
      | none => return object

def leftHandRule (g : Grammar) (withCalls : Bool) : Parse Expr := do
  let first ← primary g
  subscripts g withCalls g.fuel first

/-! ### Operators -/

def unaryOperator? : State → Option (Option UnaryOp)
  | ⟨_, _, .sign "-", _, _⟩ => some (some .minus)
  | ⟨_, _, .sign "+", _, _⟩ => some (some .plus)
  | ⟨_, _, .sign "!", _, _⟩ => some (some .not)
  | ⟨_, _, .sign "~", _, _⟩ => some none
  | ⟨_, _, .sign "++", _, _⟩ => some none
  | ⟨_, _, .sign "--", _, _⟩ => some none
  | ⟨_, _, .word "typeof" false, _, _⟩ => some (some .typeOf)
  | ⟨_, _, .word "void" false, _, _⟩ => some (some .void)
  | ⟨_, _, .word "delete" false, _, _⟩ => some none
  | ⟨_, _, .word "await" false, _, _⟩ => some none
  | _ => none

def typeAssertion (g : Grammar) : Parse Expr := do
  let start ← Parse.offset
  Parse.expectSign "<"
  let inType ← if ← Parse.takeWord "const" then pure [] else Parse.inside g.type
  Parse.expectSign ">"
  return .typed start (← g.unary) inType

/-- An operand with the operators around it that take only one. -/
def unaryRule (g : Grammar) : Parse Expr := do
  let s ← get
  let start := s.start.offset
  match unaryOperator? s with
  | some op? => do
      Parse.advance
      let operand ← g.unary
      match op? with
      | some op => return .unary start op operand
      | none => return .other start [.expr operand]
  | none => do
      if s.isSign "<" && !(← Parse.hasMarkup) then typeAssertion g
      else
        let operand ← leftHandRule g true
        let s ← get
        if (s.isSign "++" || s.isSign "--") && !s.lineEnded then
          Parse.advance
          return .other start [.expr operand]
        else return operand

/-- An operator between two operands: how strongly it binds, and what it folds to, if it can. -/
structure Operator where
  strength : Nat
  op : Option BinaryOp
  length : Nat

def signOperators : List (String × Nat × Option BinaryOp) :=
  [("??", 1, some .coalesce), ("||", 1, some .or), ("&&", 2, some .and), ("|", 3, none),
   ("^", 4, none), ("&", 5, none), ("==", 6, none), ("!=", 6, none), ("===", 6, some .same),
   ("!==", 6, some .different), ("+", 9, some .add), ("-", 9, some .subtract),
   ("*", 10, some .multiply), ("/", 10, some .divide), ("%", 10, some .remainder), ("**", 11, none)]

/-- The operators that begin with an angle bracket. An equals sign behind a shift makes it an
assignment. -/
def angleOperators : List (String × Option Nat) :=
  [(">>>=", none), (">>>", some 8), (">>=", none), (">>", some 8), (">=", some 7), (">", some 7),
   ("<<=", none), ("<<", some 8), ("<=", some 7), ("<", some 7)]

def angleOperator? (text : List Char) : Option (String × Option Nat) :=
  angleOperators.find? fun (name, _) => name.toList.isPrefixOf text

def operator? (allowIn : Bool) (s : State) : Option Operator :=
  match s.token with
  | .sign name =>
      if name == "<" || name == ">" then
        match angleOperator? s.start.rest with
        | some (name, some strength) => some ⟨strength, none, name.length⟩
        | _ => none
      else (signOperators.lookup name).map fun (strength, op) => ⟨strength, op, name.length⟩
  | .word "in" false => if allowIn then some ⟨7, none, 2⟩ else none
  | .word "instanceof" false => some ⟨7, none, 10⟩
  | _ => none

def Operator.join (op : Operator) (left right : Expr) : Expr :=
  match op.op with
  | some op => .binary left.start op left right
  | none => .other left.start [.expr left, .expr right]

def typedOperand (g : Grammar) (left : Expr) : Parse Expr := do
  Parse.advance
  if ← Parse.takeWord "const" then return .typed left.start left []
  else return .typed left.start left (← g.type)

def powerStrength : Nat := 11

def binaryFrom (g : Grammar) (least : Nat) : Nat → Expr → Parse Expr
  | 0, _ => Parse.fail
  | fuel + 1, left => do
      let s ← get
      if (← Parse.hasTypes) && (s.isWord "as" || s.isWord "satisfies") && !s.lineEnded && least < 7
      then binaryFrom g least fuel (← typedOperand g left)
      else
        match operator? (← read).allowIn s with
        | none => return left
        | some op =>
            if op.strength ≤ least then return left
            else
              Parse.moveTo (s.start.skip op.length)
              let right ←
                g.binary (if op.strength == powerStrength then op.strength - 1 else op.strength)
              binaryFrom g least fuel (op.join left right)

def binaryRule (g : Grammar) (least : Nat) : Parse Expr := do
  let first ← g.unary
  binaryFrom g least g.fuel first

def conditional (g : Grammar) : Parse Expr := do
  let test ← g.binary 0
  if ← Parse.takeSign "?" then
    let yes ←
      withReader (fun context => { context with allowIn := true, beforeColon := true }) g.assignment
    Parse.expectSign ":"
    return .conditional test.start test yes (← g.assignment)
  else return test

/-! ### Assignments and arrow functions -/

def assignmentSigns : List String :=
  ["=", "+=", "-=", "*=", "/=", "%=", "**=", "&=", "|=", "^=", "&&=", "||=", "??="]

def assignmentLength? (s : State) : Option Nat :=
  match s.token with
  | .sign name =>
      if assignmentSigns.contains name then some name.length
      else
        match angleOperator? s.start.rest with
        | some (name, none) => some name.length
        | _ => none
  | _ => none

def plainAssignment (g : Grammar) : Parse Expr := do
  let target ← conditional g
  let s ← get
  match assignmentLength? s with
  | some length => do
      Parse.moveTo (s.start.skip length)
      let value ← g.assignment
      return .other target.start [.expr target, .expr value]
  | none => return target

def yielded (g : Grammar) : Parse Expr := do
  let start ← Parse.offset
  Parse.advance
  let starred ← Parse.takeSign "*"
  let s ← get
  let isEmpty := s.lineEnded || s.isFinished ||
    [")", "]", "\x7d", ",", ";", ":"].any s.isSign || s.isWord "in" || s.isWord "of"
  if isEmpty && !starred then return .other start []
  else return .other start [.expr (← g.assignment)]

/-- An arrow function, if the token at hand is its only parameter. -/
def singleParameterArrow (g : Grammar) (start : Nat) : Parse (Option Expr) := do
  let s ← get
  if s.isName && s.advance.isSign "=>" && !s.advance.lineEnded then
    let name ← Parse.anyWord
    Parse.advance
    return some (← arrowTail g start ⟨[.name name []], [], false⟩)
  else return none

def asyncArrow (g : Grammar) : Parse (Option Expr) := do
  let s ← get
  let next := s.advance
  if s.isWord "async" && !next.lineEnded && (next.isName || next.isSign "(" || next.isSign "<") then
    Parse.advance
    let found ←
      if next.isName then singleParameterArrow g s.start.offset
      else arrowFunction g s.start.offset
    if found.isNone then set s
    return found
  else return none

def genericArrow (g : Grammar) : Parse Expr := do
  let start ← Parse.offset
  let head ← arrowHead g
  arrowTail g start head

def assignmentRule (g : Grammar) : Parse Expr := do
  let s ← get
  if s.isWord "yield" && (← read).inGenerator then yielded g
  else if s.isSign "<" && (← Parse.hasTypes) then
    if ← Parse.hasMarkup then Parse.orElse (plainAssignment g) (genericArrow g)
    else
      match ← arrowFunction g s.start.offset with
      | some found => return found
      | none => plainAssignment g
  else
    let found ←
      if s.isSign "(" then arrowFunction g s.start.offset
      else
        match ← asyncArrow g with
        | some found => pure (some found)
        | none => singleParameterArrow g s.start.offset
    match found with
    | some found => return found
    | none => plainAssignment g

end MessageCatalog.Script.Grammar
