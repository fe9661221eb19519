import MessageCatalog.Script.Grammar.Expressions
import MessageCatalog.Script.Grammar.Statements
import MessageCatalog.Text.Lines

/-!
Rules for the items of a module, and the closing of the grammar. Each use of a rule by another
takes one from the fuel, so the fuel bounds how deeply rules nest; a few rules nest for each
character that is read.
-/

namespace MessageCatalog.Script.Grammar

/-! ### Imports -/

def exportedName : Parse String := do
  match (← get).token with
  | .text content => do
      Parse.advance
      return content
  | _ => Parse.anyWord

/-- Whether the word `type` at hand marks the name behind it, and is no name itself. -/
def marksType (s : State) : Bool :=
  let next := s.advance
  let behind := next.advance
  s.isWord "type" &&
    match next.token with
    | .text _ => true
    | .word _ _ =>
        if next.isWord "as" then
          !behind.isAnyWord || behind.isWord "as" && behind.advance.isAnyWord
        else true
    | _ => false

def importedName : Parse ImportedName := do
  let typeOnly := (← Parse.hasTypes) && marksType (← get)
  if typeOnly then Parse.advance
  let s ← get
  let imported ← exportedName
  if ← Parse.takeWord "as" then return ⟨← Parse.name, imported, typeOnly⟩
  else if s.isName then return ⟨imported, imported, typeOnly⟩
  else Parse.failAt s.fault

def importedNames (g : Grammar) : Parse (List ImportedName) := do
  Parse.expectSign "\x7b"
  Parse.listUntil g.fuel "\x7d" importedName

def wholeModule : Parse (List ImportedName) := do
  Parse.expectSign "*"
  Parse.expectWord "as"
  return [⟨← Parse.name, "*", false⟩]

def importClause (g : Grammar) : Parse (List ImportedName) := do
  if ← Parse.isSign "*" then wholeModule
  else if ← Parse.isSign "\x7b" then importedNames g
  else
    let first : ImportedName := ⟨← Parse.name, "default", false⟩
    if ← Parse.takeSign "," then
      if ← Parse.isSign "*" then return first :: (← wholeModule)
      else return first :: (← importedNames g)
    else return [first]

def moduleSource : Parse String := do
  match (← get).token with
  | .text content => do
      Parse.advance
      return content
  | _ => Parse.fail

def importAttributes (g : Grammar) : Parse Unit := do
  let s ← get
  if (← Parse.hasTypes) && (s.isWord "with" || (s.isWord "assert" && !s.lineEnded)) then
    Parse.advance
    let _ ← object g

def importsTypes (s : State) : Bool :=
  let next := s.advance
  s.isWord "type" &&
    (next.isSign "\x7b" || next.isSign "*" ||
      (next.isName && (!next.isWord "from" || next.advance.isWord "from" ||
        next.advance.isSign "=")))

def importDeclaration (g : Grammar) : Parse Item := do
  match (← get).token with
  | .text source => do
      Parse.advance
      importAttributes g
      Parse.semicolon
      return .imports ⟨source, false, []⟩
  | _ => do
      let typeOnly := (← Parse.hasTypes) && importsTypes (← get)
      if typeOnly then Parse.advance
      if (← Parse.hasTypes) && (← get).advance.isSign "=" then
        let _ ← Parse.name
        Parse.advance
        let _ ← g.leftHand true
        Parse.semicolon
        return .part (.group [])
      else
        let names ← importClause g
        Parse.expectWord "from"
        let source ← moduleSource
        importAttributes g
        Parse.semicolon
        return .imports ⟨source, typeOnly, names⟩

/-! ### Exports -/

def exportSpecifier : Parse Unit := do
  if (← Parse.hasTypes) && marksType (← get) then Parse.advance
  let _ ← exportedName
  if ← Parse.takeWord "as" then
    let _ ← exportedName

def exportSource (g : Grammar) : Parse Unit := do
  let _ ← moduleSource
  importAttributes g
  Parse.semicolon

def exportAll (g : Grammar) : Parse Part := do
  Parse.expectSign "*"
  if ← Parse.takeWord "as" then
    let _ ← exportedName
  Parse.expectWord "from"
  exportSource g
  return .group []

def exportNames (g : Grammar) : Parse Part := do
  Parse.expectSign "\x7b"
  let _ ← Parse.listUntil g.fuel "\x7d" exportSpecifier
  if ← Parse.takeWord "from" then exportSource g else Parse.semicolon
  return .group []

/-- A default export binds nothing, even if what is exported has a name. -/
def exportDefault (g : Grammar) : Parse Part := do
  let s ← get
  let next := s.advance
  if s.isWord "function" then
    Parse.advance
    return (← namedFunction g true).2
  else if s.isWord "async" && next.isWord "function" && !next.lineEnded then
    Parse.advance
    Parse.advance
    return (← namedFunction g true).2
  else if s.isWord "class" then
    Parse.advance
    return .group (← namedClass g).2
  else if (← Parse.hasTypes) && s.isWord "abstract" && next.isWord "class" then
    Parse.advance
    Parse.advance
    return .group (← namedClass g).2
  else if (← Parse.hasTypes) && s.isWord "interface" && next.isName && !next.lineEnded then
    Parse.advance
    interface g
  else
    let value ← g.assignment
    Parse.semicolon
    return .expr value

def exportedDeclaration (g : Grammar) : Parse Part := do
  let s ← get
  let next := s.advance
  if declaresVariables s || s.isWord "function" || s.isWord "class" ||
      (s.isWord "async" && next.isWord "function") then g.statement
  else
    match ← typeDeclaration? g with
    | some found => return found
    | none => Parse.fail

def exportDeclaration (g : Grammar) : Parse Item := do
  let s ← get
  let next := s.advance
  let types ← Parse.hasTypes
  if s.isSign "*" then return .part (← exportAll g)
  else if s.isSign "\x7b" then return .part (← exportNames g)
  else if s.isWord "default" then
    Parse.advance
    return .part (← exportDefault g)
  else if types && s.isWord "type" && (next.isSign "\x7b" || next.isSign "*") then
    Parse.advance
    return .part (← if next.isSign "*" then exportAll g else exportNames g)
  else if types && s.isSign "=" then
    Parse.advance
    let value ← expression g
    Parse.semicolon
    return .part (.expr value)
  else if types && s.isWord "as" && next.isWord "namespace" then
    Parse.advance
    Parse.advance
    let _ ← Parse.name
    Parse.semicolon
    return .part (.group [])
  else if types && s.isWord "import" then
    Parse.advance
    importDeclaration g
  else return .part (← exportedDeclaration g)

def itemRule (g : Grammar) : Parse Item := do
  let s ← get
  let next := s.advance
  if s.isWord "import" && !next.isSign "(" && !next.isSign "." then
    Parse.advance
    importDeclaration g
  else if s.isWord "export" then
    Parse.advance
    exportDeclaration g
  else return .part (← g.statement)

def withFuel : Nat → Grammar
  | 0 =>
      { fuel := 0, assignment := Parse.fail, binary := fun _ => Parse.fail, unary := Parse.fail,
        leftHand := fun _ => Parse.fail, markup := Parse.fail, pattern := Parse.fail,
        type := Parse.fail, statement := Parse.fail, item := Parse.fail }
  | fuel + 1 =>
      { fuel := fuel
        assignment := fun context s => assignmentRule (withFuel fuel) context s
        binary := fun least context s => binaryRule (withFuel fuel) least context s
        unary := fun context s => unaryRule (withFuel fuel) context s
        leftHand := fun withCalls context s => leftHandRule (withFuel fuel) withCalls context s
        markup := fun context s => markupRule (withFuel fuel) context s
        pattern := fun context s => patternRule (withFuel fuel) context s
        type := fun context s => typeRule (withFuel fuel) context s
        statement := fun context s => statementRule (withFuel fuel) context s
        item := fun context s => itemRule (withFuel fuel) context s }

def moduleRule (g : Grammar) : Parse Module := do
  let items ← Parse.many g.fuel do
    if (← get).isFinished then return none else return some (← g.item)
  return ⟨items⟩

end Grammar

open Grammar

/-- Enough for the nesting of rules in a text. -/
def Grammar.fuelFor (text : List Char) : Nat :=
  16 * text.length + 64

/-- A first line that names an interpreter is no part of a script. -/
def skipInterpreter (text : List Char) : Cursor :=
  match text with
  | '#' :: '!' :: _ =>
      let line := text.takeWhile fun c => !isLineEnd c
      ⟨Text.byteLength line, text.drop line.length⟩
  | _ => ⟨0, text⟩

/-- Reads what a rule reads at the start of a text. The error is the byte offset of the first
token that cannot continue. -/
def Grammar.run {α : Type} (rule : Grammar → Parse α) (dialect : Dialect) (text : List Char) :
    Except Nat α :=
  (rule (withFuel (fuelFor text)) { dialect := dialect }
    (State.ofCursor (skipInterpreter text))).map
    Prod.fst

def Module.parse (dialect : Dialect) (text : List Char) : Except Nat Module :=
  Grammar.run moduleRule dialect text

end MessageCatalog.Script
