import MessageCatalog.Script.Grammar.Basic

/-!
Rules for what declarations and parameters bind.
-/

namespace MessageCatalog.Script.Grammar

def annotation (g : Grammar) : Parse (List Expr) := do
  if (← Parse.hasTypes) && (← Parse.takeSign ":") then g.type else return []

def withDefault (g : Grammar) (target : Pattern) : Parse Pattern := do
  if ← Parse.takeSign "=" then return .withDefault target (← Parse.inside g.assignment)
  else return target

/-- An element of an array pattern; one that is left out binds nothing. -/
def arrayElement (g : Grammar) : Parse Pattern := do
  if ← Parse.isSign "," then return .group []
  else if ← Parse.takeSign "..." then g.pattern
  else withDefault g (← g.pattern)

def patternField (g : Grammar) : Parse Pattern := do
  if ← Parse.takeSign "..." then g.pattern
  else
    let s ← get
    let key ← key g
    if ← Parse.takeSign ":" then
      let target ← withDefault g (← g.pattern)
      return .group (key.exprs.map .expr ++ [target])
    else
      match key with
      | .name _ text => if s.isName then withDefault g (.name text []) else Parse.failAt s.fault
      | _ => Parse.fail

def patternRule (g : Grammar) : Parse Pattern := do
  if ← Parse.takeSign "[" then
    return .group (← Parse.inside (Parse.listUntil g.fuel "]" (arrayElement g)))
  else if ← Parse.takeSign "\x7b" then
    return .group (← Parse.inside (Parse.listUntil g.fuel "\x7d" (patternField g)))
  else return .name (← Parse.name) []

def addTypes (inType : List Expr) : Pattern → Pattern
  | .name text found => .name text (found ++ inType)
  | target => .group (target :: inType.map .expr)

def typedPattern (g : Grammar) (mark : String) (target : Pattern) : Parse Pattern := do
  if ← Parse.hasTypes then
    let _ ← Parse.takeSign mark
    return addTypes (← annotation g) target
  else return target

def parameterModifiers : List String :=
  ["public", "private", "protected", "readonly", "override"]

def parameterModifier : Parse (Option Unit) := do
  match (← get).token with
  | .word name _ =>
      let next ← Parse.following
      if parameterModifiers.contains name && (next.isName || next.isSign "\x7b" || next.isSign "[")
      then
        Parse.advance
        return some ()
      else return none
  | _ => return none

def parameter (g : Grammar) : Parse Pattern := do
  if ← Parse.hasTypes then
    let _ ← Parse.many g.fuel parameterModifier
  if ← Parse.takeSign "..." then
    return .group [← typedPattern g "?" (← g.pattern)]
  else if ← Parse.takeWord "this" then
    typedPattern g "?" (.name "this" [])
  else
    withDefault g (← typedPattern g "?" (← g.pattern))

def parameters (g : Grammar) : Parse (List Pattern) := do
  Parse.expectSign "("
  Parse.inside (Parse.listUntil g.fuel ")" (parameter g))

end MessageCatalog.Script.Grammar
