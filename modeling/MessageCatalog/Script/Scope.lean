import MessageCatalog.Script.Syntax

/-!
Local scopes. Names at the top of a module have tables of their own; here stand only the names
that are declared inside functions and blocks, which hide those of the module while their scope
is open. A local constant keeps its initializer, so that it can still fold.
-/

namespace MessageCatalog.Script

mutual

def Pattern.names : Pattern → List String
  | .name text _ => [text]
  | .withDefault target _ => target.names
  | .group parts => Pattern.namesOfAll parts
  | .expr _ => []

def Pattern.namesOfAll : List Pattern → List String
  | [] => []
  | first :: rest => first.names ++ Pattern.namesOfAll rest

end

/-- The declarations of one scope, the last one first. A constant comes with its initializer. -/
abbrev Scope := List (String × Option Expr)

/-- The open scopes, the innermost first. -/
structure Scopes where
  opened : List Scope

namespace Scopes

def empty : Scopes :=
  ⟨[]⟩

def enter (s : Scopes) : Scopes :=
  ⟨[] :: s.opened⟩

def exit (s : Scopes) : Scopes :=
  ⟨s.opened.tail⟩

def depth (s : Scopes) : Nat :=
  s.opened.length

/-- Adds a declaration to the innermost scope; where no scope is open there is nothing to add. -/
def add (s : Scopes) (name : String) (init : Option Expr) : Scopes :=
  match s.opened with
  | [] => s
  | innermost :: outer => ⟨((name, init) :: innermost) :: outer⟩

def declare (s : Scopes) (name : String) : Scopes :=
  s.add name none

def declareConst (s : Scopes) (name : String) (init : Expr) : Scopes :=
  s.add name (some init)

def declareNames (s : Scopes) (names : List String) : Scopes :=
  names.foldl declare s

def declarePattern (s : Scopes) (pattern : Pattern) : Scopes :=
  s.declareNames pattern.names

def find? (s : Scopes) (name : String) : Option (Option Expr) :=
  s.opened.findSome? fun scope => scope.lookup name

def isShadowed (s : Scopes) (name : String) : Bool :=
  s.opened.any fun scope => (scope.lookup name).isSome

def constInit? (s : Scopes) (name : String) : Option Expr :=
  (s.find? name).join

end Scopes

end MessageCatalog.Script
