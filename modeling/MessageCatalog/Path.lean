/-!
Paths as texts. Nothing is normalised when a path is made; the components of a path leave out
empty steps and single dots, but for a dot at its very start.
-/

namespace MessageCatalog

inductive PathComponent where
  | root
  | here
  | up
  | name (text : String)
  deriving DecidableEq, Repr

namespace Path

def steps (path : String) : List String :=
  (path.toList.splitOn '/').map String.ofList

def isAbsolute (path : String) : Bool :=
  path.toList.head? == some '/'

def ofStep (step : String) : Option PathComponent :=
  if step.isEmpty || step == "." then none
  else if step == ".." then some .up
  else some (.name step)

def components (path : String) : List PathComponent :=
  if isAbsolute path then .root :: (steps path).filterMap ofStep
  else
    match steps path with
    | "." :: rest => .here :: rest.filterMap ofStep
    | all => all.filterMap ofStep

/-- A path below a base; an absolute path stands for itself. -/
def join (base path : String) : String :=
  if isAbsolute path || base.isEmpty then path
  else if base.toList.getLast? == some '/' then base ++ path
  else base ++ "/" ++ path

def fileName? (path : String) : Option String :=
  match (components path).getLast? with
  | some (.name text) => some text
  | _ => none

/-- The text behind the last dot of a file name; a dot at the start of the name does not count. -/
def extension? (path : String) : Option String := do
  let name ← fileName? path
  match name.toList.reverse.span (· != '.') with
  | (_, []) => none
  | (_, ['.']) => none
  | (after, _) => some (String.ofList after.reverse)

/-- Drops the empty steps and the single dots at the end of the steps of a path. The first step
of a relative path stays when it is a dot. -/
def dropIdle (relative : Bool) (reversed : List String) : List String :=
  match reversed with
  | [] => []
  | [step] => if step.isEmpty || (step == "." && !relative) then [] else [step]
  | step :: rest => if step.isEmpty || step == "." then dropIdle relative rest else step :: rest

def parent? (path : String) : Option String :=
  let relative := !isAbsolute path
  let body := if relative then steps path else (steps path).drop 1
  match dropIdle relative body.reverse with
  | [] => none
  | _ :: before =>
      let kept := String.intercalate "/" (dropIdle relative before).reverse
      some (if relative then kept else "/" ++ kept)

def startsWith (path base : String) : Bool :=
  (components base).isPrefixOf (components path)

/-- The components behind those of a base, or all where the path is not below it. -/
def componentsBelow (base path : String) : List PathComponent :=
  if startsWith path base then (components path).drop (components base).length
  else components path

/-- Joins the names among components; what steps up or to a root is left out. -/
def ofNames (parts : List PathComponent) : String :=
  String.intercalate "/" (parts.filterMap fun part =>
    match part with
    | .name text => some text
    | _ => none)

end Path

end MessageCatalog
