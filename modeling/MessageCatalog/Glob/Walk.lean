import MessageCatalog.FileTree
import MessageCatalog.Glob.Pattern

/-!
The paths that a pattern stands for in a tree of files. Each step of the pattern is matched with
one name, but for two stars, which stand for any number of directories.
-/

namespace MessageCatalog.Glob

def literal? (pattern : Pattern) : Option String :=
  (pattern.mapM Token.char?).map String.ofList

def isRecursive (pattern : Pattern) : Bool :=
  pattern.contains .anySteps

/-- A path below another; what is below the working directory is named without it. -/
def below (path name : String) : String :=
  if path == "." then name else Path.join path name

def namesAt (t : FileTree) (path : String) : List String :=
  match t.locate path with
  | .ok place => t.namesIn place
  | .error _ => []

def isIdle (step : String) : Bool :=
  step == "." || step == ".."

def canStep (t : FileTree) (path step next : String) : Bool :=
  if isIdle step then t.isDirectory path else t.exists? next

def idleSteps (pattern : Pattern) : List String :=
  if pattern.head? == some (.exactly '.') then
    [".", ".."].filter fun step => pattern.matches step.toList
  else []

mutual

/-- The paths below a directory that some steps lead to. The fuel bounds the steps taken. -/
def pathsBelow (t : FileTree) : Nat → List Pattern → String → List String
  | 0, _, _ => []
  | _ + 1, [], _ => []
  | fuel + 1, step :: rest, path =>
      match literal? step with
      | some name =>
          let next := below path name
          if canStep t path name next then pathsFrom t fuel rest next else []
      | none =>
          if t.isDirectory path then
            (namesAt t path).flatMap (fun name => pathsAt t fuel (step :: rest) (below path name)) ++
              (idleSteps step).flatMap (fun name => pathsFrom t fuel rest (Path.join path name))
          else []

def pathsFrom (t : FileTree) : Nat → List Pattern → String → List String
  | 0, _, _ => []
  | _ + 1, [], path => [path]
  | fuel + 1, rest, path => pathsBelow t fuel rest path

def pathsAt (t : FileTree) : Nat → List Pattern → String → List String
  | 0, _, _ => []
  | _ + 1, [], _ => []
  | fuel + 1, step :: rest, path =>
      if isRecursive step then
        let later := rest.dropWhile isRecursive
        if t.isDirectory path then
          let inside := pathsBelow t fuel (step :: later) path
          if later.isEmpty then path :: inside else inside ++ pathsNamed t fuel later path
        else pathsNamed t fuel later path
      else pathsNamed t fuel (step :: rest) path

def pathsNamed (t : FileTree) : Nat → List Pattern → String → List String
  | 0, _, _ => []
  | _ + 1, [], _ => []
  | fuel + 1, step :: rest, path =>
      match Path.fileName? path with
      | some name => if step.matches name.toList then pathsFrom t fuel rest path else []
      | none => []

end

/-- The directory that the steps of a pattern are taken from. -/
def startOf (pattern : String) : String :=
  if Path.isAbsolute pattern then "/" else "."

/-- The steps of a pattern behind its start; a slash at its end adds none. -/
def stepsOf (pattern : String) : List String :=
  let steps := Path.steps pattern
  match (if Path.isAbsolute pattern then steps.drop 1 else steps).reverse with
  | "" :: before => before.reverse
  | all => all.reverse

/-- Enough for every way through a tree. -/
def fuelFor (t : FileTree) (steps : List Pattern) : Nat :=
  4 * (t.entries.length + steps.length + 2)

def expand (t : FileTree) (pattern : String) : Except PatternError (List String) := do
  let _ ← Pattern.parse pattern
  let steps ← (stepsOf pattern).mapM Pattern.parse
  return pathsBelow t (fuelFor t steps) steps (startOf pattern)

end MessageCatalog.Glob
