import MessageCatalog.Glob.Walk

/-!
The source files of a project. Includes name directories, files or patterns of directories;
ignores are paths, or patterns that match a whole path as it is listed.
-/

namespace MessageCatalog

namespace Scan

def testPatterns : List String :=
  ["**/*.test.tsx", "**/*.test.ts", "**/*.test.jsx", "**/*.test.js", "**/*.spec.tsx",
   "**/*.spec.ts", "**/*.spec.jsx", "**/*.spec.js", "**/__tests__/**"]

def extensions : List String :=
  ["tsx", "ts", "jsx", "js", "mjs", "cjs"]

def isScannable (path : String) : Bool :=
  !((Path.fileName? path).any fun name => name.endsWith ".d.ts") &&
    (Path.extension? path).any extensions.contains

structure Ignores where
  paths : List String
  patterns : List Glob.Pattern

/-- A pattern that cannot be read ignores nothing. -/
def readable (patterns : List String) : List Glob.Pattern :=
  patterns.filterMap fun pattern => (Glob.Pattern.parse pattern).toOption

def Ignores.ofList (base : String) (ignores : List String) (ignoreTests : Bool) : Ignores :=
  { paths := (ignores.filter fun ignore => !Glob.isPattern ignore).map (Path.join base)
    patterns :=
      readable (ignores.filter Glob.isPattern) ++
        if ignoreTests then readable testPatterns else [] }

def Ignores.covers (i : Ignores) (path : String) : Bool :=
  i.paths.any (Path.startsWith path) || i.patterns.any fun pattern => pattern.matches path.toList

def startsOf (t : FileTree) (base entry : String) : List String :=
  let path := Path.join base entry
  if Glob.isPattern entry then
    match Glob.expand t path with
    | .ok found => found.filter t.isDirectory
    | .error _ => []
  else if t.exists? path then [path]
  else []

def starts (t : FileTree) (base : String) (includes : List String) : List String :=
  if includes.isEmpty then [base] else includes.flatMap (startsOf t base)

/-- The paths at and below a start; there are none if the start does not exist. -/
def listed (t : FileTree) (start : String) : Option (List String) :=
  match t.locate start with
  | .ok place => some (start :: (t.waysBelow place).map fun way => way.foldl Path.join start)
  | .error _ => none

def isListed (t : FileTree) (ignores : Ignores) (path : String) : Bool :=
  !ignores.covers path && t.isFile path && isScannable path

def insertPath (path : String) : List String → List String
  | [] => [path]
  | first :: rest =>
      if path == first then first :: rest
      else if path < first then path :: first :: rest
      else first :: insertPath path rest

end Scan

/-- The files of a scan in order, each once, and the number of starts that could not be read. -/
structure Scan where
  files : List String
  skipped : Nat
  deriving DecidableEq, Repr

def scan (t : FileTree) (base : String) (includes ignores : List String) (ignoreTests : Bool) :
    Scan :=
  let starts := Scan.starts t base includes
  let covered := Scan.Ignores.ofList base ignores ignoreTests
  let found := starts.flatMap fun start => (Scan.listed t start).getD []
  { files := (found.filter (Scan.isListed t covered)).foldl (fun files path =>
      Scan.insertPath path files) []
    skipped := (starts.filter fun start => (Scan.listed t start).isNone).length }

end MessageCatalog
