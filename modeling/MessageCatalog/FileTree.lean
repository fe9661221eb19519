import MessageCatalog.Path

/-!
A whole tree of files, with a working directory somewhere in it. A path begins at the root if it is
absolute and else at the working directory, and is followed step by step: a step goes into a
directory, two dots lead out of it, and out of the root back to the root.
-/

namespace MessageCatalog

inductive Content where
  | text (content : String)
  | undecodable
  deriving DecidableEq, Repr, Inhabited

inductive Node where
  | directory
  | file (content : Content)
  deriving DecidableEq, Repr, Inhabited

inductive AccessError where
  | notFound
  | alreadyExists
  | notDirectory
  | isDirectory
  | undecodable
  | nameTooLong
  | notAPath
  deriving DecidableEq, Repr

def AccessError.message : AccessError → String
  | .notFound => "No such file or directory (os error 2)"
  | .alreadyExists => "File exists (os error 17)"
  | .notDirectory => "Not a directory (os error 20)"
  | .isDirectory => "Is a directory (os error 21)"
  | .undecodable => "stream did not contain valid UTF-8"
  | .nameTooLong => "File name too long (os error 36)"
  | .notAPath => "file name contained an unexpected NUL byte"

abbrev Place := List String

/-- Places are counted from the root. The working directory and those around it are directories in
any case; the nodes are what there is beside them, with the directories around each. -/
structure FileTree where
  working : Place
  nodes : List (Place × Node)
  deriving DecidableEq, Repr, Inhabited

namespace FileTree

/-- A working directory in which there is nothing. -/
def empty : FileTree :=
  ⟨["work"], []⟩

/-- All nodes but the root. -/
def entries (t : FileTree) : List (Place × Node) :=
  ((List.range t.working.length).map fun n => (t.working.take (n + 1), .directory)) ++ t.nodes

def node? (t : FileTree) (place : Place) : Option Node :=
  if place.isPrefixOf t.working then some .directory else t.nodes.lookup place

/-- Puts a node in a place, where it takes the place of one that is there. -/
def put (t : FileTree) (place : Place) (node : Node) : FileTree :=
  if (t.nodes.lookup place).isSome then
    { t with nodes := t.nodes.map fun entry => if entry.1 == place then (place, node) else entry }
  else { t with nodes := t.nodes ++ [(place, node)] }

def nameLimit : Nat := 255

def step (t : FileTree) (place : Place) (step : String) : Except AccessError Place :=
  match t.node? place with
  | some .directory =>
      if step.isEmpty || step == "." then .ok place
      else if step == ".." then .ok place.dropLast
      else if step.utf8ByteSize > nameLimit then .error .nameTooLong
      else
        match t.node? (place ++ [step]) with
        | some _ => .ok (place ++ [step])
        | none => .error .notFound
  | some (.file _) => .error .notDirectory
  | none => .error .notFound

/-- Where a path begins. The first step of an absolute path is empty. -/
def origin (t : FileTree) (path : String) : Place :=
  if Path.isAbsolute path then [] else t.working

/-- Follows a path. An empty path leads nowhere. -/
def locate (t : FileTree) (path : String) : Except AccessError Place :=
  if path.toList.contains '\x00' then .error .notAPath
  else if path.isEmpty then .error .notFound
  else (Path.steps path).foldlM t.step (t.origin path)

def find? (t : FileTree) (path : String) : Option Node :=
  match t.locate path with
  | .ok place => t.node? place
  | .error _ => none

def exists? (t : FileTree) (path : String) : Bool :=
  (t.find? path).isSome

def isDirectory (t : FileTree) (path : String) : Bool :=
  t.find? path == some .directory

def isFile (t : FileTree) (path : String) : Bool :=
  match t.find? path with
  | some (.file _) => true
  | _ => false

def readText (t : FileTree) (path : String) : Except AccessError String := do
  match t.node? (← t.locate path) with
  | some (.file (.text content)) => return content
  | some (.file .undecodable) => throw .undecodable
  | some .directory => throw .isDirectory
  | none => throw .notFound

def namesIn (t : FileTree) (place : Place) : List String :=
  t.entries.filterMap fun (found, _) =>
    if found.dropLast == place then found.getLast? else none

def waysBelow (t : FileTree) (place : Place) : List Place :=
  t.entries.filterMap fun (found, _) =>
    if place.isPrefixOf found && place.length < found.length then some (found.drop place.length)
    else none

/-! ### Writing -/

/-- The place that a path names for something new: its last step in an existing directory. -/
def newPlace (t : FileTree) (path : String) : Except AccessError Place := do
  match (Path.steps path).reverse.dropWhile String.isEmpty with
  | [] => throw .notFound
  | name :: before =>
      let place ← before.reverse.foldlM t.step (t.origin path)
      match t.node? place with
      | some .directory => return place ++ [name]
      | some (.file _) => throw .notDirectory
      | none => throw .notFound

def makeDirectory (t : FileTree) (path : String) : Except AccessError FileTree :=
  match t.locate path with
  | .ok _ => .error .alreadyExists
  | .error .notFound => (t.newPlace path).map fun place => t.put place .directory
  | .error e => .error e

/-- Makes a directory with all the directories around it. The fuel bounds their number. What is a
directory already is left alone. The tree comes back with what has been made before an error. -/
def makeDirectoriesWithin (t : FileTree) (path : String) : Nat → FileTree × Option AccessError
  | 0 => (t, some .notFound)
  | fuel + 1 =>
      if path.isEmpty then (t, none)
      else
        match t.makeDirectory path with
        | .ok made => (made, none)
        | .error .notFound =>
            match Path.parent? path with
            | none => (t, some .notFound)
            | some around =>
                match t.makeDirectoriesWithin around fuel with
                | (made, some e) => (made, some e)
                | (made, none) =>
                    match made.makeDirectory path with
                    | .ok all => (all, none)
                    | .error e => if made.isDirectory path then (made, none) else (made, some e)
        | .error e => if t.isDirectory path then (t, none) else (t, some e)

def makeDirectories (t : FileTree) (path : String) : FileTree × Option AccessError :=
  t.makeDirectoriesWithin path (path.length + 1)

/-- Writes a text to a file, which need not exist before. -/
def writeText (t : FileTree) (path content : String) : Except AccessError FileTree :=
  match t.locate path with
  | .ok place =>
      match t.node? place with
      | some (.file _) => .ok (t.put place (.file (.text content)))
      | _ => .error .isDirectory
  | .error .notFound =>
      if path.isEmpty then .error .notFound
      else if path.toList.getLast? == some '/' then .error .isDirectory
      else (t.newPlace path).map fun place => t.put place (.file (.text content))
  | .error e => .error e

/-- Puts a node at a path, with the directories around it. A path that leads through a file is left
out. -/
def addAt (t : FileTree) (path : String) (node : Node) : FileTree :=
  let around := (t.makeDirectories ((Path.parent? path).getD "")).1
  match around.newPlace path with
  | .ok place => around.put place node
  | .error _ => around

/-! ### Comparing -/

/-- The path of a place: from the working directory if it is in there, and else from the root. -/
def pathOf (t : FileTree) (place : Place) : String :=
  if t.working.isPrefixOf place then String.intercalate "/" (place.drop t.working.length)
  else "/" ++ String.intercalate "/" place

/-- The texts of the files that an earlier tree has not, or has with another content. -/
def changesSince (before after : FileTree) : List (String × String) :=
  after.nodes.filterMap fun (place, node) =>
    match node with
    | .file (.text content) =>
        if before.nodes.lookup place == some node then none
        else some (after.pathOf place, content)
    | _ => none

/-- The paths of the directories that an earlier tree has not. -/
def newDirectories (before after : FileTree) : List String :=
  after.nodes.filterMap fun (place, node) =>
    if node == .directory && (before.nodes.lookup place).isNone then
      some (after.pathOf place)
    else none

end FileTree

end MessageCatalog
