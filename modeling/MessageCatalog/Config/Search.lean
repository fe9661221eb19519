import MessageCatalog.Config.Json
import MessageCatalog.FileTree

/-!
Finding and loading the configuration of a project: the nearest file on the way from a directory
to the top of its path. A repository's directory ends the search.
-/

namespace MessageCatalog.Config

def standardName : String := ".intlxrc.json"

/-- Looks in a directory and those above it; the fuel bounds their number. -/
def findFileWithin (t : FileTree) (directory : String) : Nat → Option String
  | 0 => none
  | fuel + 1 =>
      let path := Path.join directory standardName
      if t.exists? path then some path
      else if t.exists? (Path.join directory ".git") then none
      else
        match Path.parent? directory with
        | some above => findFileWithin t above fuel
        | none => none

/-- Every step up leaves a shorter path, so the length of a path is fuel enough. -/
def findFile? (t : FileTree) (start : String) : Option String :=
  findFileWithin t start (start.length + 2)

structure Loaded where
  config : Config
  fromFile : Bool
  deriving DecidableEq, Repr

inductive LoadError where
  | unreadable (path : String) (e : AccessError)
  | unparsable (path : String)
  | invalid (fault : Fault)
  deriving DecidableEq, Repr

def LoadError.messages : LoadError → List String
  | .unreadable path e => ["Failed to read config file: " ++ Text.debug path, e.message]
  | .unparsable path => ["Failed to parse config file: " ++ Text.debug path]
  | .invalid fault => fault.messages

def load (t : FileTree) (start : String) : Except LoadError Loaded :=
  match findFile? t start with
  | none => .ok ⟨{}, false⟩
  | some path =>
      match t.readText path with
      | .error e => .error (.unreadable path e)
      | .ok content =>
          match parse? content with
          | none => .error (.unparsable path)
          | some config =>
              match config.fault? with
              | some fault => .error (.invalid fault)
              | none => .ok ⟨config, true⟩

end MessageCatalog.Config
