import MessageCatalog.Build
import MessageCatalog.Config.Search
import MessageCatalog.Issue.Basic
import MessageCatalog.Scan

/-!
Projects: a directory with its configuration and its sources, and the extraction of all of them.
The sources that can be read and parsed are extracted in the order of their paths, up to the first
that fails.
-/

namespace MessageCatalog

structure Project where
  config : Config
  root : String
  fromFile : Bool
  files : List String
  /-- The number of paths that could not be scanned. -/
  skipped : Nat
  deriving DecidableEq, Repr

namespace Project

inductive LoadError where
  | config (e : Config.LoadError)
  | overridden (root : String) (fault : Config.Fault)
  deriving DecidableEq, Repr

def LoadError.messages : LoadError → List String
  | .config e => e.messages
  | .overridden root fault => ("Invalid configuration for " ++ root) :: fault.messages

def ofLoaded (t : FileTree) (root : String) (overrides : Overrides) (loaded : Config.Loaded) :
    Except LoadError Project :=
  let config := overrides.apply loaded.config
  match config.fault? with
  | some fault => .error (.overridden root fault)
  | none =>
      let found := scan t root config.includes config.ignores config.ignoreTests
      .ok ⟨config, root, loaded.fromFile, found.files, found.skipped⟩

def load (t : FileTree) (root : String) (overrides : Overrides) : Except LoadError Project :=
  match Config.load t root with
  | .error e => .error (.config e)
  | .ok loaded => ofLoaded t root overrides loaded

/-! ### Extraction -/

/-- Reads and parses a source; what goes wrong is an issue of its file. -/
def readSource (t : FileTree) (file : String) : Except Issue Script.Source :=
  match t.readText file with
  | .error e => .error (.unparsed file ("Failed to read file: " ++ e.message))
  | .ok content =>
      match Script.Source.parse file content with
      | .error fault => .error (.unparsed file fault.message)
      | .ok source => .ok source

def issue? : Except Issue Script.Source → Option Issue
  | .error issue => some issue
  | .ok _ => none

def source? : Except Issue Script.Source → Option Script.Source
  | .error _ => none
  | .ok source => some source

def skippedIssues (o : Build.Product) : List Issue :=
  o.found.warnings.map (Issue.ofWarning (String.ofList o.source.text))

structure Run where
  products : List Build.Product
  /-- Files that are no sources, and what was skipped in those that are. -/
  issues : List Issue
  failure : Option Issue
  table : Table
  catalogPath : Option String

def Run.messageCount (r : Run) : Nat :=
  r.products.foldr (fun o count => o.found.messages.length + count) 0

def Run.allIssues (r : Run) : List Issue :=
  Issue.sorted (r.issues ++ r.failure.toList)

inductive Ending where
  | complete
  | failed (issue : Issue)
  | unwritten (e : Build.WriteError)

def extractSources (p : Build.Plan) (s : Build.State) :
    List Script.Source → Build.State × List Build.Product × Ending
  | [] => (s, [], .complete)
  | source :: rest =>
      match p.extractSource s source with
      | (next, .ok o) =>
          let (last, later, ending) := extractSources p next rest
          (last, o :: later, ending)
      | (next, .error (.failed failure)) =>
          (next, [], .failed (Issue.ofFailure (String.ofList source.text) failure))
      | (next, .error (.unwritten e)) => (next, [], .unwritten e)

def plan (p : Project) (mode : Build.Mode) : Build.Plan :=
  .ofConfig p.config p.root mode Message.canonicalize

/-- Extracts a project. All files are read before the first catalog is written. -/
def run (p : Project) (mode : Build.Mode) (t : FileTree) :
    FileTree × Except Build.WriteError Run :=
  let plan := p.plan mode
  let read := p.files.map (readSource t)
  let (state, products, ending) := extractSources plan (.start t) (read.filterMap source?)
  let finished (failure : Option Issue) : Run :=
    { products := products
      issues := read.filterMap issue? ++ products.flatMap skippedIssues
      failure := failure
      table := state.table
      catalogPath := plan.catalogPath }
  match ending with
  | .complete => (state.tree, .ok (finished none))
  | .failed issue => (state.tree, .ok (finished (some issue)))
  | .unwritten e => (state.tree, .error e)

end Project

end MessageCatalog
