import MessageCatalog.CommandLine.Arguments
import MessageCatalog.Issue.Report
import MessageCatalog.Project

/-!
The command that extracts a project: it writes the catalog and, where it is told to, the sources
with their messages edited, and reports what it has found. What a command leaves behind is its
status, what it prints, and the files.
-/

namespace MessageCatalog.CommandLine

inductive Status where
  /-- There are no errors; there may be warnings. -/
  | success
  | failure
  | broken
  deriving DecidableEq, Repr

def Status.code : Status → Nat
  | .success => 0
  | .failure => 1
  | .broken => 2

structure Outcome where
  status : Status
  output : String
  notes : String
  tree : FileTree
  deriving DecidableEq, Repr

def Outcome.broken (tree : FileTree) (notes : String) (messages : List String) : Outcome :=
  ⟨.broken, "", notes ++ "Error: " ++ String.intercalate ": " messages ++ "\n", tree⟩

/-! ### Edited sources -/

inductive OutputError where
  | directory (path : String) (e : AccessError)
  | file (path : String) (e : AccessError)
  deriving DecidableEq, Repr

def OutputError.messages : OutputError → List String
  | .directory path e => ["Failed to create directory: " ++ Text.debug path, e.message]
  | .file path e => ["Failed to write file: " ++ Text.debug path, e.message]

/-- Where a source goes in an output directory: to the same place as below the root of the project.
No path leads out of the output directory. -/
def targetOf (outDir root file : String) : String :=
  Path.join outDir (Path.ofNames (Path.componentsBelow root file))

def writeEdited (outDir root : String) (t : FileTree) (o : Build.Product) :
    FileTree × Option OutputError :=
  let target := targetOf outDir root o.source.file
  let around := (Path.parent? target).getD ""
  match t.makeDirectories around with
  | (made, some e) => (made, some (.directory around e))
  | (made, none) =>
      match made.writeText target o.edited with
      | .ok written => (written, none)
      | .error e => (made, some (.file target e))

def writeAll (outDir root : String) (t : FileTree) :
    List Build.Product → FileTree × Option OutputError
  | [] => (t, none)
  | first :: rest =>
      match writeEdited outDir root t first with
      | (next, some e) => (next, some e)
      | (next, none) => writeAll outDir root next rest

/-! ### Messages as JSON -/

def descriptorJson (d : Descriptor) : Json.Value :=
  .object ([("id", Json.Value.text d.id)] ++
    (d.description.map fun text => ("description", Json.Value.text text)).toList ++
    [("defaultMessage", .text d.defaultMessage)])

def productJson (o : Build.Product) : Json.Value :=
  .object [("filePath", .text o.source.file),
    ("messages", .array (o.found.messages.map descriptorJson))]

def messagesJson (products : List Build.Product) : Json.Value :=
  .array ((products.filter fun o => !o.found.messages.isEmpty).map productJson)

/-! ### The command -/

/-- What is told about a configuration that comes from no file. -/
def defaultsNote (verbose fromFile : Bool) : String :=
  if verbose && !fromFile then
    "Note: No " ++ Config.standardName ++ " found, using default configuration\n"
  else ""

def skippedNote (verbose : Bool) (skipped : Nat) : String :=
  if skipped == 0 then ""
  else
    "Warning: " ++ toString skipped ++ " path(s) skipped due to access errors" ++
      (if verbose then "" else " (use -v for details)") ++ "\n"

def catalogOf (t : FileTree) (run : Project.Run) : Option (String × Nat) :=
  (run.catalogPath.filter t.exists?).map fun path => (path, run.table.size)

def summaryOf (t : FileTree) (project : Project) (run : Project.Run) (edited : Nat) :
    Report.Summary :=
  ⟨run.messageCount, project.files.length, catalogOf t run, edited⟩

def statusOf (issues : List Issue) : Status :=
  if Issue.errorCount issues > 0 then .failure else .success

def conclude (a : ExtractArguments) (notes : String) (t : FileTree) (project : Project)
    (run : Project.Run) (edited : Nat) : Outcome :=
  let issues := run.allIssues
  let report := Report.text false issues
  let warning := Report.unparsedWarning false (Issue.unparsedCount issues) a.verbose
  let summary :=
    if run.failure.isSome then "" else (summaryOf t project run edited).text false
  if a.json then
    ⟨statusOf issues, (messagesJson run.products).pretty ++ "\n", notes ++ report ++ warning, t⟩
  else ⟨statusOf issues, report ++ summary, notes ++ warning, t⟩

def extractProject (a : ExtractArguments) (notes : String) (t : FileTree) (project : Project) :
    Outcome :=
  match project.run .write t with
  | (tree, .error e) => .broken tree notes e.messages
  | (tree, .ok run) =>
      match a.outDir with
      | none => conclude a notes tree project run 0
      | some outDir =>
          match writeAll outDir project.root tree run.products with
          | (last, some e) => .broken last notes e.messages
          | (last, none) => conclude a notes last project run run.products.length

def runExtract (a : ExtractArguments) (t : FileTree) : Outcome :=
  match Config.load t a.root with
  | .error e => .broken t "" e.messages
  | .ok loaded =>
      let note := defaultsNote a.verbose loaded.fromFile
      match Project.ofLoaded t a.root a.overrides loaded with
      | .error e => .broken t note e.messages
      | .ok project => extractProject a (note ++ skippedNote a.verbose project.skipped) t project

end MessageCatalog.CommandLine
