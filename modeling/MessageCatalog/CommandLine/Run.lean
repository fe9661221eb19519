import MessageCatalog.CommandLine.Extract
import MessageCatalog.Config.Search
import MessageCatalog.Issue.Report

/-!
Running a command line on a tree of files. The command that starts a project writes the default
configuration where there is none.
-/

namespace MessageCatalog.CommandLine

inductive InitError where
  | alreadyExists
  | unwritten (e : AccessError)
  deriving DecidableEq, Repr

def InitError.message : InitError → String
  | .alreadyExists => Config.standardName ++ " already exists"
  | .unwritten e => e.message

def init (t : FileTree) (directory : String) : Except InitError FileTree :=
  let path := Path.join directory Config.standardName
  if t.exists? path then .error .alreadyExists
  else (t.writeText path Config.defaultText).mapError .unwritten

def runInit (t : FileTree) : Outcome :=
  match init t "." with
  | .error e => .broken t "" [e.message]
  | .ok tree =>
      ⟨.success, Report.ofLines [Report.success false ("Created " ++ Config.standardName)], "",
        tree⟩

/-- What is printed where no command is asked for. -/
def usage : String :=
  "Usage: [COMMAND]\n\n" ++
    "Commands:\n" ++
    "  extract  Extract message descriptors from sources and write the catalog\n" ++
    "  init     Initialize a new " ++ Config.standardName ++ " configuration file\n" ++
    "  serve    Start a server with tools for agents\n" ++
    "  help     Print this message\n"

/-- The outcome of a command. A server is not run to an end, so it has none here. -/
def Command.run (t : FileTree) : Command → Option Outcome
  | .extract arguments => some (runExtract arguments t)
  | .init => some (runInit t)
  | .serve => none

end MessageCatalog.CommandLine
