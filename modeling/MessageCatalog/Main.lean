import MessageCatalog.CommandLine.Run
import MessageCatalog.Tools

/-!
The command line. The paths of the files come on standard input, one on each line, from the root or
from the working directory; a path that names a directory may be among them. What a command writes
is written back to the same paths.
-/

namespace MessageCatalog.CommandLine

partial def readLines (input : IO.FS.Stream) : IO (List String) := do
  let line ← input.getLine
  if line.isEmpty then return []
  return (line.dropEndWhile (· == '\n')).toString :: (← readLines input)

/-- What is found at a path. What cannot be read as a file counts as a directory. -/
def readNode (path : String) : IO Node := do
  try
    let bytes ← IO.FS.readBinFile path
    match String.fromUTF8? bytes with
    | some content => return .file (.text content)
    | none => return .file .undecodable
  catch _ => return .directory

def readTree (paths : List String) : IO FileTree := do
  let working := (Path.steps (← IO.currentDir).toString).filter (!·.isEmpty)
  paths.foldlM (fun t path => do
    return t.addAt path (← readNode path)) { FileTree.empty with working }

def writeBack (before after : FileTree) : IO Unit := do
  for place in FileTree.newDirectories before after do
    IO.FS.createDirAll place
  for (path, content) in FileTree.changesSince before after do
    IO.FS.writeFile path content

def refusalText : Refusal → String
  | .unknownCommand => "unrecognized subcommand"
  | .unknownArgument => "unexpected argument"
  | .repeated => "an argument cannot be used multiple times"
  | .missingValue => "a value is required for an argument but none was supplied"
  | .needlessValue => "an argument takes no value"
  | .help => usage
  | .version => "0.1.0"

def runCommand (command : Command) : IO UInt32 := do
  let before ← readTree (← readLines (← IO.getStdin))
  match command.run before with
  | none =>
      -- The tools are called by the host that serves them.
      IO.println Tools.instructions
      return 0
  | some outcome =>
      writeBack before outcome.tree
      IO.print outcome.output
      IO.eprint outcome.notes
      return outcome.status.code.toUInt32

end MessageCatalog.CommandLine

def main (args : List String) : IO UInt32 := do
  match MessageCatalog.CommandLine.parse args with
  | .ok (some command) => MessageCatalog.CommandLine.runCommand command
  | .ok none =>
      IO.print MessageCatalog.CommandLine.usage
      return 0
  | .error .help =>
      IO.print MessageCatalog.CommandLine.usage
      return 0
  | .error .version =>
      IO.println (MessageCatalog.CommandLine.refusalText .version)
      return 0
  | .error refusal =>
      IO.eprintln ("error: " ++ MessageCatalog.CommandLine.refusalText refusal)
      return 2
