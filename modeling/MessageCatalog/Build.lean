import MessageCatalog.Config.Basic
import MessageCatalog.Extraction.Run
import MessageCatalog.FileTree
import MessageCatalog.Table

/-!
Builds. A build extracts sources one after another and keeps one table of all their messages; a
build that writes brings the catalog up to date after each source. Nothing of a source that fails
goes into the table.
-/

namespace MessageCatalog

namespace Build

inductive Mode where
  | write
  | preview
  deriving DecidableEq, Repr

structure Plan where
  options : Extraction.Options
  validate : Message.Validator
  space : Option String
  directory : Option String
  fileName : String
  mode : Mode

def Plan.ofConfig (c : Config) (root : String) (mode : Mode) (validate : Message.Validator) :
    Plan :=
  ⟨c.options, validate, c.effectiveSpace, c.catalogDir root, c.catalogFileName, mode⟩

def Plan.catalogPath (p : Plan) : Option String :=
  p.directory.map fun directory => Path.join directory p.fileName

structure State where
  table : Table
  tree : FileTree

def State.start (tree : FileTree) : State :=
  ⟨.empty, tree⟩

/-- Forgets all messages; the files stay. -/
def State.reset (s : State) : State :=
  { s with table := .empty }

inductive WriteError where
  | directory (path : String) (e : AccessError)
  | file (path : String) (e : AccessError)
  deriving DecidableEq, Repr

def WriteError.messages : WriteError → List String
  | .directory path e => ["Failed to create messages directory: " ++ Text.debug path, e.message]
  | .file path e => ["Failed to write catalog: " ++ Text.debug path, e.message]

def writeCatalog (t : FileTree) (directory fileName content : String) :
    FileTree × Option WriteError :=
  match t.makeDirectories directory with
  | (made, some e) => (made, some (.directory directory e))
  | (made, none) =>
      let path := Path.join directory fileName
      match made.writeText path content with
      | .ok written => (written, none)
      | .error e => (made, some (.file path e))

/-- Takes up the messages of a source. A source without messages changes nothing, and neither does
any source in a build that would write but has no place to write to. -/
def Plan.takeUp (p : Plan) (s : State) (messages : List Descriptor) : State × Option WriteError :=
  if messages.isEmpty then (s, none)
  else
    let merged := s.table.merge messages p.space
    match p.mode, p.directory with
    | .preview, _ => ({ s with table := merged }, none)
    | .write, none => (s, none)
    | .write, some directory =>
        let (tree, failure) := writeCatalog s.tree directory p.fileName merged.render
        (⟨merged, tree⟩, failure)

structure Product where
  source : Script.Source
  found : Extraction.Extracted

def Product.edited (o : Product) : String :=
  Edit.apply (String.ofList o.source.text) o.found.edits

inductive SourceError where
  | failed (failure : Descriptor.Failure)
  | unwritten (e : WriteError)
  deriving DecidableEq, Repr

inductive TextError where
  | unparsed (fault : Script.SyntaxFault)
  | ofSource (e : SourceError)
  deriving DecidableEq, Repr

def Plan.extractSource (p : Plan) (s : State) (source : Script.Source) :
    State × Except SourceError Product :=
  match Extraction.extract p.options p.validate source with
  | .error failure => (s, .error (.failed failure))
  | .ok found =>
      match p.takeUp s found.messages with
      | (next, some e) => (next, .error (.unwritten e))
      | (next, none) => (next, .ok ⟨source, found⟩)

def Plan.extractText (p : Plan) (s : State) (file content : String) :
    State × Except TextError Product :=
  match Script.Source.parse file content with
  | .error fault => (s, .error (.unparsed fault))
  | .ok source =>
      let (next, result) := p.extractSource s source
      (next, result.mapError .ofSource)

end Build

end MessageCatalog
