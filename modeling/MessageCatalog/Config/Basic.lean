import MessageCatalog.Extraction.Basic
import MessageCatalog.Glob.Pattern
import MessageCatalog.Path
import MessageCatalog.Text.Characters
import MessageCatalog.Text.Quoted

/-!
Configurations of a project: what is extracted, from which files, and where the catalog goes.
-/

namespace MessageCatalog

structure Config where
  source : String := "react-intl"
  /-- Where the catalog goes; without a directory none is written. -/
  messagesDir : Option String := none
  fileName : String := "messages"
  idSpace : Option String := none
  enforceDescriptions : Bool := false
  components : List String := ["FormattedMessage", "FormattedHTMLMessage"]
  plurals : List String := ["FormattedPlural"]
  functions : List String := ["defineMessages"]
  includes : List String := ["src"]
  ignores : List String := []
  ignoreTests : Bool := true
  deriving DecidableEq, Repr, Inhabited

namespace Config

def options (c : Config) : Extraction.Options :=
  ⟨c.source, c.components, c.plurals, c.functions, c.enforceDescriptions⟩

/-- An empty namespace is none. -/
def effectiveSpace (c : Config) : Option String :=
  c.idSpace.filter fun space => !space.isEmpty

def catalogExtension : String := ".properties"

def catalogFileName (c : Config) : String :=
  c.fileName ++ catalogExtension

def catalogDir (c : Config) (root : String) : Option String :=
  c.messagesDir.map (Path.join root)

def catalogPath (c : Config) (root : String) : Option String :=
  (c.catalogDir root).map fun dir => Path.join dir c.catalogFileName

/-! ### Validity -/

inductive Fault where
  | emptyFileName
  | emptySource
  | badIgnore (pattern : String) (e : Glob.PatternError)
  | badInclude (pattern : String) (e : Glob.PatternError)
  deriving DecidableEq, Repr

def Fault.messages : Fault → List String
  | .emptyFileName => ["'fileName' must not be empty"]
  | .emptySource => ["'moduleSourceName' must not be empty"]
  | .badIgnore pattern e =>
      ["Invalid glob pattern in 'ignores': \"" ++ pattern ++ "\"", e.display]
  | .badInclude pattern e =>
      ["Invalid glob pattern in 'includes': \"" ++ pattern ++ "\"", e.display]

def firstBadPattern? (patterns : List String) : Option (String × Glob.PatternError) :=
  patterns.findSome? fun pattern =>
    match Glob.Pattern.parse pattern with
    | .ok _ => none
    | .error e => some (pattern, e)

/-- What is wrong with a configuration. An include without wildcards is a path, and cannot be
wrong. -/
def fault? (c : Config) : Option Fault :=
  if Text.isEmptyOrBlank c.fileName then some .emptyFileName
  else if Text.isEmptyOrBlank c.source then some .emptySource
  else
    match firstBadPattern? c.ignores with
    | some (pattern, e) => some (.badIgnore pattern e)
    | none =>
        (firstBadPattern? (c.includes.filter Glob.isPattern)).map fun (pattern, e) =>
          .badInclude pattern e

end Config

/-! ### Overrides -/

structure Overrides where
  messagesDir : Option String := none
  fileName : Option String := none
  idSpace : Option String := none
  enforceDescriptions : Bool := false
  source : Option String := none
  deriving DecidableEq, Repr, Inhabited

def Overrides.apply (o : Overrides) (c : Config) : Config :=
  { c with
    messagesDir := o.messagesDir <|> c.messagesDir
    fileName := o.fileName.getD c.fileName
    idSpace := o.idSpace <|> c.idSpace
    enforceDescriptions := o.enforceDescriptions || c.enforceDescriptions
    source := o.source.getD c.source }

end MessageCatalog
