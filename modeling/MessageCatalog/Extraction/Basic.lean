import MessageCatalog.Descriptor.Store
import MessageCatalog.Edit
import MessageCatalog.Message.Validator
import MessageCatalog.Script.Fold
import MessageCatalog.Script.Imports
import MessageCatalog.Script.Source

/-!
What extraction looks for, what it looks into, and what it has found so far. The first failure
ends a walk: once it is set, nothing else changes but for the scopes that close.
-/

namespace MessageCatalog.Extraction

structure Options where
  source : String
  components : List String
  /-- Components whose messages are not extracted. -/
  plurals : List String
  functions : List String
  enforceDescriptions : Bool
  deriving DecidableEq, Repr

/-- A component was used whose messages are not extracted. -/
structure Warning where
  component : String
  location : Location
  deriving DecidableEq, Repr

def Warning.message (w : Warning) : String :=
  "Default messages are not extracted from <" ++ w.component ++
    ">, use <FormattedMessage> instead."

structure Setting where
  options : Options
  validate : Message.Validator
  source : Script.Source
  imports : Script.ImportTable
  constants : Script.Constants

def Setting.ofSource (options : Options) (validate : Message.Validator) (source : Script.Source) :
    Setting :=
  ⟨options, validate, source, .ofModule source.module, .ofModule source.module⟩

/-- What a walk has come to. -/
structure Progress where
  scopes : Script.Scopes
  store : Descriptor.Store
  warnings : List Warning
  edits : List Edit
  failure : Option Descriptor.Failure

namespace Progress

def start (options : Options) : Progress :=
  ⟨.empty, .empty options.enforceDescriptions, [], [], none⟩

def hasFailed (p : Progress) : Bool :=
  p.failure.isSome

def fail (p : Progress) (failure : Descriptor.Failure) : Progress :=
  { p with failure := some failure }

def warn (p : Progress) (warning : Warning) : Progress :=
  { p with warnings := p.warnings ++ [warning] }

def edit (p : Progress) (edits : List Edit) : Progress :=
  { p with edits := p.edits ++ edits }

def commit (p : Progress) (draft : Descriptor.Draft) (location : Location)
    (edits : List Edit) : Progress :=
  match p.store.commit draft location with
  | .ok store => { p with store := store }.edit edits
  | .error failure => p.fail failure

end Progress

def Setting.fold (t : Setting) (p : Progress) (e : Script.Expr) : Option Script.Value :=
  e.fold t.constants p.scopes

def Setting.findName? (t : Setting) (names : List String) (refers : Script.Origin → Bool) :
    Option String :=
  names.find? fun name => refers ⟨t.options.source, name⟩

end MessageCatalog.Extraction
