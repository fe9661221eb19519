import MessageCatalog.Extraction.Call
import MessageCatalog.Extraction.Component
import MessageCatalog.Extraction.Step

/-!
The walk over a module. Steps are taken in order until the first failure; scopes that are open
then still close, and nothing else happens.
-/

namespace MessageCatalog.Extraction

mutual

def Step.run (t : Setting) (p : Progress) : Step → Progress
  | .declare names =>
      if p.hasFailed then p else { p with scopes := p.scopes.declareNames names }
  | .constant name init =>
      if p.hasFailed then p else { p with scopes := p.scopes.declareConst name init }
  | .scope names inner =>
      if p.hasFailed then p
      else
        let opened := { p with scopes := p.scopes.enter.declareNames names }
        let after := runSteps t opened inner
        { after with scopes := after.scopes.exit }
  | .element start tag attributes =>
      if p.hasFailed then p else extractElement t p start tag attributes
  | .call start callee arguments inCallee inFirst inLater inType =>
      if p.hasFailed then p
      else
        match calledFunction? t p callee with
        | some name =>
            let after := extractCall t p start callee name arguments
            runSteps t (runSteps t after inCallee) inLater
        | none =>
            let after := runSteps t (runSteps t p inCallee) inFirst
            runSteps t (runSteps t after inLater) inType

def runSteps (t : Setting) (p : Progress) : List Step → Progress
  | [] => p
  | first :: rest => runSteps t (first.run t p) rest

end

structure Extracted where
  messages : List Descriptor
  warnings : List Warning
  edits : List Edit
  deriving DecidableEq, Repr

def walk (options : Options) (validate : Message.Validator) (source : Script.Source) : Progress :=
  runSteps (.ofSource options validate source) (.start options) (ofModule source.module)

def Progress.extracted (p : Progress) : Extracted :=
  ⟨p.store.entries, p.warnings, p.edits⟩

def extract (options : Options) (validate : Message.Validator) (source : Script.Source) :
    Except Descriptor.Failure Extracted :=
  let p := walk options validate source
  match p.failure with
  | some failure => .error failure
  | none => .ok p.extracted

end MessageCatalog.Extraction
