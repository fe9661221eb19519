import MessageCatalog.Descriptor.Builder
import MessageCatalog.Extraction.Basic

/-!
Messages in the arguments of calls: an object of descriptors, each of which is an object itself.
-/

namespace MessageCatalog.Extraction

open Script

def unwrap : Expr → Expr
  | .paren _ inner => unwrap inner
  | .typed _ inner _ => unwrap inner
  | e => e

def calleeText? (callee : Expr) : Option String :=
  match unwrap callee with
  | .ident _ name => some name
  | .member _ (.ident _ object) name => some (object ++ "." ++ name)
  | _ => none

def keyName? : Key → Option String
  | .name _ text => some text
  | _ => none

def keyConstant? (t : Setting) (p : Progress) : Key → Option Value
  | .name _ text => some (.text text)
  | .literal _ value => some value
  | .bigInteger _ => none
  | .computed _ value => t.fold p value

def keyPart (t : Setting) (p : Progress) (key : Key) : Descriptor.Part :=
  { name? := keyName? key
    value? := keyConstant? t p key
    location := t.source.locate key.start }

def namePart (t : Setting) (p : Progress) (start : Nat) (name : String) : Descriptor.Part :=
  { name? := some name
    value? := t.fold p (.ident start name)
    location := t.source.locate start }

def exprPart (t : Setting) (p : Progress) (e : Expr) : Descriptor.Part :=
  { name? := none, value? := t.fold p e, location := t.source.locate e.start }

def missingPart (t : Setting) (start : Nat) : Descriptor.Part :=
  { name? := none, value? := none, location := t.source.locate start }

def propertyPair (t : Setting) (p : Progress) : Property → Descriptor.Part × Descriptor.Part
  | .keyed key value => (keyPart t p key, exprPart t p value)
  | .shorthand start name =>
      let part := namePart t p start name
      (part, part)
  | .assigned start name value => (namePart t p start name, exprPart t p value)
  | .method start key _ => (keyPart t p key, missingPart t start)
  | .spread start _ => (missingPart t start, missingPart t start)

def replacement (span : Span) (draft : Descriptor.Draft) : List Edit :=
  match draft.id, draft.defaultMessage with
  | some id, some message => [.replaceDescriptor span id message]
  | _, _ => []

def extractDescriptor (t : Setting) (p : Progress) (span : Span) (properties : List Property) :
    Progress :=
  match Descriptor.build false t.validate (properties.map (propertyPair t p)) with
  | .error failure => p.fail failure
  | .ok draft => p.commit draft (t.source.locate span.start) (replacement span draft)

/-- Where a property begins that is no descriptor, or the value of one. -/
def propertyStart : Property → Nat
  | .keyed _ value => (unwrap value).start
  | .shorthand start _ => start
  | .assigned start _ _ => start
  | .method start _ _ => start
  | .spread start _ => start

def descriptorOf? : Property → Option (Span × List Property)
  | .keyed _ value =>
      match unwrap value with
      | .object span properties => some (span, properties)
      | _ => none
  | _ => none

/-- Takes the descriptors one after another; what is none fails with the text of the callee. -/
def extractProperties (t : Setting) (callee : String) (p : Progress) : List Property → Progress
  | [] => p
  | property :: rest =>
      match descriptorOf? property with
      | none => p.fail ⟨.invalidShape callee, t.source.locate (propertyStart property)⟩
      | some (span, inner) =>
          let after := extractDescriptor t p span inner
          if after.hasFailed then after else extractProperties t callee after rest

/-- A call of the function with the given name: its first argument has to be an object. -/
def extractCall (t : Setting) (p : Progress) (start : Nat) (callee : Expr) (name : String)
    (arguments : List Argument) : Progress :=
  let shown := (calleeText? callee).getD name
  match arguments with
  | .plain value :: _ =>
      match unwrap value with
      | .object _ properties => extractProperties t shown p properties
      | other => p.fail ⟨.invalidShape shown, t.source.locate other.start⟩
  | _ => p.fail ⟨.invalidShape shown, t.source.locate start⟩

def calledFunction? (t : Setting) (p : Progress) (callee : Expr) : Option String :=
  t.findName? t.options.functions fun wanted => callee.refersTo t.imports p.scopes wanted

end MessageCatalog.Extraction
