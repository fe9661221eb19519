import MessageCatalog.Descriptor.Builder
import MessageCatalog.Extraction.Basic

/-!
Messages in the attributes of components.
-/

namespace MessageCatalog.Extraction

open Script

def attributeConstant? (t : Setting) (p : Progress) : AttributeValue → Option Value
  | .text _ content => some (.text content)
  | .braces _ value => t.fold p value
  | .markup _ _ => none
  | .missing => none

/-- Where an attribute's value begins; one without a value stands for itself. -/
def valueStart (span : Span) : AttributeValue → Nat
  | .text start _ => start
  | .braces start _ => start
  | .markup start _ => start
  | .missing => span.start

def isQuoted : AttributeValue → Bool
  | .text _ _ => true
  | _ => false

/-- An attribute as a key and a value. What is spread into an element is not looked at. -/
def attributePair? (t : Setting) (p : Progress) :
    Attribute → Option (Descriptor.Part × Descriptor.Part)
  | .named span name value =>
      some
        ({ name? := some name, value? := none, location := t.source.locate span.start },
          { name? := none
            value? := attributeConstant? t p value
            unbraced := isQuoted value
            location := t.source.locate (valueStart span value) })
  | .spread _ => none

/-- A description is of no use where the element is rendered, so it is taken out. -/
def descriptionRemoval? : Attribute → Option Edit
  | .named span name _ =>
      if Descriptor.Field.ofKey? name == some .description then some (.removeAttribute span)
      else none
  | .spread _ => none

/-- A message component without a default message is none of ours. -/
def extractComponent (t : Setting) (p : Progress) (start : Nat) (attributes : List Attribute) :
    Progress :=
  match Descriptor.build true t.validate (attributes.filterMap (attributePair? t p)) with
  | .error failure => p.fail failure
  | .ok draft =>
      if draft.hasMessage then
        p.commit draft (t.source.locate start) (attributes.filterMap descriptionRemoval?)
      else p

/-- An element is a plural component, of which a warning is given, a message component, or none of
them. -/
def extractElement (t : Setting) (p : Progress) (start : Nat) (tag : TagName)
    (attributes : List Attribute) : Progress :=
  let refers (wanted : Origin) := tag.refersTo t.imports p.scopes wanted
  match t.findName? t.options.plurals refers with
  | some component => p.warn ⟨component, t.source.locate start⟩
  | none =>
      match t.findName? t.options.components refers with
      | some _ => extractComponent t p start attributes
      | none => p

end MessageCatalog.Extraction
