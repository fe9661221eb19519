import MessageCatalog.Descriptor.Basic
import MessageCatalog.Descriptor.Failure
import MessageCatalog.Message.Validator
import MessageCatalog.Script.Value
import MessageCatalog.Text.Characters

/-!
Building a draft from pairs of keys and values, from left to right. A later pair for a field
overwrites an earlier one; the first fault ends the build.
-/

namespace MessageCatalog.Descriptor

structure Part where
  name? : Option String
  value? : Option Script.Value
  unbraced : Bool := false
  location : Location

def Part.resolveValue (p : Part) : Except Failure String :=
  match p.value? with
  | some value => .ok value.toText
  | none => .error ⟨.unevaluatable, p.location⟩

/-- A bare key is its own name; any other key has to fold. -/
def Part.resolveKey (p : Part) : Except Failure String :=
  match p.name? with
  | some name => .ok name
  | none => p.resolveValue

/-- A literal without braces is not escape-processed, so a backslash in it deserves a hint. -/
def rejection (fromMarkup : Bool) (part : Part) (text : String) (e : Message.SyntaxError) : Fault :=
  if fromMarkup && part.unbraced && text.contains '\\' then .escapingHint else .messageSyntax e

/-- The value of a field: trimmed, and canonical for the default message. -/
def fieldValue (fromMarkup : Bool) (validate : Message.Validator) (field : Field) (part : Part) :
    Except Failure String := do
  let text := Text.trimmed (← part.resolveValue)
  match field with
  | .defaultMessage =>
      match validate text with
      | .ok canonical => return canonical
      | .error e => throw ⟨rejection fromMarkup part text e, part.location⟩
  | _ => return text

/-- Adds one pair to a draft. The value of an unknown key is not looked at. -/
def addPair (fromMarkup : Bool) (validate : Message.Validator) (draft : Draft)
    (pair : Part × Part) : Except Failure Draft := do
  match Field.ofKey? (← pair.1.resolveKey) with
  | none => return draft
  | some field => return draft.set field (← fieldValue fromMarkup validate field pair.2)

def build (fromMarkup : Bool) (validate : Message.Validator) (pairs : List (Part × Part)) :
    Except Failure Draft :=
  pairs.foldlM (addPair fromMarkup validate) {}

end MessageCatalog.Descriptor
