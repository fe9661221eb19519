import MessageCatalog.Descriptor.Basic
import MessageCatalog.Descriptor.Failure

/-!
The store of one source: the descriptors it has committed, in the order in which their ids were
first seen. The entry of an id never changes once it is in.
-/

namespace MessageCatalog.Descriptor

structure Store where
  enforce : Bool
  entries : List Descriptor

def Store.empty (enforce : Bool) : Store :=
  ⟨enforce, []⟩

def Store.get? (s : Store) (id : String) : Option Descriptor :=
  s.entries.find? fun entry => entry.id == id

def Store.size (s : Store) : Nat :=
  s.entries.length

/-- An empty text counts as absent. -/
def present? (value : Option String) : Option String :=
  value.filter fun text => !text.isEmpty

/-- Completeness is checked first, then the agreement with the entry of the same id, then the
description. -/
def Store.commit (s : Store) (draft : Draft) (location : Location) : Except Failure Store :=
  match present? draft.id, present? draft.defaultMessage with
  | some id, some message =>
      let entry : Descriptor := ⟨id, draft.description, message⟩
      match s.get? id with
      | some existing =>
          if existing == entry then
            if s.enforce && (present? draft.description).isNone then
              .error ⟨.missingDescription id, location⟩
            else .ok s
          else .error ⟨.duplicateId id, location⟩
      | none =>
          if s.enforce && (present? draft.description).isNone then
            .error ⟨.missingDescription id, location⟩
          else .ok { s with entries := s.entries ++ [entry] }
  | _, _ => .error ⟨.missingField, location⟩

end MessageCatalog.Descriptor
