/-!
Message descriptors: the fields they are built from, drafts as they are found in a source, and
descriptors that a store has accepted.
-/

namespace MessageCatalog.Descriptor

inductive Field where
  | id
  | description
  | defaultMessage
  deriving DecidableEq, Repr

def Field.key : Field → String
  | .id => "id"
  | .description => "description"
  | .defaultMessage => "defaultMessage"

/-- Every other key of a descriptor's source has no meaning here. -/
def Field.ofKey? (key : String) : Option Field :=
  [Field.id, .description, .defaultMessage].find? fun field => field.key == key

/-- Fields as collected, before it is known whether they are complete. Values are trimmed, and
the default message is canonical. -/
structure Draft where
  id : Option String := none
  description : Option String := none
  defaultMessage : Option String := none
  deriving DecidableEq, Repr, Inhabited

def Draft.set (d : Draft) : Field → String → Draft
  | .id, value => { d with id := some value }
  | .description, value => { d with description := some value }
  | .defaultMessage, value => { d with defaultMessage := some value }

/-- Whether a default message was found that is not empty. -/
def Draft.hasMessage (d : Draft) : Bool :=
  d.defaultMessage.any fun message => !message.isEmpty

end Descriptor

/-- A descriptor that a store has accepted: its id and its message are not empty. -/
structure Descriptor where
  id : String
  description : Option String
  defaultMessage : String
  deriving DecidableEq, Repr, Inhabited

end MessageCatalog
