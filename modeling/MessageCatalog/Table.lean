import MessageCatalog.Descriptor.Basic
import MessageCatalog.Text.Characters

/-!
The table of the messages of a build and its catalog text. Each id has the value and the comment of
the last descriptor merged for it; the text lists the ids by their UTF-16 code units.
-/

namespace MessageCatalog

structure Entry where
  value : String
  comment : String
  deriving DecidableEq, Repr, Inhabited

structure Table where
  entries : List (String × Entry)

namespace Table

def empty : Table :=
  ⟨[]⟩

def get? (t : Table) (id : String) : Option Entry :=
  t.entries.lookup id

def size (t : Table) : Nat :=
  t.entries.length

/-- Replaces the entry of an id in place, or adds it at the end. -/
def put (id : String) (entry : Entry) : List (String × Entry) → List (String × Entry)
  | [] => [(id, entry)]
  | (key, old) :: rest =>
      if key == id then (id, entry) :: rest else (key, old) :: put id entry rest

def insert (t : Table) (id : String) (entry : Entry) : Table :=
  ⟨put id entry t.entries⟩

/-- An id belongs to the namespace that stands before its first dot. No namespace admits all. -/
def inNamespace (id : String) : Option String → Bool
  | none => true
  | some name => String.ofList (id.toList.takeWhile (· != '.')) == name

/-- The entry of a descriptor: its texts on one line each. -/
def entryOf (d : Descriptor) : Entry :=
  { value := Text.collapsed d.defaultMessage
    comment := (d.description.map fun text => Text.collapsed (Text.trimmed text)).getD "" }

def admitted (space : Option String) (descriptors : List Descriptor) : List Descriptor :=
  descriptors.filter fun d => inNamespace d.id space

/-- Takes up the descriptors one after another and counts them. One of another namespace is passed
over. -/
def mergeCounted (t : Table) (descriptors : List Descriptor) (space : Option String) :
    Table × Nat :=
  descriptors.foldl
    (fun (table, count) d =>
      if inNamespace d.id space then (table.insert d.id (entryOf d), count + 1)
      else (table, count))
    (t, 0)

def merge (t : Table) (descriptors : List Descriptor) (space : Option String) : Table :=
  (t.mergeCounted descriptors space).1

def block (id : String) (entry : Entry) : String :=
  (if entry.comment.isEmpty then "#" else "# " ++ entry.comment) ++ "\n" ++
    id ++ " = " ++ entry.value ++ "\n"

def sorted (t : Table) : List (String × Entry) :=
  t.entries.mergeSort fun left right => (Text.unitOrder left.1 right.1).isLE

def render (t : Table) : String :=
  String.intercalate "\n" (t.sorted.map fun (id, entry) => block id entry)

end Table

end MessageCatalog
