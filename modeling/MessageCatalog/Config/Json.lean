import MessageCatalog.Config.Basic
import MessageCatalog.Json.Parser

/-!
Configurations as JSON. A missing field takes its default, an unknown one is skipped, and a field
that is given twice or with a value of another type makes the whole unreadable. An array lists the
fields in order.
-/

namespace MessageCatalog.Config

def text? : Json.Value → Option String
  | .text content => some content
  | _ => none

def optionalText? : Json.Value → Option (Option String)
  | .null => some none
  | .text content => some (some content)
  | _ => none

def bool? : Json.Value → Option Bool
  | .bool value => some value
  | _ => none

def texts? : Json.Value → Option (List String)
  | .array items => items.mapM text?
  | _ => none

/-- A field: its key, and how it takes up a value. -/
structure Field where
  key : String
  read : Config → Json.Value → Option Config

def fields : List Field :=
  [⟨"moduleSourceName", fun c j => (text? j).map fun value => { c with source := value }⟩,
   ⟨"messagesDir", fun c j =>
    (optionalText? j).map fun value => { c with messagesDir := value }⟩,
   ⟨"fileName", fun c j => (text? j).map fun value => { c with fileName := value }⟩,
   ⟨"namespace", fun c j => (optionalText? j).map fun value => { c with idSpace := value }⟩,
   ⟨"enforceDescriptions",
     fun c j => (bool? j).map fun value => { c with enforceDescriptions := value }⟩,
   ⟨"componentNames", fun c j => (texts? j).map fun value => { c with components := value }⟩,
   ⟨"pluralComponentNames", fun c j => (texts? j).map fun value => { c with plurals := value }⟩,
   ⟨"functionNames", fun c j => (texts? j).map fun value => { c with functions := value }⟩,
   ⟨"includes", fun c j => (texts? j).map fun value => { c with includes := value }⟩,
   ⟨"ignores", fun c j => (texts? j).map fun value => { c with ignores := value }⟩,
   ⟨"ignoreTestFiles", fun c j => (bool? j).map fun value => { c with ignoreTests := value }⟩]

/-- Takes up one field of an object, if its key is known and has not been seen. -/
def readField (state : Config × List String) (entry : String × Json.Value) :
    Option (Config × List String) :=
  match fields.find? fun field => field.key == entry.1 with
  | none => some state
  | some field =>
      if state.2.contains entry.1 then none
      else (field.read state.1 entry.2).map fun c => (c, entry.1 :: state.2)

def readItems (c : Config) : List Field → List Json.Value → Option Config
  | _, [] => some c
  | [], _ :: _ => none
  | field :: rest, item :: items => do readItems (← field.read c item) rest items

def ofJson? : Json.Value → Option Config
  | .object entries => (entries.foldlM readField ({}, [])).map Prod.fst
  | .array items => readItems {} fields items
  | _ => none

def parse? (text : String) : Option Config :=
  (Json.parse? text).bind ofJson?

def written (c : Config) (optional : String → Option String → List (String × Json.Value)) :
    Json.Value :=
  .object
    ([("moduleSourceName", Json.Value.text c.source)] ++ optional "messagesDir" c.messagesDir ++
      [("fileName", .text c.fileName)] ++ optional "namespace" c.idSpace ++
      [("enforceDescriptions", .bool c.enforceDescriptions),
       ("componentNames", .texts c.components),
       ("pluralComponentNames", .texts c.plurals),
       ("functionNames", .texts c.functions),
       ("includes", .texts c.includes),
       ("ignores", .texts c.ignores),
       ("ignoreTestFiles", .bool c.ignoreTests)])

/-- As a file holds it: an absent text is left out. -/
def toJson (c : Config) : Json.Value :=
  c.written fun key value => (value.map fun content => (key, Json.Value.text content)).toList

/-- With every field: an absent text is null. -/
def toFullJson (c : Config) : Json.Value :=
  c.written fun key value => [(key, .ofOption .text value)]

def defaultText : String :=
  (toJson {}).pretty

end MessageCatalog.Config
