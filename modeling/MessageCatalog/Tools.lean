import MessageCatalog.Json.Basic
import MessageCatalog.Project

/-!
Tools for agents. They look at a project and answer with JSON; none of them writes a file. The
messages of a project are listed page by page.
-/

namespace MessageCatalog.Tools

inductive Tool where
  | getConfig
  | extractMessages
  | previewCatalog
  deriving DecidableEq, Repr

def Tool.name : Tool → String
  | .getConfig => "get_config"
  | .extractMessages => "extract_messages"
  | .previewCatalog => "preview_catalog"

def Tool.ofName? (name : String) : Option Tool :=
  [Tool.getConfig, .extractMessages, .previewCatalog].find? fun tool => tool.name == name

def instructions : String :=
  "intlx MCP lets AI agents inspect react-intl message extraction.\n\n" ++
    "Available tools:\n" ++
    "1. get_config - Get project configuration\n" ++
    "2. extract_messages - List extracted message descriptors (paginated)\n" ++
    "3. preview_catalog - Render the catalog file without writing it\n\n" ++
    "All tools are read-only. When extraction stops at an error, fix it\n" ++
    "first: messages from later files are missing until it is resolved."

inductive CallError where
  /-- The parameters are not those of the tool. -/
  | badParameters
  | broken (message : String)
  deriving DecidableEq, Repr

/-- What a tool breaks off with: what it was about, and the message of the error. -/
def CallError.ofMessages (about : String) (messages : List String) : CallError :=
  .broken (about ++ ": " ++ messages.headD "")

/-! ### Parameters -/

def countLimit : Nat := UInt32.size

def count? : Option Json.Value → Option (Option Nat)
  | none => some none
  | some .null => some none
  | some (.integer (.ofNat value)) => if value < countLimit then some (some value) else none
  | some _ => none

structure Parameters where
  root : String
  limit : Option Nat
  offset : Option Nat
  deriving DecidableEq, Repr

def field? (j : Json.Value) (key : String) : Option Json.Value :=
  match j with
  | .object fields => fields.lookup key
  | _ => none

def rootOf? (j : Json.Value) : Option String :=
  match field? j "projectRootPath" with
  | some (.text root) => some root
  | _ => none

def Parameters.ofJson? (j : Json.Value) : Option Parameters := do
  return ⟨← rootOf? j, ← count? (field? j "limit"), ← count? (field? j "offset")⟩

/-! ### Answers -/

/-- A field that is left out where there is no value. -/
def optionalField (key : String) (value : Option Json.Value) : List (String × Json.Value) :=
  (value.map fun content => (key, content)).toList

def issueJson (issue : Issue) : Json.Value :=
  .object ([("rule", Json.Value.text issue.rule), ("severity", .text issue.severity.name),
    ("message", .text issue.message), ("location", .text issue.place)] ++
    optionalField "hint" (issue.hint?.map .text))

structure Item where
  file : String
  message : Descriptor
  deriving DecidableEq, Repr

def Item.toJson (i : Item) : Json.Value :=
  .object ([("filePath", Json.Value.text i.file), ("id", .text i.message.id),
    ("defaultMessage", .text i.message.defaultMessage)] ++
    optionalField "description" (i.message.description.map .text))

def itemsOf (run : Project.Run) : List Item :=
  run.products.flatMap fun o => o.found.messages.map fun message => ⟨o.source.file, message⟩

def fileCount (items : List Item) : Nat :=
  (items.map Item.file).eraseDups.length

structure Page where
  offset : Nat
  limit : Nat
  items : List Item
  hasMore : Bool
  deriving DecidableEq, Repr

def defaultLimit : Nat := 20

def greatestLimit : Nat := 100

def pageOf (limit offset : Option Nat) (all : List Item) : Page :=
  let limit := min (limit.getD defaultLimit) greatestLimit
  let offset := offset.getD 0
  let items := (all.drop offset).take limit
  ⟨offset, limit, items, offset + items.length < all.length⟩

def Page.toJson (p : Page) : Json.Value :=
  .object [("offset", .nat p.offset), ("limit", .nat p.limit), ("hasMore", .bool p.hasMore)]

/-! ### Tools -/

def preview (t : FileTree) (root : String) : Except CallError Project.Run :=
  match Project.load t root {} with
  | .error e => .error (.ofMessages "Failed to initialize" e.messages)
  | .ok project =>
      match (project.run .preview t).2 with
      | .error e => .error (.ofMessages "Extraction failed" e.messages)
      | .ok run => .ok run

def getConfig (t : FileTree) (root : String) : Except CallError Json.Value :=
  match Config.load t root with
  | .error e => .error (.ofMessages "Failed to load config" e.messages)
  | .ok loaded =>
      .ok (.object [("fromFile", .bool loaded.fromFile), ("config", loaded.config.toFullJson)])

def extractMessages (t : FileTree) (p : Parameters) : Except CallError Json.Value := do
  let run ← preview t p.root
  let all := itemsOf run
  let page := pageOf p.limit p.offset all
  return .object ([("totalCount", Json.Value.nat all.length),
    ("totalFileCount", .nat (fileCount all)),
    ("items", .array (page.items.map Item.toJson)),
    ("issues", .array (run.issues.map issueJson))] ++
    optionalField "error" (run.failure.map issueJson) ++
    [("pagination", page.toJson)])

def previewCatalog (t : FileTree) (root : String) : Except CallError Json.Value := do
  let run ← preview t root
  return .object (optionalField "catalogPath" (run.catalogPath.map .text) ++
    [("entryCount", Json.Value.nat run.table.size), ("content", .text run.table.render)] ++
    optionalField "error" (run.failure.map issueJson))

def Tool.call (tool : Tool) (t : FileTree) (parameters : Json.Value) :
    Except CallError Json.Value :=
  match tool with
  | .getConfig =>
      match rootOf? parameters with
      | some root => MessageCatalog.Tools.getConfig t root
      | none => .error .badParameters
  | .extractMessages =>
      match Parameters.ofJson? parameters with
      | some read => MessageCatalog.Tools.extractMessages t read
      | none => .error .badParameters
  | .previewCatalog =>
      match rootOf? parameters with
      | some root => MessageCatalog.Tools.previewCatalog t root
      | none => .error .badParameters

end MessageCatalog.Tools
