import MessageCatalog.Script.Scope

/-!
The names that a module imports, and whether an expression or a tag refers to one of them where
it stands.
-/

namespace MessageCatalog.Script

structure Origin where
  source : String
  imported : String
  deriving DecidableEq, Repr

/-- Imported names with their origins, each name once. -/
abbrev ImportTable := List (String × Origin)

def Import.bindings (i : Import) : List (String × Origin) :=
  if i.typeOnly then []
  else (i.names.filter fun name => !name.typeOnly).map fun name =>
    (name.localName, ⟨i.source, name.imported⟩)

def Item.bindings : Item → List (String × Origin)
  | .imports declaration => declaration.bindings
  | .part _ => []

/-- A later import of a name takes the place of an earlier one. -/
def ImportTable.insert (table : ImportTable) (entry : String × Origin) : ImportTable :=
  entry :: table.filter fun (name, _) => name != entry.1

def ImportTable.ofModule (m : Module) : ImportTable :=
  (m.items.flatMap Item.bindings).foldl ImportTable.insert []

/-- The origin of a name, unless a local declaration hides the import. -/
def ImportTable.origin? (table : ImportTable) (scopes : Scopes) (name : String) : Option Origin :=
  if scopes.isShadowed name then none else table.lookup name

def ImportTable.isImport (table : ImportTable) (scopes : Scopes) (name : String)
    (wanted : Origin) : Bool :=
  table.origin? scopes name == some wanted

/-- A member of an imported module is as good as an import of that member. -/
def ImportTable.isMember (table : ImportTable) (scopes : Scopes) (space member : String)
    (wanted : Origin) : Bool :=
  member == wanted.imported && table.origin? scopes space == some ⟨wanted.source, "*"⟩

def TagName.refersTo (table : ImportTable) (scopes : Scopes) (wanted : Origin) : TagName → Bool
  | .path first [] => table.isImport scopes first wanted
  | .path first [member] => table.isMember scopes first member wanted
  | _ => false

def Expr.refersTo (table : ImportTable) (scopes : Scopes) (wanted : Origin) : Expr → Bool
  | .ident _ name => table.isImport scopes name wanted
  | .member _ (.ident _ space) name => table.isMember scopes space name wanted
  | .index _ (.ident _ space) (.literal _ (.text name)) => table.isMember scopes space name wanted
  | .paren _ inner => inner.refersTo table scopes wanted
  | _ => false

end MessageCatalog.Script
