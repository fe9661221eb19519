import MessageCatalog.Extraction.Run

/-!
The walk over a syntax tree, said without what it finds: which nodes it enters, in which order, and
which scopes are open at each element and each call that it meets. A walk is given by the nodes it
enters below a node; each walk meets one list of sites, and there is one for every list of nodes.
-/

namespace MessageCatalog.Extraction

open Script

inductive Node where
  | expr (value : Expr)
  | argument (value : Argument)
  | key (value : Key)
  | property (value : Property)
  | attributeValue (value : AttributeValue)
  | attribute (value : Attribute)
  | pattern (value : Pattern)
  | declarator (value : Declarator)
  | part (value : Part)

def Node.children : Node → List Node
  | .expr (.ident _ _) => []
  | .expr (.literal _ _) => []
  | .expr (.template _ _ holes) => holes.map .expr
  | .expr (.paren _ inner) => [.expr inner]
  | .expr (.typed _ inner inType) => .expr inner :: inType.map .expr
  | .expr (.unary _ _ operand) => [.expr operand]
  | .expr (.binary _ _ left right) => [.expr left, .expr right]
  | .expr (.conditional _ test yes no) => [.expr test, .expr yes, .expr no]
  | .expr (.member _ object _) => [.expr object]
  | .expr (.index _ object place) => [.expr object, .expr place]
  | .expr (.call _ callee arguments inType) =>
      .expr callee :: (arguments.map .argument ++ inType.map .expr)
  | .expr (.object _ properties) => properties.map .property
  | .expr (.element (.mk _ _ attributes inType children)) =>
      attributes.map .attribute ++ (inType.map .expr ++ children.map .expr)
  | .expr (.other _ parts) => parts.map .part
  | .argument (.plain value) => [.expr value]
  | .argument (.spread value) => [.expr value]
  | .key (.computed _ value) => [.expr value]
  | .key (.name _ _) => []
  | .key (.literal _ _) => []
  | .key (.bigInteger _) => []
  | .property (.keyed name value) => [.key name, .expr value]
  | .property (.shorthand _ _) => []
  | .property (.assigned _ _ value) => [.expr value]
  | .property (.method _ name function) => [.key name, .part function]
  | .property (.spread _ value) => [.expr value]
  | .attributeValue .missing => []
  | .attributeValue (.text _ _) => []
  | .attributeValue (.braces _ value) => [.expr value]
  | .attributeValue (.markup _ value) => [.expr value]
  | .attribute (.named _ _ value) => [.attributeValue value]
  | .attribute (.spread value) => [.expr value]
  | .pattern (.name _ inType) => inType.map .expr
  | .pattern (.withDefault target value) => [.pattern target, .expr value]
  | .pattern (.group parts) => parts.map .pattern
  | .pattern (.expr value) => [.expr value]
  | .declarator (.mk target init) => .pattern target :: (init.map .expr).toList
  | .part (.expr value) => [.expr value]
  | .part (.variableDeclaration _ declarators) => declarators.map .declarator
  | .part (.declaration _ parts) => parts.map .part
  | .part (.function _ parameters parts) => parameters.map .pattern ++ parts.map .part
  | .part (.block parts) => parts.map .part
  | .part (.catching parameter parts) => (parameter.map .pattern).toList ++ parts.map .part
  | .part (.group parts) => parts.map .part

def nodesOf (m : Module) : List Node :=
  m.items.map fun item => .part item.toPart

/-- The names that are declared in the scope around a node, if it opens one. -/
def Node.opened? : Node → Option (List String)
  | .part (.function kind parameters _) =>
      if opensScope kind then some (Pattern.namesOfAll parameters) else none
  | .part (.block _) => some []
  | .part (.catching none _) => some []
  | .part (.catching (some parameter) _) => some parameter.names
  | _ => none

/-- A constant keeps its initializer if its name stands alone. -/
def declareIn (constant : Bool) (s : Scopes) : Declarator → Scopes
  | .mk (.name text inType) (some init) =>
      if constant then s.declareConst text init else s.declarePattern (.name text inType)
  | .mk target _ => s.declarePattern target

def Node.declare (s : Scopes) : Node → Scopes
  | .part (.variableDeclaration constant declarators) => declarators.foldl (declareIn constant) s
  | .part (.declaration name _) => s.declare name
  | _ => s

inductive Site where
  | element (start : Nat) (tag : TagName) (attributes : List Attribute)
  | call (start : Nat) (callee : Expr) (arguments : List Argument)

def Node.site? : Node → Option Site
  | .expr (.element (.mk start tag attributes _ _)) => some (.element start tag attributes)
  | .expr (.call start callee arguments _) => some (.call start callee arguments)
  | _ => none

structure Visit where
  scopes : Scopes
  site : Site

def Node.visits (s : Scopes) (node : Node) : List Visit :=
  (node.site?.map (Visit.mk s)).toList

/-- The walk over a list of nodes, from the scopes in front of it to those behind it, with the
visits it makes. What it enters below a node may depend on the scopes there. -/
inductive Walks (entered : Scopes → Node → List Node) :
    Scopes → List Node → List Visit → Scopes → Prop
  | done (s : Scopes) : Walks entered s [] [] s
  | scope {s inside last : Scopes} {node : Node} {names : List String} {rest : List Node}
      {inner later : List Visit} (opened : node.opened? = some names)
      (below : Walks entered (s.enter.declareNames names) (entered s node) inner inside)
      (next : Walks entered inside.exit rest later last) :
      Walks entered s (node :: rest) (inner ++ later) last
  | node {s last : Scopes} {node : Node} {rest : List Node} {later : List Visit}
      (plain : node.opened? = none)
      (next : Walks entered (node.declare s) (entered s node ++ rest) later last) :
      Walks entered s (node :: rest) (node.visits s ++ later) last

variable {entered : Scopes → Node → List Node} {s last last' : Scopes} {nodes : List Node}
  {visits visits' : List Visit}

theorem Walks.unique (first : Walks entered s nodes visits last)
    (second : Walks entered s nodes visits' last') : visits' = visits ∧ last' = last := by
  induction first generalizing visits' last' with
  | done s =>
      cases second
      exact ⟨rfl, rfl⟩
  | scope opened below next ihBelow ihNext =>
      cases second with
      | scope opened' below' next' =>
          rw [opened] at opened'
          cases opened'
          obtain ⟨rfl, rfl⟩ := ihBelow below'
          obtain ⟨rfl, rfl⟩ := ihNext next'
          exact ⟨rfl, rfl⟩
      | node plain => simp [opened] at plain
  | node plain next ih =>
      cases second with
      | scope opened => simp [plain] at opened
      | node plain' next' =>
          obtain ⟨rfl, rfl⟩ := ih next'
          exact ⟨rfl, rfl⟩

noncomputable def Node.weight : Node → Nat
  | .expr value => sizeOf value
  | .argument value => sizeOf value
  | .key value => sizeOf value
  | .property value => sizeOf value
  | .attributeValue value => sizeOf value
  | .attribute value => sizeOf value
  | .pattern value => sizeOf value
  | .declarator value => sizeOf value
  | .part value => sizeOf value

noncomputable def weightOf (nodes : List Node) : Nat :=
  nodes.foldr (fun node total => node.weight + total) 0

@[simp]
theorem weightOf_nil : weightOf [] = 0 := by
  rfl

@[simp]
theorem weightOf_cons (node : Node) (rest : List Node) :
    weightOf (node :: rest) = node.weight + weightOf rest := by
  rfl

@[simp]
theorem weightOf_append (before after : List Node) :
    weightOf (before ++ after) = weightOf before + weightOf after := by
  induction before with
  | nil => simp
  | cons first rest ih => rw [List.cons_append, weightOf_cons, weightOf_cons, ih, Nat.add_assoc]

theorem weightOf_map {α : Type} [SizeOf α] (make : α → Node) (values : List α)
    (weight : ∀ value, (make value).weight = sizeOf value) :
    weightOf (values.map make) < sizeOf values := by
  induction values with
  | nil => simp
  | cons first rest ih =>
      simp only [List.map_cons, weightOf_cons, weight, List.cons.sizeOf_spec]
      omega

theorem weightOf_option {α : Type} [SizeOf α] (make : α → Node) (value : Option α)
    (weight : ∀ value, (make value).weight = sizeOf value) :
    weightOf (value.map make).toList < sizeOf value := by
  cases value with
  | none => simp
  | some value => simp [weight]

theorem weightOf_children (node : Node) : weightOf node.children < node.weight := by
  have exprs (values : List Expr) := weightOf_map Node.expr values fun _ => rfl
  have parts (values : List Part) := weightOf_map Node.part values fun _ => rfl
  have patterns (values : List Pattern) := weightOf_map Node.pattern values fun _ => rfl
  have arguments (values : List Argument) := weightOf_map Node.argument values fun _ => rfl
  have properties (values : List Property) := weightOf_map Node.property values fun _ => rfl
  have attributes (values : List Attribute) := weightOf_map Node.attribute values fun _ => rfl
  have declarators (values : List Declarator) := weightOf_map Node.declarator values fun _ => rfl
  have init (value : Option Expr) := weightOf_option Node.expr value fun _ => rfl
  have parameter (value : Option Pattern) := weightOf_option Node.pattern value fun _ => rfl
  fun_cases Node.children node <;> simp [Node.weight] <;> grind

theorem Walks.exists (entered : Scopes → Node → List Node)
    (below : ∀ s node, weightOf (entered s node) ≤ weightOf node.children) (s : Scopes)
    (nodes : List Node) : ∃ visits last, Walks entered s nodes visits last := by
  generalize bound : weightOf nodes = weight
  induction weight using Nat.strongRecOn generalizing s nodes with
  | ind weight ih =>
      subst bound
      cases nodes with
      | nil => exact ⟨[], s, .done s⟩
      | cons node rest =>
          have smaller := weightOf_children node
          have entering := below s node
          rw [weightOf_cons] at ih
          cases opened : node.opened? with
          | none =>
              obtain ⟨later, last, next⟩ := ih (weightOf (entered s node ++ rest))
                (by rw [weightOf_append]; omega) (node.declare s) _ rfl
              exact ⟨_, last, .node opened next⟩
          | some names =>
              obtain ⟨inner, inside, walked⟩ := ih (weightOf (entered s node)) (by omega)
                (s.enter.declareNames names) _ rfl
              obtain ⟨later, last, next⟩ := ih (weightOf rest) (by omega) inside.exit _ rfl
              exact ⟨_, last, .scope opened walked next⟩

end MessageCatalog.Extraction
