import MessageCatalog.Proofs.Extraction.Failures
import MessageCatalog.Proofs.Script.Alike

/-!
Imports that are hidden by parameters. A tour is a walk that keeps at each node which nodes stand
around it. The scopes that are open there hide every name that the scopes around it declare, so what
extraction takes for a component or a function is never a parameter of a function or of a catch
clause around it. Constructors, and the accessors of objects, have no scope for their parameters,
and hide nothing.
-/

namespace MessageCatalog.Extraction

open Script

/-- What a walk through the inside of a scope does to the open scopes: those further out are as they
were, and a name that was hidden still is. -/
structure Grows (s last : Scopes) : Prop where
  outer : last.opened.tail = s.opened.tail
  hidden : ∀ name, s.isShadowed name = true → last.isShadowed name = true

variable {s inside last last' : Scopes} {nodes : List Node}

theorem Grows.refl (s : Scopes) : Grows s s :=
  ⟨rfl, fun _ hidden => hidden⟩

theorem Grows.trans (first : Grows s inside) (second : Grows inside last) : Grows s last :=
  ⟨second.outer.trans first.outer, fun name hidden => second.hidden name (first.hidden name hidden)⟩

theorem grows_add (s : Scopes) (name : String) (init : Option Expr) :
    Grows s (s.add name init) := by
  obtain ⟨opened⟩ := s
  cases opened with
  | nil => exact .refl _
  | cons innermost outer =>
      refine ⟨rfl, fun other hidden => ?_⟩
      simp only [Scopes.isShadowed, Scopes.add, List.any_cons, List.lookup_cons] at hidden ⊢
      cases other == name <;> simp_all

theorem grows_declareNames (s : Scopes) (names : List String) : Grows s (s.declareNames names) := by
  induction names generalizing s with
  | nil => exact .refl s
  | cons name rest ih => exact (grows_add s name none).trans (ih (s.declare name))

theorem grows_declareIn (constant : Bool) (s : Scopes) (declarator : Declarator) :
    Grows s (declareIn constant s declarator) := by
  unfold declareIn
  split
  · split
    · exact grows_add s _ _
    · exact grows_declareNames s _
  · exact grows_declareNames s _

theorem grows_declare (s : Scopes) (node : Node) : Grows s (node.declare s) := by
  unfold Node.declare
  split
  · rename_i constant declarators
    induction declarators generalizing s with
    | nil => exact .refl s
    | cons first rest ih =>
        exact (grows_declareIn constant s first).trans (ih (declareIn constant s first))
  · exact grows_add s _ _
  · exact .refl s

theorem Grows.exit_eq (grown : Grows s.enter inside) : inside.exit = s := by
  rw [Scopes.exit, grown.outer]
  rfl

theorem isShadowed_add (name : String) (init : Option Expr) {innermost : Scope}
    {outer : List Scope} (s : Scopes) (shape : s.opened = innermost :: outer) :
    (s.add name init).isShadowed name = true := by
  simp [Scopes.add, shape, Scopes.isShadowed]

theorem isShadowed_declareNames {name : String} {names : List String} (member : name ∈ names)
    (s : Scopes) (isOpen : s.opened ≠ []) : (s.declareNames names).isShadowed name = true := by
  induction names generalizing s with
  | nil => simp at member
  | cons first rest ih =>
      obtain ⟨innermost, outer, shape⟩ := List.exists_cons_of_ne_nil isOpen
      rcases List.mem_cons.mp member with rfl | later
      · exact (grows_declareNames (s.declare name) rest).hidden name
          (isShadowed_add name none s shape)
      · exact ih later (s.declare first) (by simp [Scopes.declare, Scopes.add, shape])

/-! ### Tours -/

/-- A node that a walk comes to, with the nodes around it, the innermost first, and the scopes that
are open in front of it. -/
structure Stop where
  around : List Node
  scopes : Scopes
  node : Node

def Stop.visits (stop : Stop) : List Visit :=
  stop.node.visits stop.scopes

/-- A walk over nodes that have some others around them, with every node it comes to. -/
inductive Tours (entered : Scopes → Node → List Node) :
    List Node → Scopes → List Node → List Stop → Scopes → Prop
  | done (around : List Node) (s : Scopes) : Tours entered around s [] [] s
  | scope {around : List Node} {s inside last : Scopes} {node : Node} {names : List String}
      {rest : List Node} {inner later : List Stop} (opened : node.opened? = some names)
      (below : Tours entered (node :: around) (s.enter.declareNames names) (entered s node) inner
        inside)
      (next : Tours entered around inside.exit rest later last) :
      Tours entered around s (node :: rest) (⟨around, s, node⟩ :: (inner ++ later)) last
  | node {around : List Node} {s inside last : Scopes} {node : Node} {rest : List Node}
      {inner later : List Stop} (plain : node.opened? = none)
      (below : Tours entered (node :: around) (node.declare s) (entered s node) inner inside)
      (next : Tours entered around inside rest later last) :
      Tours entered around s (node :: rest) (⟨around, s, node⟩ :: (inner ++ later)) last

variable {entered : Scopes → Node → List Node} {around : List Node} {stops stops' : List Stop}

theorem Tours.unique (first : Tours entered around s nodes stops last)
    (second : Tours entered around s nodes stops' last') : stops' = stops ∧ last' = last := by
  induction first generalizing stops' last' with
  | done around s =>
      cases second
      exact ⟨rfl, rfl⟩
  | scope opened below next ihBelow ihNext =>
      cases second with
      | scope opened' below' next' =>
          rw [opened] at opened'
          cases opened'
          obtain ⟨rfl, rfl⟩ := ihBelow below'
          obtain ⟨rfl, rfl⟩ := ihNext next'
          exact ⟨rfl, rfl⟩
      | node plain => simp [opened] at plain
  | node plain below next ihBelow ihNext =>
      cases second with
      | scope opened => simp [plain] at opened
      | node plain' below' next' =>
          obtain ⟨rfl, rfl⟩ := ihBelow below'
          obtain ⟨rfl, rfl⟩ := ihNext next'
          exact ⟨rfl, rfl⟩

theorem Tours.exists (entered : Scopes → Node → List Node)
    (below : ∀ s node, weightOf (entered s node) ≤ weightOf node.children) (around : List Node)
    (s : Scopes) (nodes : List Node) : ∃ stops last, Tours entered around s nodes stops last := by
  generalize bound : weightOf nodes = weight
  induction weight using Nat.strongRecOn generalizing around s nodes with
  | ind weight ih =>
      subst bound
      cases nodes with
      | nil => exact ⟨[], s, .done around s⟩
      | cons node rest =>
          have smaller := weightOf_children node
          have entering := below s node
          rw [weightOf_cons] at ih
          have inside (s' : Scopes) := ih (weightOf (entered s node)) (by omega) (node :: around) s'
            (entered s node) rfl
          have behind (s' : Scopes) := ih (weightOf rest) (by omega) around s' rest rfl
          cases opened : node.opened? with
          | none =>
              obtain ⟨inner, between, toured⟩ := inside (node.declare s)
              obtain ⟨later, last, next⟩ := behind between
              exact ⟨_, last, .node opened toured next⟩
          | some names =>
              obtain ⟨inner, between, toured⟩ := inside (s.enter.declareNames names)
              obtain ⟨later, last, next⟩ := behind between.exit
              exact ⟨_, last, .scope opened toured next⟩

theorem Walks.append {before after : List Node} {visits later : List Visit}
    (first : Walks entered s before visits inside)
    (second : Walks entered inside after later last) :
    Walks entered s (before ++ after) (visits ++ later) last := by
  induction first with
  | done s => exact second
  | scope opened below next ihBelow ihNext =>
      rw [List.cons_append, List.append_assoc]
      exact .scope opened below (ihNext second)
  | node plain next ih =>
      rw [List.cons_append, List.append_assoc]
      have later := ih second
      rw [List.append_assoc] at later
      exact .node plain later

theorem visits_of_opened {node : Node} {names : List String} (opened : node.opened? = some names)
    (s : Scopes) : node.visits s = [] := by
  cases node with
  | part value => rfl
  | _ => simp [Node.opened?] at opened

theorem Tours.walks (tour : Tours entered around s nodes stops last) :
    Walks entered s nodes (stops.flatMap Stop.visits) last := by
  induction tour with
  | done around s => exact .done s
  | scope opened below next ihBelow ihNext =>
      rw [List.flatMap_cons, List.flatMap_append, Stop.visits, visits_of_opened opened,
        List.nil_append]
      exact .scope opened ihBelow ihNext
  | node plain below next ihBelow ihNext =>
      rw [List.flatMap_cons, List.flatMap_append]
      exact .node plain (ihBelow.append ihNext)

theorem Tours.grows (tour : Tours entered around s nodes stops last) : Grows s last := by
  induction tour with
  | done around s => exact .refl s
  | @scope around s inside last node names rest inner later opened below next ihBelow ihNext =>
      have grown : Grows s.enter inside := (grows_declareNames s.enter names).trans ihBelow
      rwa [grown.exit_eq] at ihNext
  | node plain below next ihBelow ihNext =>
      exact (grows_declare _ _).trans (ihBelow.trans ihNext)

/-- Where a node stands in a tree with the given roots: the nodes around it, the innermost first. -/
inductive Stands (roots : List Node) : List Node → Node → Prop
  | root {node : Node} (member : node ∈ roots) : Stands roots [] node
  | child {around : List Node} {parent node : Node} (outer : Stands roots around parent)
      (member : node ∈ parent.children) : Stands roots (parent :: around) node

theorem Tours.stands {roots : List Node} (tour : Tours entered around s nodes stops last)
    (children : ∀ s node, entered s node ⊆ node.children)
    (placed : ∀ node ∈ nodes, Stands roots around node) :
    ∀ stop ∈ stops, Stands roots stop.around stop.node := by
  induction tour with
  | done around s => simp
  | scope opened below next ihBelow ihNext
  | node plain below next ihBelow ihNext =>
      have here := placed _ List.mem_cons_self
      simp only [List.forall_mem_cons, List.forall_mem_append]
      exact ⟨here, ihBelow fun child member => .child here (children _ _ member),
        ihNext fun node member => placed node (List.mem_cons_of_mem _ member)⟩

def Hides (s : Scopes) (around : List Node) : Prop :=
  ∀ outer ∈ around, ∀ names, outer.opened? = some names → ∀ name ∈ names, s.isShadowed name = true

theorem Hides.mono (hides : Hides s around) (grown : Grows s last) : Hides last around :=
  fun outer member names opened name declared =>
    grown.hidden name (hides outer member names opened name declared)

theorem Hides.enter (hides : Hides s around) : Hides s.enter around := by
  simpa only [Hides, Scopes.isShadowed, Scopes.enter, List.any_cons, List.lookup_nil,
    Option.isSome_none, Bool.false_or] using hides

theorem Hides.cons {node : Node} (hides : Hides s around)
    (own : ∀ names, node.opened? = some names → ∀ name ∈ names, s.isShadowed name = true) :
    Hides s (node :: around) :=
  List.forall_mem_cons.mpr ⟨own, hides⟩

/-- Wherever a tour comes to, the names that the scopes around it declare are hidden. -/
theorem Tours.hides (tour : Tours entered around s nodes stops last) (hides : Hides s around) :
    ∀ stop ∈ stops, Hides stop.scopes stop.around := by
  induction tour with
  | done around s => simp
  | @scope around s inside last node names rest inner later opened below next ihBelow ihNext =>
      have grown : Grows s.enter inside := (grows_declareNames s.enter names).trans below.grows
      -- behind the scope the same scopes are open as in front of it
      rw [grown.exit_eq] at ihNext
      simp only [List.forall_mem_cons, List.forall_mem_append]
      refine ⟨hides, ihBelow ?_, ihNext hides⟩
      refine (hides.enter.mono (grows_declareNames s.enter names)).cons ?_
      intro names' opened' name declared
      rw [opened] at opened'
      cases opened'
      exact isShadowed_declareNames declared s.enter (by simp [Scopes.enter])
  | @node around s inside last node rest inner later plain below next ihBelow ihNext =>
      -- a node without a scope may still declare names, which hide more, never less
      have inner := hides.mono (grows_declare s node)
      simp only [List.forall_mem_cons, List.forall_mem_append]
      refine ⟨hides, ihBelow (inner.cons ?_), ihNext (inner.mono below.grows)⟩
      intro names opened
      simp [plain] at opened

/-! ### Components and functions that are recognized -/

/-- The name that a tag begins with, which is the one looked up among the imports. -/
def tagLocal? : TagName → Option String
  | .path first _ => some first
  | .namespaced _ _ => none

def calleeLocal? : Expr → Option String
  | .ident _ name => some name
  | .member _ (.ident _ space) _ => some space
  | .index _ (.ident _ space) _ => some space
  | .paren _ inner => calleeLocal? inner
  | _ => none

/-- A site is taken for a configured component, plural component or function through a name. -/
inductive Recognizes (t : Setting) (s : Scopes) : Site → String → Prop
  | element {start : Nat} {tag : TagName} {attributes : List Attribute} {wanted name : String}
      (configured : wanted ∈ t.options.plurals ∨ wanted ∈ t.options.components)
      (refers : tag.refersTo t.imports s ⟨t.options.source, wanted⟩ = true)
      (through : tagLocal? tag = some name) : Recognizes t s (.element start tag attributes) name
  | call {start : Nat} {callee : Expr} {arguments : List Argument} {wanted name : String}
      (configured : wanted ∈ t.options.functions)
      (refers : callee.refersTo t.imports s ⟨t.options.source, wanted⟩ = true)
      (through : calleeLocal? callee = some name) :
      Recognizes t s (.call start callee arguments) name

variable {table : ImportTable} {wanted : Origin}

theorem not_shadowed_of_origin {name : String} {origin : Origin}
    (found : (table.origin? s name == some origin) = true) : s.isShadowed name = false := by
  unfold ImportTable.origin? at found
  split at found
  · simp at found
  · exact Bool.eq_false_iff.mpr ‹_›

theorem not_shadowed_of_member {space member : String}
    (found : table.isMember s space member wanted = true) : s.isShadowed space = false := by
  rw [ImportTable.isMember, Bool.and_eq_true] at found
  exact not_shadowed_of_origin found.2

theorem tagLocal_of_refers {tag : TagName} (refers : tag.refersTo table s wanted = true) :
    ∃ name, tagLocal? tag = some name ∧ s.isShadowed name = false := by
  unfold TagName.refersTo at refers
  split at refers
  · exact ⟨_, rfl, not_shadowed_of_origin refers⟩
  · exact ⟨_, rfl, not_shadowed_of_member refers⟩
  · cases refers

theorem calleeLocal_of_refers {callee : Expr} (refers : callee.refersTo table s wanted = true) :
    ∃ name, calleeLocal? callee = some name ∧ s.isShadowed name = false := by
  fun_induction Expr.refersTo table s wanted callee with
  | case1 start name => exact ⟨name, rfl, not_shadowed_of_origin refers⟩
  | case2 start start' space name => exact ⟨space, rfl, not_shadowed_of_member refers⟩
  | case3 start start' space start'' name => exact ⟨space, rfl, not_shadowed_of_member refers⟩
  | case4 start inner ih => exact ih refers
  | case5 => cases refers

variable {t : Setting} {site : Site} {name : String}

theorem Recognizes.not_shadowed (recognizes : Recognizes t s site name) :
    s.isShadowed name = false := by
  cases recognizes with
  | element _ refers through =>
      obtain ⟨_, first, visible⟩ := tagLocal_of_refers refers
      rw [through] at first
      cases first
      exact visible
  | call _ refers through =>
      obtain ⟨_, first, visible⟩ := calleeLocal_of_refers refers
      rw [through] at first
      cases first
      exact visible

theorem findName_mem {names : List String} {refers : Origin → Bool}
    (found : t.findName? names refers = some name) :
    name ∈ names ∧ refers ⟨t.options.source, name⟩ = true :=
  ⟨List.mem_of_find?_eq_some found,
    List.find?_some (p := fun name => refers ⟨t.options.source, name⟩) found⟩

theorem handle_unrecognized (unknown : ∀ name, ¬Recognizes t s site name) (f : Findings) :
    Visit.handle t f ⟨s, site⟩ = f.within s := by
  cases site with
  | element start tag attributes =>
      have nothing (names : List String)
          (configured : ∀ name ∈ names, name ∈ t.options.plurals ∨ name ∈ t.options.components) :
          t.findName? names (fun wanted => tag.refersTo t.imports s wanted) = none := by
        refine Option.eq_none_iff_forall_not_mem.mpr fun wanted found => ?_
        obtain ⟨member, refers⟩ := findName_mem found
        obtain ⟨name, through, _⟩ := tagLocal_of_refers refers
        exact unknown name (.element (configured wanted member) refers through)
      have plurals : t.findName? t.options.plurals
          (fun wanted => tag.refersTo t.imports (f.within s).scopes wanted) = none :=
        nothing t.options.plurals fun _ member => .inl member
      have components : t.findName? t.options.components
          (fun wanted => tag.refersTo t.imports (f.within s).scopes wanted) = none :=
        nothing t.options.components fun _ member => .inr member
      change extractElement t (f.within s) start tag attributes = _
      simp only [extractElement, plurals, components]
  | call start callee arguments =>
      have nothing : t.called? s callee = none := by
        refine Option.eq_none_iff_forall_not_mem.mpr fun wanted found => ?_
        obtain ⟨member, refers⟩ := findName_mem found
        obtain ⟨name, through, _⟩ := calleeLocal_of_refers refers
        exact unknown name (.call member refers through)
      rw [handle_call, nothing]

def Node.parameterNames : Node → List String
  | .part (.function _ parameters _) => Pattern.namesOfAll parameters
  | .part (.catching (some parameter) _) => parameter.names
  | _ => []

/-- A constructor of a class, or an accessor of an object. -/
def Node.isScopeless : Node → Bool
  | .part (.function .constructor _ _) => true
  | .part (.function .accessor _ _) => true
  | _ => false

/-- All parameters but those of constructors and of accessors of objects are declared. -/
theorem opened_parameters {outer : Node} (hasScope : outer.isScopeless = false)
    (bound : name ∈ outer.parameterNames) :
    ∃ names, outer.opened? = some names ∧ name ∈ names := by
  unfold Node.parameterNames at bound
  split at bound
  · rename_i kind parameters parts
    refine ⟨Pattern.namesOfAll parameters, ?_, bound⟩
    cases kind <;> first | rfl | cases hasScope
  · exact ⟨_, rfl, bound⟩
  · simp at bound

theorem entered_subset (t : Setting) (s : Scopes) (node : Node) :
    t.entered s node ⊆ node.children := by
  fun_cases Setting.entered t s node with
  | case1 start callee arguments inType called =>
      refine List.cons_subset_cons _ (List.Subset.trans ?_ (List.subset_append_left _ _))
      exact List.map_subset _ (List.tail_sublist arguments).subset
  | case2 start callee arguments inType called => exact List.Subset.refl _
  | case3 node => exact List.Subset.refl _

/-- Extraction handles the sites of one tour over the module, in order. At each of them nothing
happens unless it is recognized, and the name through which it is recognized is not bound by a
parameter of a function, arrow, method or accessor of a class, or catch clause around it. -/
theorem recognized_not_bound (options : Options) (validate : Message.Validator) (source : Source) :
    let t := Setting.ofSource options validate source
    let p := walk options validate source
    ∃ stops last, Tours t.entered [] .empty (nodesOf source.module) stops last ∧
      (∀ stops' last', Tours t.entered [] .empty (nodesOf source.module) stops' last' →
        stops' = stops) ∧
      Outcome t (.start options) (stops.flatMap Stop.visits) p.findings p.failure ∧
      ∀ stop ∈ stops, Stands (nodesOf source.module) stop.around stop.node ∧
        ∀ site, stop.node.site? = some site →
          (∀ f, Visit.handle t f ⟨stop.scopes, site⟩ ≠ f.within stop.scopes →
            ∃ name, Recognizes t stop.scopes site name) ∧
          ∀ name, Recognizes t stop.scopes site name →
            ∀ outer ∈ stop.around, outer.isScopeless = false → name ∉ outer.parameterNames := by
  intro t p
  obtain ⟨stops, last, tour⟩ :=
    Tours.exists t.entered (weightOf_entered t) [] .empty (nodesOf source.module)
  refine ⟨stops, last, tour, fun _ _ other => (tour.unique other).1, walk_outcome tour.walks, ?_⟩
  intro stop member
  refine ⟨tour.stands (entered_subset t) (fun _ => .root) stop member, fun site _ => ⟨?_, ?_⟩⟩
  · intro f changed
    refine Classical.byContradiction fun unknown => changed ?_
    exact handle_unrecognized (not_exists.mp unknown) f
  · intro name recognizes outer around hasScope bound
    obtain ⟨names, opened, declared⟩ := opened_parameters hasScope bound
    have hidden := tour.hides (by simp [Hides]) stop member outer around names opened name declared
    rw [recognizes.not_shadowed] at hidden
    cases hidden

/-! ### Constructors and accessors of objects -/

def componentOptions : Options :=
  ⟨"react-intl", ["FormattedMessage"], [], [], false⟩

def messageElement (start : Nat) (id text : String) : Expr :=
  .element (.mk start (.path "FormattedMessage" [])
    [.named ⟨start + 18, start + 24⟩ "id" (.text (start + 21) id),
      .named ⟨start + 25, start + 43⟩ "defaultMessage" (.text (start + 40) text)] [] [])

def hidingFunction (kind : FunctionKind) (start : Nat) (id text : String) : Part :=
  .function kind [.name "FormattedMessage" []] [.block [.expr (messageElement start id text)]]

def hidingSource : Source :=
  { file := "src/app.tsx"
    text := ("import \x7b FormattedMessage \x7d from \"react-intl\";\n" ++
      "class A \x7b constructor(FormattedMessage) \x7b " ++
      "<FormattedMessage id=\"a\" defaultMessage=\"A\" />; \x7d \x7d\n" ++
      "const b = \x7b set b(FormattedMessage) \x7b " ++
      "<FormattedMessage id=\"b\" defaultMessage=\"B\" />; \x7d \x7d;\n").toList
    module :=
      ⟨[.imports ⟨"react-intl", false, [⟨"FormattedMessage", "FormattedMessage", false⟩]⟩,
        .part (.declaration "A" [hidingFunction .constructor 89 "a" "A"]),
        .part (.variableDeclaration true [.mk (.name "b" []) (some (.object ⟨151, 230⟩
          [.method 153 (.name 157 "b") (hidingFunction .accessor 179 "b" "B")]))])]⟩ }

theorem tour_hidingFunction (t : Setting) (around : List Node) (s : Scopes) (kind : FunctionKind)
    (noScope : opensScope kind = false) (start : Nat) (id text : String) :
    ∃ stops, Tours t.entered around s [.part (hidingFunction kind start id text)] stops s ∧
      ∃ body, ⟨body ++ .part (hidingFunction kind start id text) :: around, s.enter,
        .expr (messageElement start id text)⟩ ∈ stops := by
  have plain : Node.opened? (.part (hidingFunction kind start id text)) = none := by
    simp [hidingFunction, Node.opened?, noScope]
  have element (around : List Node) (s : Scopes) :
      ∃ stops, Tours t.entered around s [.expr (messageElement start id text)] stops s ∧
        ⟨around, s, .expr (messageElement start id text)⟩ ∈ stops :=
    ⟨_, .node rfl (.node rfl (.node rfl (.done _ _) (.done _ _)) <|
      .node rfl (.node rfl (.done _ _) (.done _ _)) (.done _ _)) (.done _ _), .head _⟩
  let body : List Node := [.part (.expr (messageElement start id text)),
    .part (.block [.expr (messageElement start id text)])]
  obtain ⟨stops, tour, member⟩ :=
    element (body ++ .part (hidingFunction kind start id text) :: around) s.enter
  refine ⟨_, .node plain (.node rfl (.done _ _) <| .scope rfl (.node rfl tour (.done _ _))
    (.done _ _)) (.done _ _), body, ?_⟩
  simpa using member

/-- The parameter of a constructor, or of the setter of an object, does not hide the import of its
name: the elements below it are extracted. -/
theorem scopeless_hides_nothing :
    (extract componentOptions .ok hidingSource).toOption.map
        (fun found => found.messages.map (·.id)) = some ["a", "b"] ∧
      ¬∀ options validate source stops last,
        let t := Setting.ofSource options validate source
        Tours t.entered [] .empty (nodesOf source.module) stops last →
          ∀ stop ∈ stops, ∀ site, stop.node.site? = some site →
            ∀ name, Recognizes t stop.scopes site name →
              ∀ outer ∈ stop.around, name ∉ outer.parameterNames := by
  refine ⟨rfl, fun hidden => ?_⟩
  let t := Setting.ofSource componentOptions .ok hidingSource
  obtain ⟨stops, last, tour, stop, member, outer, around, bound, site, found, recognizes⟩ :
      ∃ stops last, Tours t.entered [] .empty (nodesOf hidingSource.module) stops last ∧
        ∃ stop ∈ stops, ∃ outer ∈ stop.around, "FormattedMessage" ∈ outer.parameterNames ∧
          ∃ site, stop.node.site? = some site ∧
            Recognizes t stop.scopes site "FormattedMessage" := by
    obtain ⟨_, classTour, body, member⟩ :=
      tour_hidingFunction t [.part (.declaration "A" [hidingFunction .constructor 89 "a" "A"])]
        .empty .constructor rfl 89 "a" "A"
    obtain ⟨_, accessorTour, _⟩ :=
      tour_hidingFunction t _ .empty .accessor rfl 179 "b" "B"
    refine ⟨_, _, .node rfl (.done _ _) <| .node rfl classTour <| .node rfl (.node rfl
      (.node rfl (.done _ _) <| .node rfl (.node rfl (.node rfl (.done _ _) <|
        accessorTour) (.done _ _)) (.done _ _)) (.done _ _)) (.done _ _), _,
      .tail _ (.tail _ (List.mem_append_left _ member)), _,
      List.mem_append_right body List.mem_cons_self, by decide, _, rfl, ?_⟩
    exact .element (.inr (List.mem_singleton.mpr rfl)) rfl rfl
  exact hidden componentOptions .ok hidingSource stops last tour stop member site found
    "FormattedMessage" recognizes outer around bound

end MessageCatalog.Extraction
