import MessageCatalog.Proofs.Script.Evaluation

/-!
Where the names in an initializer are looked up. A local constant is folded in the scopes that are
open where it is used; a lexical environment keeps with each constant the bindings that are visible
where it is declared. Both give a constant the same value unless a name in reach is bound anew in
between.
-/

namespace MessageCatalog.Script

inductive ScopeStep where
  | enter
  | exit
  | declare (name : String)
  | declareConst (name : String) (init : Expr)
  | declarePattern (pattern : Pattern)

def Scopes.apply (s : Scopes) : ScopeStep → Scopes
  | .enter => s.enter
  | .exit => s.exit
  | .declare name => s.declare name
  | .declareConst name init => s.declareConst name init
  | .declarePattern pattern => s.declarePattern pattern

def Scopes.run (steps : List ScopeStep) : Scopes :=
  steps.foldl Scopes.apply .empty

/-- Open scopes, the innermost first, whose constants come with the environment of their
declaration. -/
structure Env where
  opened : List (List (String × Option (Expr × Env)))

namespace Env

def empty : Env :=
  ⟨[]⟩

def add (env : Env) (name : String) (closure : Option (Expr × Env)) : Env :=
  match env.opened with
  | [] => env
  | innermost :: outer => ⟨((name, closure) :: innermost) :: outer⟩

def declareNames (env : Env) (names : List String) : Env :=
  names.foldl (fun env name => env.add name none) env

def apply (env : Env) : ScopeStep → Env
  | .enter => ⟨[] :: env.opened⟩
  | .exit => ⟨env.opened.tail⟩
  | .declare name => env.add name none
  | .declareConst name init => env.add name (some (init, env))
  | .declarePattern pattern => env.declareNames pattern.names

def run (steps : List ScopeStep) : Env :=
  steps.foldl apply empty

def find? (env : Env) (name : String) : Option (Option (Expr × Env)) :=
  env.opened.findSome? fun scope => scope.lookup name

def bareScope (scope : List (String × Option (Expr × Env))) : Scope :=
  scope.map fun (name, closure) => (name, closure.map Prod.fst)

def bare (env : Env) : Scopes :=
  ⟨env.opened.map bareScope⟩

theorem bare_add (env : Env) (name : String) (closure : Option (Expr × Env)) :
    (env.add name closure).bare = env.bare.add name (closure.map Prod.fst) := by
  obtain ⟨opened⟩ := env
  cases opened with
  | nil => rfl
  | cons innermost outer => rfl

theorem bare_declareNames (env : Env) (names : List String) :
    (env.declareNames names).bare = env.bare.declareNames names := by
  induction names generalizing env with
  | nil => rfl
  | cons name names ih =>
      have first := bare_add env name none
      simp only [declareNames, List.foldl_cons, Scopes.declareNames] at ih ⊢
      rw [ih, first]
      rfl

theorem bare_apply (env : Env) (step : ScopeStep) :
    (env.apply step).bare = env.bare.apply step := by
  cases step with
  | enter => rfl
  | exit => simp [apply, bare, Scopes.apply, Scopes.exit, List.map_tail]
  | declare name => exact bare_add env name none
  | declareConst name init => exact bare_add env name (some (init, env))
  | declarePattern pattern => exact bare_declareNames env pattern.names

theorem bare_run (steps : List ScopeStep) : (run steps).bare = Scopes.run steps := by
  have general : ∀ env : Env, (steps.foldl apply env).bare = steps.foldl Scopes.apply env.bare := by
    induction steps with
    | nil => intro env; rfl
    | cons step steps ih =>
        intro env
        rw [List.foldl_cons, List.foldl_cons, ih, bare_apply]
  exact general empty

theorem lookup_map {α β : Type} (change : α → β) (entries : List (String × α)) (key : String) :
    (entries.map fun (found, value) => (found, change value)).lookup key =
      (entries.lookup key).map change := by
  induction entries with
  | nil => rfl
  | cons entry rest ih =>
      obtain ⟨found, value⟩ := entry
      simp only [List.map_cons, List.lookup_cons]
      split
      · rfl
      · exact ih

theorem lookup_bareScope (scope : List (String × Option (Expr × Env))) (name : String) :
    (bareScope scope).lookup name = (scope.lookup name).map (Option.map Prod.fst) := by
  exact lookup_map (Option.map Prod.fst) scope name

theorem bare_find? (env : Env) (name : String) :
    env.bare.find? name = (env.find? name).map (Option.map Prod.fst) := by
  obtain ⟨opened⟩ := env
  unfold bare Scopes.find? find?
  induction opened with
  | nil => rfl
  | cons innermost outer ih =>
      simp only [List.map_cons, List.findSome?_cons, lookup_bareScope] at ih ⊢
      cases innermost.lookup name with
      | none => exact ih
      | some closure => rfl

end Env

/-- The initializer of a local constant is read in the scopes open at its use, that of a module
constant where no local scope is open. -/
def atUse (constants : Constants) : Resolver Scopes :=
  fun scopes name =>
    match scopes.find? name with
    | some init => init.map fun init => (init, scopes)
    | none => (constants.binding? name).map fun init => (init, .empty)

/-- The initializer of a local constant is read with the bindings visible at its declaration, that
of a module constant with those of the module only. -/
def lexical (constants : Constants) : Resolver Env :=
  fun env name =>
    match env.find? name with
    | some closure => closure
    | none => (constants.binding? name).map fun init => (init, .empty)

variable {constants : Constants}

theorem atUse_binding (scopes : Scopes) (name : String) :
    (atUse constants scopes name).map Prod.fst = scopes.binding? constants name := by
  unfold atUse Scopes.binding?
  cases scopes.find? name with
  | none => simp [Function.comp_def]
  | some init => simp [Function.comp_def]

theorem lexical_binding (env : Env) (name : String) :
    (lexical constants env name).map Prod.fst = env.bare.binding? constants name := by
  unfold lexical Scopes.binding?
  rw [Env.bare_find?]
  cases env.find? name with
  | none => simp [Function.comp_def]
  | some closure => rfl

/-- No open scope declares a name that is read in a module constant in the reach of some names. -/
def ModuleApart (constants : Constants) (scopes : Scopes) (names : List String) : Prop :=
  ∀ init, InReach (atUse constants) scopes names init .empty →
    ∀ name ∈ init.names, scopes.isShadowed name = false

/-- Each name in the reach of some names is bound in the open scopes as it is where it is written. -/
def BoundAsWritten (constants : Constants) (scopes : Scopes) (env : Env) (names : List String) :
    Prop :=
  ∀ init inner, InReach (lexical constants) env names init inner →
    ∀ name ∈ init.names, inner.bare.binding? constants name = scopes.binding? constants name

theorem atUse_scopes {scopes inner : Scopes} {name : String} {init : Expr}
    (found : atUse constants scopes name = some (init, inner)) :
    inner = scopes ∨ inner = .empty := by
  unfold atUse at found
  split at found
  · obtain ⟨_, _, same⟩ := Option.map_eq_some_iff.mp found
    exact .inl (Prod.mk.inj same).2.symm
  · obtain ⟨_, _, same⟩ := Option.map_eq_some_iff.mp found
    exact .inr (Prod.mk.inj same).2.symm

theorem inReach_atUse {scopes inner : Scopes} {names : List String} {init : Expr}
    (reached : InReach (atUse constants) scopes names init inner) :
    inner = scopes ∨ inner = .empty := by
  induction reached with
  | first _ found => exact atUse_scopes found
  | next _ _ found ih =>
      rcases atUse_scopes found with rfl | empty
      · exact ih
      · exact .inr empty

theorem empty_binding {scopes : Scopes} {name : String} (free : scopes.isShadowed name = false) :
    Scopes.empty.binding? constants name = scopes.binding? constants name := by
  rw [scopes.binding?_of_free constants free]
  rfl

theorem agrees_atUse {scopes : Scopes} {names : List String}
    (apart : ModuleApart constants scopes names) :
    Agrees (atUse constants) constants scopes scopes names := by
  refine ⟨fun name _ => atUse_binding scopes name, ?_⟩
  intro init inner reached name member
  rw [atUse_binding]
  rcases inReach_atUse reached with rfl | rfl
  · rfl
  · exact empty_binding (apart init reached name member)

theorem agrees_lexical {steps : List ScopeStep} {names : List String}
    (bound : BoundAsWritten constants (Scopes.run steps) (Env.run steps) names) :
    Agrees (lexical constants) constants (Scopes.run steps) (Env.run steps) names := by
  refine ⟨?_, ?_⟩
  · intro name _
    rw [lexical_binding, Env.bare_run]
  · intro init inner reached name member
    rw [lexical_binding]
    exact bound init inner reached name member

/-- What an expression folds to is its only value with the initializers of local constants read
where they are used, if no open scope gets in the way of a module constant; and with initializers
read where they are written, if no name in reach is bound otherwise there. -/
theorem fold_scoped (m : Module) (steps : List ScopeStep) (e : Expr) (value : Value)
    (folded : e.fold (.ofModule m) (Scopes.run steps) = some value) :
    (ModuleApart (.ofModule m) (Scopes.run steps) e.names →
      ∀ other, Evaluates (atUse (.ofModule m)) (Scopes.run steps) e other ↔ other = value) ∧
    (BoundAsWritten (.ofModule m) (Scopes.run steps) (Env.run steps) e.names →
      ∀ other, Evaluates (lexical (.ofModule m)) (Env.run steps) e other ↔ other = value) := by
  constructor
  · intro apart other
    have evaluates := fold_evaluates (agrees_atUse apart) folded
    exact ⟨fun found => found.unique evaluates, fun same => same ▸ evaluates⟩
  · intro bound other
    have evaluates := fold_evaluates (agrees_lexical bound) folded
    exact ⟨fun found => found.unique evaluates, fun same => same ▸ evaluates⟩

def greetingInit : Expr :=
  .binary 0 .add (.ident 0 "title") (.literal 0 (.text "!"))

def titleModule : Module :=
  ⟨[.part (.variableDeclaration true [.mk (.name "title" []) (some (.literal 0 (.text "Mail")))])]⟩

def greetingSteps : List ScopeStep :=
  [.enter, .declareConst "greeting" greetingInit]

theorem reach_greeting {E : Type} {resolve : Resolver E} {env captured outermost inner : E}
    {init : Expr} (greeting : resolve env "greeting" = some (greetingInit, captured))
    (title : resolve captured "title" = some (.literal 0 (.text "Mail"), outermost))
    (reached : InReach resolve env ["greeting"] init inner) :
    init = greetingInit ∧ inner = captured ∨ init.names = [] := by
  apply reached.invariant
  · intro name member init inner found
    obtain rfl := List.mem_singleton.mp member
    rw [greeting] at found
    cases found
    exact .inl ⟨rfl, rfl⟩
  · rintro init inner (⟨rfl, rfl⟩ | closed) name member other deeper found
    · obtain rfl : name = "title" := by simpa [greetingInit, Expr.names] using member
      rw [title] at found
      cases found
      exact .inr rfl
    · simp [closed] at member

theorem fold_scoped_greeting :
    (Expr.ident 0 "greeting").fold (.ofModule titleModule) (Scopes.run greetingSteps) =
        some (.text "Mail!") ∧
      (∀ other, Evaluates (atUse (.ofModule titleModule)) (Scopes.run greetingSteps)
        (.ident 0 "greeting") other ↔ other = .text "Mail!") ∧
      ∀ other, Evaluates (lexical (.ofModule titleModule)) (Env.run greetingSteps)
        (.ident 0 "greeting") other ↔ other = .text "Mail!" := by
  have folded : (Expr.ident 0 "greeting").fold (.ofModule titleModule) (Scopes.run greetingSteps) =
      some (.text "Mail!") := rfl
  have both := fold_scoped titleModule greetingSteps (.ident 0 "greeting") (.text "Mail!") folded
  refine ⟨folded, both.1 ?_, both.2 ?_⟩
  · intro init reached name member
    rcases reach_greeting rfl rfl reached with ⟨_, noScope⟩ | closed
    · cases noScope
    · simp [closed] at member
  · intro init inner reached name member
    rcases reach_greeting rfl rfl reached with ⟨rfl, rfl⟩ | closed
    · obtain rfl : name = "title" := by simpa [greetingInit, Expr.names] using member
      rfl
    · simp [closed] at member

def shadowingSteps : List ScopeStep :=
  [.enter, .declareConst "b" (.literal 0 (.text "outer")), .declareConst "a" (.ident 0 "b"),
    .enter, .declareConst "b" (.literal 0 (.text "inner"))]

theorem fold_not_lexical :
    (Expr.ident 0 "a").fold (.ofModule ⟨[]⟩) (Scopes.run shadowingSteps) = some (.text "inner") ∧
      ∀ value, Evaluates (lexical (.ofModule ⟨[]⟩)) (Env.run shadowingSteps) (.ident 0 "a") value ↔
        value = .text "outer" := by
  refine ⟨rfl, ?_⟩
  have outer : Evaluates (lexical (.ofModule ⟨[]⟩)) (Env.run shadowingSteps) (.ident 0 "a")
      (.text "outer") :=
    .name rfl (.name rfl .literal)
  exact fun value => ⟨fun found => found.unique outer, fun same => same ▸ outer⟩

end MessageCatalog.Script
