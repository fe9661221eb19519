import MessageCatalog.Proofs.Script.Derivation

/-!
A reference evaluator for expressions, as a relation: it has no bound on its steps, and what a name
stands for is left to a resolver, which also says in which environment an initializer is read.
Folding agrees with it where names are bound alike.
-/

namespace MessageCatalog.Script

/-- The initializer that a name stands for, with the environment in which it is read. -/
abbrev Resolver (E : Type) := E → String → Option (Expr × E)

mutual

inductive Evaluates {E : Type} (resolve : Resolver E) : E → Expr → Value → Prop
  | literal {env start value} : Evaluates resolve env (.literal start value) value
  | name {env start name init inner value} : resolve env name = some (init, inner) →
      Evaluates resolve inner init value → Evaluates resolve env (.ident start name) value
  | template {env start chunks holes text} : EvaluatesTemplate resolve env chunks holes text →
      Evaluates resolve env (.template start chunks holes) (.text text)
  | paren {env start inner value} : Evaluates resolve env inner value →
      Evaluates resolve env (.paren start inner) value
  | typed {env start inner inType value} : Evaluates resolve env inner value →
      Evaluates resolve env (.typed start inner inType) value
  | unary {env start op operand value} : Evaluates resolve env operand value →
      Evaluates resolve env (.unary start op operand) (op.apply value)
  | decided {env start op left right value result} : Evaluates resolve env left value →
      op.decided? value = some result → Evaluates resolve env (.binary start op left right) result
  | binary {env start op left right value other} : Evaluates resolve env left value →
      op.decided? value = none → Evaluates resolve env right other →
      Evaluates resolve env (.binary start op left right) (op.apply value other)
  | yes {env start test yes no value result} : Evaluates resolve env test value →
      value.isTruthy = true → Evaluates resolve env yes result →
      Evaluates resolve env (.conditional start test yes no) result
  | no {env start test yes no value result} : Evaluates resolve env test value →
      value.isTruthy = false → Evaluates resolve env no result →
      Evaluates resolve env (.conditional start test yes no) result

inductive EvaluatesTemplate {E : Type} (resolve : Resolver E) :
    E → List (Option String) → List Expr → String → Prop
  | nil {env holes} : EvaluatesTemplate resolve env [] holes ""
  | chunk {env chunk chunks text} : EvaluatesTemplate resolve env chunks [] text →
      EvaluatesTemplate resolve env (some chunk :: chunks) [] (chunk ++ text)
  | hole {env chunk chunks hole holes value text} : Evaluates resolve env hole value →
      EvaluatesTemplate resolve env chunks holes text →
      EvaluatesTemplate resolve env (some chunk :: chunks) (hole :: holes)
        (chunk ++ value.toText ++ text)

end

variable {E : Type} {resolve : Resolver E}

mutual

theorem Evaluates.unique : ∀ {env : E} {e : Expr} {first second : Value},
    Evaluates resolve env e first → Evaluates resolve env e second → first = second
  | _, _, _, _, .literal, .literal => rfl
  | _, _, _, _, .name found inner, .name otherFound other => by
      rw [found] at otherFound
      cases otherFound
      exact inner.unique other
  | _, _, _, _, .template text, .template other => by rw [text.unique other]
  | _, _, _, _, .paren inner, .paren other => inner.unique other
  | _, _, _, _, .typed inner, .typed other => inner.unique other
  | _, _, _, _, .unary inner, .unary other => by rw [inner.unique other]
  | _, _, _, _, .decided inner found, .decided other otherFound => by
      rw [inner.unique other, otherFound] at found
      exact (Option.some.inj found).symm
  | _, _, _, _, .decided inner found, .binary other undecided _ => by
      rw [inner.unique other, undecided] at found
      cases found
  | _, _, _, _, .binary inner undecided _, .decided other found => by
      rw [inner.unique other, found] at undecided
      cases undecided
  | _, _, _, _, .binary inner _ operand, .binary other _ otherOperand => by
      rw [inner.unique other, operand.unique otherOperand]
  | _, _, _, _, .yes _ _ branch, .yes _ _ other => branch.unique other
  | _, _, _, _, .yes test truthy _, .no otherTest falsy _ => by
      rw [test.unique otherTest, falsy] at truthy
      cases truthy
  | _, _, _, _, .no test falsy _, .yes otherTest truthy _ => by
      rw [test.unique otherTest, truthy] at falsy
      cases falsy
  | _, _, _, _, .no _ _ branch, .no _ _ other => branch.unique other

theorem EvaluatesTemplate.unique : ∀ {env : E} {chunks : List (Option String)} {holes : List Expr}
    {first second : String}, EvaluatesTemplate resolve env chunks holes first →
    EvaluatesTemplate resolve env chunks holes second → first = second
  | _, _, _, _, _, .nil, .nil => rfl
  | _, _, _, _, _, .chunk rest, .chunk other => by rw [rest.unique other]
  | _, _, _, _, _, .hole value rest, .hole otherValue other => by
      rw [value.unique otherValue, rest.unique other]

end

mutual

/-- The names that folding an expression can look up, before it goes on with an initializer. -/
def Expr.names : Expr → List String
  | .ident _ name => [name]
  | .template _ _ holes => Expr.namesOfAll holes
  | .paren _ inner => inner.names
  | .typed _ inner _ => inner.names
  | .unary _ _ operand => operand.names
  | .binary _ _ left right => left.names ++ right.names
  | .conditional _ test yes no => test.names ++ (yes.names ++ no.names)
  | _ => []

def Expr.namesOfAll : List Expr → List String
  | [] => []
  | first :: rest => first.names ++ Expr.namesOfAll rest

end

theorem names_subset_namesOfAll {part : Expr} {holes : List Expr} (member : part ∈ holes) :
    part.names ⊆ Expr.namesOfAll holes := by
  induction holes with
  | nil => simp at member
  | cons first rest ih =>
      rw [Expr.namesOfAll]
      rcases List.mem_cons.mp member with rfl | later
      · exact List.subset_append_left _ _
      · exact List.subset_append_of_subset_right _ (ih later)

inductive InReach (resolve : Resolver E) (env : E) (names : List String) : Expr → E → Prop
  | first {name init inner} : name ∈ names → resolve env name = some (init, inner) →
      InReach resolve env names init inner
  | next {init inner name other deeper} : InReach resolve env names init inner →
      name ∈ init.names → resolve inner name = some (other, deeper) →
      InReach resolve env names other deeper

theorem InReach.mono {env : E} {names more : List String} {init : Expr} {inner : E}
    (subset : names ⊆ more) (reached : InReach resolve env names init inner) :
    InReach resolve env more init inner := by
  induction reached with
  | first member found => exact .first (subset member) found
  | next _ member found ih => exact .next ih member found

theorem InReach.of_init {env inner deeper : E} {names : List String} {init other : Expr}
    {name : String} (member : name ∈ names) (found : resolve env name = some (init, inner))
    (reached : InReach resolve inner init.names other deeper) :
    InReach resolve env names other deeper := by
  induction reached with
  | first inside next => exact .next (.first member found) inside next
  | next _ inside next ih => exact .next ih inside next

theorem InReach.invariant {env : E} {names : List String} {P : Expr → E → Prop}
    (start : ∀ name ∈ names, ∀ init inner, resolve env name = some (init, inner) → P init inner)
    (step : ∀ init inner, P init inner → ∀ name ∈ init.names, ∀ other deeper,
      resolve inner name = some (other, deeper) → P other deeper)
    {init : Expr} {inner : E} (reached : InReach resolve env names init inner) : P init inner := by
  induction reached with
  | first member found => exact start _ member _ _ found
  | next _ member found ih => exact step _ _ ih _ member _ _ found

def Constants.binding? (constants : Constants) (name : String) : Option Expr :=
  match globalValue? name with
  | some value => some (.literal 0 value)
  | none => constants.lookup name

def Scopes.binding? (constants : Constants) (scopes : Scopes) (name : String) : Option Expr :=
  match scopes.find? name with
  | some init => init
  | none => constants.binding? name

theorem Scopes.isShadowed_eq (scopes : Scopes) (name : String) :
    scopes.isShadowed name = (scopes.find? name).isSome := by
  exact List.isSome_findSome?.symm

variable {constants : Constants} {scopes : Scopes}

theorem Scopes.binding?_of_shadowed (constants : Constants) {name : String}
    (shadowed : scopes.isShadowed name = true) :
    scopes.binding? constants name = scopes.constInit? name := by
  rw [Scopes.isShadowed_eq, Option.isSome_iff_exists] at shadowed
  obtain ⟨init, found⟩ := shadowed
  rw [Scopes.binding?, Scopes.constInit?, found, Option.join_some]

theorem Scopes.binding?_of_free (constants : Constants) {name : String}
    (free : scopes.isShadowed name = false) :
    scopes.binding? constants name = constants.binding? name := by
  rw [Scopes.isShadowed_eq, Option.isSome_eq_false_iff, Option.isNone_iff_eq_none] at free
  rw [Scopes.binding?, free]

/-- Some names, and those of all initializers in their reach, are bound as in the open scopes. -/
structure Agrees (resolve : Resolver E) (constants : Constants) (scopes : Scopes) (env : E)
    (names : List String) : Prop where
  here : ∀ name ∈ names, (resolve env name).map Prod.fst = scopes.binding? constants name
  reached : ∀ init inner, InReach resolve env names init inner → ∀ name ∈ init.names,
    (resolve inner name).map Prod.fst = scopes.binding? constants name

theorem Agrees.mono {env : E} {names more : List String}
    (agrees : Agrees resolve constants scopes env more) (subset : names ⊆ more) :
    Agrees resolve constants scopes env names :=
  ⟨fun name member => agrees.here name (subset member),
    fun init inner reached => agrees.reached init inner (reached.mono subset)⟩

theorem Agrees.init {env inner : E} {names : List String} {name : String} {init : Expr}
    (agrees : Agrees resolve constants scopes env names) (member : name ∈ names)
    (found : resolve env name = some (init, inner)) :
    Agrees resolve constants scopes inner init.names :=
  ⟨agrees.reached init inner (.first member found),
    fun other deeper reached => agrees.reached other deeper (.of_init member found reached)⟩

theorem Agrees.resolves {env : E} {names : List String} {name : String} {init : Expr}
    (agrees : Agrees resolve constants scopes env names) (member : name ∈ names)
    (bound : scopes.binding? constants name = some init) :
    ∃ inner, resolve env name = some (init, inner) := by
  have same := agrees.here name member
  rw [bound] at same
  obtain ⟨⟨_, inner⟩, resolved, rfl⟩ := Option.map_eq_some_iff.mp same
  exact ⟨inner, resolved⟩

mutual

theorem Derivation.evaluates : ∀ {env : E} {e : Expr} {value : Value},
    Derivation constants scopes e value → Agrees resolve constants scopes env e.names →
      Evaluates resolve env e value
  | _, _, _, .literal, _ => .literal
  | _, .ident _ name, _, .localConstant shadowed found init, agrees => by
      have member : name ∈ [name] := List.mem_singleton_self name
      have bound := (scopes.binding?_of_shadowed constants shadowed).trans found
      obtain ⟨inner, resolved⟩ := agrees.resolves member bound
      exact .name resolved (init.evaluates (agrees.init member resolved))
  | _, .ident _ name, _, .global free known, agrees => by
      have member : name ∈ [name] := List.mem_singleton_self name
      have bound := scopes.binding?_of_free constants free
      rw [Constants.binding?, known] at bound
      obtain ⟨inner, resolved⟩ := agrees.resolves member bound
      exact .name resolved .literal
  | _, .ident _ name, _, .moduleConstant free unknown found init, agrees => by
      have member : name ∈ [name] := List.mem_singleton_self name
      have bound := scopes.binding?_of_free constants free
      rw [Constants.binding?, unknown] at bound
      obtain ⟨inner, resolved⟩ := agrees.resolves member (bound.trans found)
      exact .name resolved (init.evaluates (agrees.init member resolved))
  | _, _, _, .template holes, agrees => .template (holes.evaluates agrees)
  | _, _, _, .paren inner, agrees => .paren (inner.evaluates agrees)
  | _, _, _, .typed inner, agrees => .typed (inner.evaluates agrees)
  | _, _, _, .unary operand, agrees => .unary (operand.evaluates agrees)
  | _, _, _, .decided decided left, agrees =>
      .decided (left.evaluates (agrees.mono (List.subset_append_left _ _))) decided
  | _, _, _, .binary undecided left right, agrees =>
      .binary (left.evaluates (agrees.mono (List.subset_append_left _ _))) undecided
        (right.evaluates (agrees.mono (List.subset_append_right _ _)))
  | _, .conditional _ test yes no, _, .yes truthy first branch, agrees => by
      have later := agrees.mono (List.subset_append_right test.names (yes.names ++ no.names))
      exact .yes (first.evaluates (agrees.mono (List.subset_append_left _ _))) truthy
        (branch.evaluates (later.mono (List.subset_append_left _ _)))
  | _, .conditional _ test yes no, _, .no falsy first branch, agrees => by
      have later := agrees.mono (List.subset_append_right test.names (yes.names ++ no.names))
      exact .no (first.evaluates (agrees.mono (List.subset_append_left _ _))) falsy
        (branch.evaluates (later.mono (List.subset_append_right _ _)))

theorem TemplateDerivation.evaluates : ∀ {env : E} {chunks : List (Option String)}
    {holes : List Expr} {text : String}, TemplateDerivation constants scopes chunks holes text →
      Agrees resolve constants scopes env (Expr.namesOfAll holes) →
        EvaluatesTemplate resolve env chunks holes text
  | _, _, _, _, .nil, _ => .nil
  | _, _, _, _, .chunk rest, agrees => .chunk (rest.evaluates agrees)
  | _, _, _, _, .hole value rest, agrees =>
      .hole (value.evaluates (agrees.mono (List.subset_append_left _ _)))
        (rest.evaluates (agrees.mono (List.subset_append_right _ _)))

end

theorem fold_evaluates {fuel : Nat} {env : E} {e : Expr} {value : Value}
    (agrees : Agrees resolve constants scopes env e.names)
    (folded : e.foldWithin constants scopes fuel = some value) : Evaluates resolve env e value := by
  obtain ⟨tree, _⟩ := derives_of_fold folded
  exact tree.evaluates agrees

end MessageCatalog.Script
