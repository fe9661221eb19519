import MessageCatalog.Extraction.Call
import MessageCatalog.Proofs.Script.Derivation
import MessageCatalog.Proofs.Script.Scoping

/-!
Syntax trees without their wrappers. Parentheses and assertions about types add nothing to the value
of an expression; they only take depth. So an expression that folds has the same value when all its
wrappers, and all those in the constants it may lead to, are taken away; and what folds without them
folds with them as well, if there is depth enough.
-/

namespace MessageCatalog.Script

mutual

/-- An expression with every parenthesis and every assertion about a type replaced by what stands in
it, everywhere below. -/
def Expr.stripped : Expr → Expr
  | .ident start name => .ident start name
  | .literal start value => .literal start value
  | .template start chunks holes => .template start chunks (Expr.strippedAll holes)
  | .paren _ inner => inner.stripped
  | .typed _ inner _ => inner.stripped
  | .unary start op operand => .unary start op operand.stripped
  | .binary start op left right => .binary start op left.stripped right.stripped
  | .conditional start test yes no => .conditional start test.stripped yes.stripped no.stripped
  | .member start object name => .member start object.stripped name
  | .index start object key => .index start object.stripped key.stripped
  | .call start callee arguments inType =>
      .call start callee.stripped (Argument.strippedAll arguments) (Expr.strippedAll inType)
  | .object span properties => .object span (Property.strippedAll properties)
  | .element element => .element element.stripped
  | .other start parts => .other start (Part.strippedAll parts)

def Expr.strippedAll : List Expr → List Expr
  | [] => []
  | first :: rest => first.stripped :: Expr.strippedAll rest

def Argument.stripped : Argument → Argument
  | .plain value => .plain value.stripped
  | .spread value => .spread value.stripped

def Argument.strippedAll : List Argument → List Argument
  | [] => []
  | first :: rest => first.stripped :: Argument.strippedAll rest

def Key.stripped : Key → Key
  | .name start text => .name start text
  | .literal start value => .literal start value
  | .bigInteger start => .bigInteger start
  | .computed start value => .computed start value.stripped

def Property.stripped : Property → Property
  | .keyed key value => .keyed key.stripped value.stripped
  | .shorthand start name => .shorthand start name
  | .assigned start name value => .assigned start name value.stripped
  | .method start key function => .method start key.stripped function.stripped
  | .spread start value => .spread start value.stripped

def Property.strippedAll : List Property → List Property
  | [] => []
  | first :: rest => first.stripped :: Property.strippedAll rest

def AttributeValue.stripped : AttributeValue → AttributeValue
  | .missing => .missing
  | .text start content => .text start content
  | .braces start value => .braces start value.stripped
  | .markup start value => .markup start value.stripped

def Attribute.stripped : Attribute → Attribute
  | .named span name value => .named span name value.stripped
  | .spread value => .spread value.stripped

def Attribute.strippedAll : List Attribute → List Attribute
  | [] => []
  | first :: rest => first.stripped :: Attribute.strippedAll rest

def Element.stripped : Element → Element
  | .mk start tag attributes inType children =>
      .mk start tag (Attribute.strippedAll attributes) (Expr.strippedAll inType)
        (Expr.strippedAll children)

def Pattern.stripped : Pattern → Pattern
  | .name text inType => .name text (Expr.strippedAll inType)
  | .withDefault target value => .withDefault target.stripped value.stripped
  | .group parts => .group (Pattern.strippedAll parts)
  | .expr value => .expr value.stripped

def Pattern.strippedAll : List Pattern → List Pattern
  | [] => []
  | first :: rest => first.stripped :: Pattern.strippedAll rest

def Declarator.stripped : Declarator → Declarator
  | .mk target none => .mk target.stripped none
  | .mk target (some init) => .mk target.stripped (some init.stripped)

def Declarator.strippedAll : List Declarator → List Declarator
  | [] => []
  | first :: rest => first.stripped :: Declarator.strippedAll rest

def Part.stripped : Part → Part
  | .expr value => .expr value.stripped
  | .variableDeclaration constant declarators =>
      .variableDeclaration constant (Declarator.strippedAll declarators)
  | .declaration name parts => .declaration name (Part.strippedAll parts)
  | .function kind parameters parts =>
      .function kind (Pattern.strippedAll parameters) (Part.strippedAll parts)
  | .block parts => .block (Part.strippedAll parts)
  | .catching none parts => .catching none (Part.strippedAll parts)
  | .catching (some parameter) parts =>
      .catching (some parameter.stripped) (Part.strippedAll parts)
  | .group parts => .group (Part.strippedAll parts)

def Part.strippedAll : List Part → List Part
  | [] => []
  | first :: rest => first.stripped :: Part.strippedAll rest

end

def Item.stripped : Item → Item
  | .imports declaration => .imports declaration
  | .part value => .part value.stripped

def Module.stripped (m : Module) : Module :=
  ⟨m.items.map Item.stripped⟩

def Constants.stripped (constants : Constants) : Constants :=
  constants.map fun (name, init) => (name, init.stripped)

def Scopes.stripped (s : Scopes) : Scopes :=
  ⟨s.opened.map fun scope => scope.map fun (name, init) => (name, init.map Expr.stripped)⟩

def ScopeStep.stripped : ScopeStep → ScopeStep
  | .enter => .enter
  | .exit => .exit
  | .declare name => .declare name
  | .declareConst name init => .declareConst name init.stripped
  | .declarePattern pattern => .declarePattern pattern.stripped

variable {constants : Constants} {scopes : Scopes}

theorem Constants.lookup_stripped (constants : Constants) (name : String) :
    constants.stripped.lookup name = (constants.lookup name).map Expr.stripped := by
  exact Env.lookup_map Expr.stripped constants name

theorem Scopes.find?_stripped (scopes : Scopes) (name : String) :
    scopes.stripped.find? name = (scopes.find? name).map (Option.map Expr.stripped) := by
  obtain ⟨opened⟩ := scopes
  unfold stripped find?
  induction opened with
  | nil => rfl
  | cons innermost outer ih =>
      simp only [List.map_cons, List.findSome?_cons, Env.lookup_map]
      cases innermost.lookup name with
      | none => exact ih
      | some init => rfl

theorem Scopes.isShadowed_stripped (scopes : Scopes) (name : String) :
    scopes.stripped.isShadowed name = scopes.isShadowed name := by
  rw [isShadowed_eq, isShadowed_eq, find?_stripped, Option.isSome_map]

theorem Scopes.constInit?_stripped (scopes : Scopes) (name : String) :
    scopes.stripped.constInit? name = (scopes.constInit? name).map Expr.stripped := by
  unfold constInit?
  rw [find?_stripped]
  cases scopes.find? name with
  | none => rfl
  | some init => rfl

/-! ### Depth -/

theorem foldWithin_mono {fuel more : Nat} {e : Expr} {value : Value} (enough : fuel ≤ more)
    (folded : e.foldWithin constants scopes fuel = some value) :
    e.foldWithin constants scopes more = some value := by
  obtain ⟨tree, stays⟩ := derives_of_fold folded
  apply tree.folds
  intro place member
  have near := stays place member
  omega

mutual

/-- A derivation can be followed without the wrappers, on a way that is nowhere deeper. -/
theorem Derivation.strips : ∀ {fuel : Nat} {e : Expr} {value : Value}
    (tree : Derivation constants scopes e value), StayWithin fuel tree.evaluated →
      e.stripped.foldWithin constants.stripped scopes.stripped fuel = some value
  | 0, _, _, tree, stays => absurd (stays _ tree.place_self) (Nat.not_lt_zero _)
  | fuel + 1, _, _, .literal, _ => rfl
  | fuel + 1, .ident start name, _, .localConstant shadowed found init, stays => by
      rw [Derivation.evaluated, stayWithin_deeper] at stays
      have shadowedStill := (scopes.isShadowed_stripped name).trans shadowed
      rw [Expr.stripped, Expr.foldWithin, if_pos shadowedStill, scopes.constInit?_stripped, found]
      exact init.strips stays
  | fuel + 1, .ident start name, _, .global free known, _ => by
      have freeStill := (scopes.isShadowed_stripped name).trans free
      rw [Expr.stripped, Expr.foldWithin, if_neg (by simp [freeStill]), known]
  | fuel + 1, .ident start name, _, .moduleConstant free unknown found init, stays => by
      rw [Derivation.evaluated, stayWithin_deeper] at stays
      have freeStill := (scopes.isShadowed_stripped name).trans free
      rw [Expr.stripped, Expr.foldWithin, if_neg (by simp [freeStill]), unknown,
        constants.lookup_stripped, found]
      exact init.strips stays
  | fuel + 1, _, _, .template holes, stays => by
      rw [Derivation.evaluated, stayWithin_deeper] at stays
      rw [Expr.stripped, Expr.foldWithin, holes.strips stays]
      rfl
  | fuel + 1, _, _, .paren inner, stays => by
      rw [Derivation.evaluated, stayWithin_deeper] at stays
      exact foldWithin_mono (Nat.le_succ fuel) (inner.strips stays)
  | fuel + 1, _, _, .typed inner, stays => by
      rw [Derivation.evaluated, stayWithin_deeper] at stays
      exact foldWithin_mono (Nat.le_succ fuel) (inner.strips stays)
  | fuel + 1, _, _, .unary operand, stays => by
      rw [Derivation.evaluated, stayWithin_deeper] at stays
      rw [Expr.stripped, Expr.foldWithin, operand.strips stays]
      rfl
  | fuel + 1, _, _, .decided decided left, stays => by
      rw [Derivation.evaluated, stayWithin_deeper] at stays
      rw [Expr.stripped, Expr.foldWithin, left.strips stays]
      simp only [decided]
  | fuel + 1, _, _, .binary undecided left right, stays => by
      rw [Derivation.evaluated, stayWithin_deeper, stayWithin_append] at stays
      rw [Expr.stripped, Expr.foldWithin, left.strips stays.1]
      simp only [undecided, right.strips stays.2, Option.map_some]
  | fuel + 1, _, _, .yes truthy test branch, stays => by
      rw [Derivation.evaluated, stayWithin_deeper, stayWithin_append] at stays
      rw [Expr.stripped, Expr.foldWithin, test.strips stays.1]
      exact (if_pos truthy).trans (branch.strips stays.2)
  | fuel + 1, _, _, .no falsy test branch, stays => by
      rw [Derivation.evaluated, stayWithin_deeper, stayWithin_append] at stays
      rw [Expr.stripped, Expr.foldWithin, test.strips stays.1]
      exact (if_neg (by simp [falsy])).trans (branch.strips stays.2)

theorem TemplateDerivation.strips : ∀ {fuel : Nat} {chunks : List (Option String)}
    {holes : List Expr} {text : String} (tree : TemplateDerivation constants scopes chunks holes text),
    StayWithin fuel tree.evaluated →
      templateText (Expr.foldWithin constants.stripped scopes.stripped fuel) chunks
        (Expr.strippedAll holes) = some text
  | _, _, _, _, .nil, _ => rfl
  | _, _, _, _, .chunk rest, stays => by
      have later := rest.strips stays
      rw [Expr.strippedAll] at later ⊢
      rw [templateText, later]
      rfl
  | _, _, _, _, .hole value rest, stays => by
      rw [TemplateDerivation.evaluated, stayWithin_append] at stays
      rw [Expr.strippedAll, templateText, value.strips stays.1, rest.strips stays.2]
      rfl

end

theorem template_of_stripped {hole : Expr → Option Value} {chunks : List (Option String)}
    {holes : List Expr} {text : String}
    (derived : ∀ part value, hole part.stripped = some value →
      Nonempty (Derivation constants scopes part value))
    (found : templateText hole chunks (Expr.strippedAll holes) = some text) :
    Nonempty (TemplateDerivation constants scopes chunks holes text) := by
  induction chunks generalizing holes text with
  | nil =>
      cases found
      exact ⟨.nil⟩
  | cons chunk chunks ih =>
      cases holes with
      | nil =>
          simp only [Expr.strippedAll, templateText, Option.bind_eq_bind, Option.bind_eq_some_iff,
            Option.pure_def, Option.some.injEq] at found
          obtain ⟨content, rfl, later, rest, rfl⟩ := found
          have rest : templateText hole chunks (Expr.strippedAll []) = some later := rest
          obtain ⟨tree⟩ := ih rest
          exact ⟨.chunk tree⟩
      | cons first holes =>
          simp only [Expr.strippedAll, templateText, Option.bind_eq_bind, Option.bind_eq_some_iff,
            Option.pure_def, Option.some.injEq] at found
          obtain ⟨content, rfl, value, folded, later, rest, rfl⟩ := found
          obtain ⟨head⟩ := derived first value folded
          obtain ⟨tree⟩ := ih rest
          exact ⟨.hole head tree⟩

theorem ident_of_stripped {fuel start : Nat} {name : String} {value : Value}
    (derived : ∀ init : Expr,
      init.stripped.foldWithin constants.stripped scopes.stripped fuel = some value →
        Nonempty (Derivation constants scopes init value))
    (folded : (Expr.ident start name).foldWithin constants.stripped scopes.stripped (fuel + 1) =
      some value) :
    Nonempty (Derivation constants scopes (.ident start name) value) := by
  rw [Expr.foldWithin, scopes.isShadowed_stripped, scopes.constInit?_stripped,
    constants.lookup_stripped] at folded
  split at folded
  · rename_i shadowed
    cases found : scopes.constInit? name with
    | none => simp [found] at folded
    | some init =>
        simp only [found, Option.map_some] at folded
        obtain ⟨tree⟩ := derived init folded
        exact ⟨.localConstant shadowed found tree⟩
  · rename_i free
    rw [Bool.not_eq_true] at free
    cases known : globalValue? name with
    | some content =>
        simp only [known, Option.some.injEq] at folded
        exact ⟨.global free (folded ▸ known)⟩
    | none =>
        cases found : constants.lookup name with
        | none => simp [known, found] at folded
        | some init =>
            simp only [known, found, Option.map_some] at folded
            obtain ⟨tree⟩ := derived init folded
            exact ⟨.moduleConstant free known found tree⟩

/-- A value without the wrappers has a derivation with them, which may be deeper. -/
theorem derivation_of_stripped {fuel : Nat} {e : Expr} {value : Value}
    (folded : e.stripped.foldWithin constants.stripped scopes.stripped fuel = some value) :
    Nonempty (Derivation constants scopes e value) := by
  induction fuel generalizing e value with
  | zero => cases folded
  | succ fuel ih =>
      -- The wrappers around the expression take no fuel here, so they are taken off in between.
      induction e using Extraction.unwrap.induct with
      | case1 start inner unwrapped =>
          obtain ⟨tree⟩ := unwrapped folded
          exact ⟨.paren tree⟩
      | case2 start inner inType unwrapped =>
          obtain ⟨tree⟩ := unwrapped folded
          exact ⟨.typed tree⟩
      | case3 e notParen notTyped =>
          cases e with
          | ident start name => exact ident_of_stripped (fun init => ih) folded
          | literal start content =>
              cases folded
              exact ⟨.literal⟩
          | template start chunks holes =>
              rw [Expr.stripped, Expr.foldWithin, Option.map_eq_some_iff] at folded
              obtain ⟨text, found, rfl⟩ := folded
              obtain ⟨tree⟩ := template_of_stripped (fun _ _ => ih) found
              exact ⟨.template tree⟩
          | paren start inner => exact absurd rfl (notParen start inner)
          | typed start inner inType => exact absurd rfl (notTyped start inner inType)
          | unary start op operand =>
              rw [Expr.stripped, Expr.foldWithin, Option.map_eq_some_iff] at folded
              obtain ⟨inner, found, rfl⟩ := folded
              obtain ⟨tree⟩ := ih found
              exact ⟨.unary tree⟩
          | binary start op left right =>
              rw [Expr.stripped, Expr.foldWithin] at folded
              split at folded
              · rename_i inner found
                obtain ⟨first⟩ := ih found
                split at folded
                · rename_i result decided
                  cases folded
                  exact ⟨.decided decided first⟩
                · rename_i undecided
                  obtain ⟨other, found, rfl⟩ := Option.map_eq_some_iff.mp folded
                  obtain ⟨second⟩ := ih found
                  exact ⟨.binary undecided first second⟩
              · cases folded
          | conditional start test yes no =>
              rw [Expr.stripped, Expr.foldWithin] at folded
              split at folded
              · rename_i inner found
                obtain ⟨first⟩ := ih found
                split at folded
                · rename_i truthy
                  obtain ⟨branch⟩ := ih folded
                  exact ⟨.yes truthy first branch⟩
                · rename_i falsy
                  rw [Bool.not_eq_true] at falsy
                  obtain ⟨branch⟩ := ih folded
                  exact ⟨.no falsy first branch⟩
              · cases folded
          | member start object name => cases folded
          | index start object key => cases folded
          | call start callee arguments inType => cases folded
          | object span properties => cases folded
          | element element => cases folded
          | other start parts => cases folded

theorem unwrap_stripped (e : Expr) : Extraction.unwrap e.stripped = e.stripped := by
  induction e using Extraction.unwrap.induct with
  | case1 start inner unwrapped => exact unwrapped
  | case2 start inner inType unwrapped => exact unwrapped
  | case3 e notParen notTyped =>
      cases e with
      | paren start inner => exact absurd rfl (notParen start inner)
      | typed start inner inType => exact absurd rfl (notTyped start inner inType)
      | _ => rfl

/-! ### Modules and scopes -/

theorem Declarator.constant?_stripped (declarator : Declarator) :
    declarator.stripped.constant? =
      declarator.constant?.map fun (name, init) => (name, init.stripped) := by
  obtain ⟨target, init⟩ := declarator
  cases init with
  | none => cases target <;> rfl
  | some init => cases target <;> rfl

theorem constants_strippedAll (declarators : List Declarator) :
    (Declarator.strippedAll declarators).filterMap Declarator.constant? =
      Constants.stripped (declarators.filterMap Declarator.constant?) := by
  unfold Constants.stripped
  induction declarators with
  | nil => rfl
  | cons first rest ih =>
      rw [Declarator.strippedAll, List.filterMap_cons, List.filterMap_cons,
        first.constant?_stripped]
      cases first.constant? with
      | none => exact ih
      | some constant => exact congrArg (_ :: ·) ih

theorem Item.constants_stripped (item : Item) :
    item.stripped.constants = Constants.stripped item.constants := by
  cases item with
  | imports declaration => rfl
  | part value =>
      cases value with
      | variableDeclaration constant declarators =>
          cases constant with
          | false => rfl
          | true => exact constants_strippedAll declarators
      | catching parameter parts => cases parameter <;> rfl
      | _ => rfl

theorem ofModule_stripped (m : Module) :
    Constants.ofModule m.stripped = (Constants.ofModule m).stripped := by
  have items : (m.items.map Item.stripped).flatMap Item.constants =
      Constants.stripped (m.items.flatMap Item.constants) := by
    rw [Constants.stripped, List.flatMap_map, List.map_flatMap]
    exact congrArg (m.items.flatMap ·) (funext Item.constants_stripped)
  rw [Constants.ofModule, Module.stripped, items, Constants.ofModule, Constants.stripped,
    Constants.stripped, List.map_reverse]

mutual

theorem Pattern.names_stripped : ∀ pattern : Pattern, pattern.stripped.names = pattern.names
  | .name _ _ => rfl
  | .withDefault target _ => target.names_stripped
  | .group parts => Pattern.namesOfAll_stripped parts
  | .expr _ => rfl

theorem Pattern.namesOfAll_stripped : ∀ parts : List Pattern,
    Pattern.namesOfAll (Pattern.strippedAll parts) = Pattern.namesOfAll parts
  | [] => rfl
  | first :: rest => by
      rw [strippedAll, namesOfAll, namesOfAll, first.names_stripped, namesOfAll_stripped rest]

end

theorem Scopes.add_stripped (s : Scopes) (name : String) (init : Option Expr) :
    (s.add name init).stripped = s.stripped.add name (init.map Expr.stripped) := by
  obtain ⟨opened⟩ := s
  cases opened with
  | nil => rfl
  | cons innermost outer => rfl

theorem Scopes.declareNames_stripped (s : Scopes) (names : List String) :
    (s.declareNames names).stripped = s.stripped.declareNames names := by
  induction names generalizing s with
  | nil => rfl
  | cons name names ih =>
      calc ((s.declare name).declareNames names).stripped
        _ = (s.declare name).stripped.declareNames names := ih (s.declare name)
        _ = (s.stripped.declare name).declareNames names :=
          congrArg (declareNames · names) (s.add_stripped name none)

theorem Scopes.apply_stripped (s : Scopes) (step : ScopeStep) :
    (s.apply step).stripped = s.stripped.apply step.stripped := by
  cases step with
  | enter => rfl
  | exit => simp only [apply, ScopeStep.stripped, exit, stripped, List.map_tail]
  | declare name => exact s.add_stripped name none
  | declareConst name init => exact s.add_stripped name (some init)
  | declarePattern pattern =>
      simp only [apply, ScopeStep.stripped, declarePattern, pattern.names_stripped]
      exact s.declareNames_stripped pattern.names

theorem Scopes.run_stripped (steps : List ScopeStep) :
    (Scopes.run steps).stripped = Scopes.run (steps.map ScopeStep.stripped) := by
  have general : ∀ s : Scopes, (steps.foldl apply s).stripped =
      (steps.map ScopeStep.stripped).foldl apply s.stripped := by
    induction steps with
    | nil =>
        intro s
        rfl
    | cons step later ih =>
        intro s
        rw [List.foldl_cons, List.map_cons, List.foldl_cons, ih, apply_stripped]
  exact general empty

theorem exists_foldWithin_iff {e : Expr} {value : Value} :
    (∃ fuel, e.foldWithin constants scopes fuel = some value) ↔
      Nonempty (Derivation constants scopes e value) := by
  constructor
  · rintro ⟨fuel, folded⟩
    obtain ⟨tree, _⟩ := derives_of_fold folded
    exact ⟨tree⟩
  · rintro ⟨tree⟩
    obtain ⟨fuel, stays⟩ := exists_stayWithin tree.evaluated
    exact ⟨fuel, tree.folds stays⟩

theorem exists_foldWithin_stripped (constants : Constants) (scopes : Scopes) (e : Expr)
    (value : Value) :
    (∃ fuel, e.stripped.foldWithin constants.stripped scopes.stripped fuel = some value) ↔
      ∃ fuel, e.foldWithin constants scopes fuel = some value := by
  constructor
  · rintro ⟨fuel, folded⟩
    exact exists_foldWithin_iff.mpr (derivation_of_stripped folded)
  · rintro ⟨fuel, folded⟩
    obtain ⟨tree, stays⟩ := derives_of_fold folded
    exact ⟨fuel, tree.strips stays⟩

/-- Wrappers are nothing to folding: an expression that folds keeps its value when all of them are
taken out of it, out of the constants of the module and out of those of the open scopes. Where these
come from a module and from declarations, it is enough to strip the module and the declarations. With
depth enough, an expression has the same values with its wrappers as it has without them. -/
theorem fold_stripped (e : Expr) (value : Value) :
    (∀ constants scopes, e.fold constants scopes = some value →
      e.stripped.fold constants.stripped scopes.stripped = some value) ∧
    (∀ m steps, e.fold (.ofModule m) (Scopes.run steps) = some value →
      e.stripped.fold (.ofModule m.stripped) (Scopes.run (steps.map ScopeStep.stripped)) =
        some value) ∧
    (∀ (constants : Constants) (scopes : Scopes),
      (∃ fuel, e.stripped.foldWithin constants.stripped scopes.stripped fuel = some value) ↔
        ∃ fuel, e.foldWithin constants scopes fuel = some value) ∧
    Extraction.unwrap e.stripped = e.stripped := by
  have strips : ∀ constants scopes, e.fold constants scopes = some value →
      e.stripped.fold constants.stripped scopes.stripped = some value := by
    intro constants scopes folded
    obtain ⟨tree, stays⟩ := derives_of_fold folded
    exact tree.strips stays
  refine ⟨strips, ?_, ?_, unwrap_stripped e⟩
  · intro m steps folded
    rw [ofModule_stripped, ← Scopes.run_stripped]
    exact strips _ _ folded
  · intro constants scopes
    exact exists_foldWithin_stripped constants scopes e value

def wrappedModule : Module :=
  ⟨[.part (.variableDeclaration true
    [.mk (.name "title" []) (some (.paren 0 (.typed 1 (.literal 1 (.text "Mail")) [])))])]⟩

def wrappedSteps : List ScopeStep :=
  [.enter, .declareConst "greeting"
    (.paren 0 (.binary 1 .add (.typed 1 (.ident 1 "title") []) (.literal 9 (.text "!"))))]

theorem fold_stripped_greeting :
    let e : Expr := .typed 0 (.paren 0 (.ident 1 "greeting")) []
    e.fold (.ofModule wrappedModule) (Scopes.run wrappedSteps) = some (.text "Mail!") ∧
      e.stripped.fold (Constants.ofModule wrappedModule).stripped
        (Scopes.run wrappedSteps).stripped = some (.text "Mail!") ∧
      e.stripped.fold (.ofModule wrappedModule.stripped)
        (Scopes.run (wrappedSteps.map ScopeStep.stripped)) = some (.text "Mail!") := by
  intro e
  have folded : e.fold (.ofModule wrappedModule) (Scopes.run wrappedSteps) =
      some (.text "Mail!") := rfl
  have both := fold_stripped e (.text "Mail!")
  exact ⟨folded, both.1 _ _ folded, both.2.1 _ _ folded⟩

/-- Wrappers take depth, so an expression may fold without them only. -/
example :
    let e := Nat.repeat (Expr.paren 0) 33 (.literal 0 .null)
    e.fold [] .empty = none ∧ e.stripped.fold [] .empty = some .null :=
  ⟨rfl, rfl⟩

end MessageCatalog.Script
