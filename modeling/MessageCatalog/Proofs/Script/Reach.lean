import MessageCatalog.Proofs.Script.Alike
import MessageCatalog.Proofs.Script.Scoping

/-!
What folding looks up. The names in reach of an expression are those that occur in it, and those in
an initializer that a name in reach stands for. Scopes that answer alike for these names fold the
expression alike, so opening and closing scopes and declaring other names is nothing to it.
-/

namespace MessageCatalog.Script

variable {constants : Constants} {s t : Scopes} {relevant : String → Prop}

inductive Reaches (constants : Constants) (s : Scopes) (e : Expr) : String → Prop
  | occurs {name : String} (member : name ∈ e.names) : Reaches constants s e name
  | follows {name other : String} {init : Expr} (reached : Reaches constants s e name)
      (bound : s.binding? constants name = some init) (member : other ∈ init.names) :
      Reaches constants s e other

def AgreeOn (relevant : String → Prop) (s t : Scopes) : Prop :=
  ∀ name, relevant name →
    t.isShadowed name = s.isShadowed name ∧ t.constInit? name = s.constInit? name

theorem foldWithin_agree (agree : AgreeOn relevant s t)
    (closed : ∀ name init, relevant name → s.binding? constants name = some init →
      ∀ other ∈ init.names, relevant other)
    {fuel : Nat} {e : Expr} (inside : ∀ name ∈ e.names, relevant name) :
    e.foldWithin constants t fuel = e.foldWithin constants s fuel := by
  induction fuel generalizing e with
  | zero => rfl
  | succ fuel ih =>
      cases e with
      | ident start name =>
          have here := inside name (List.mem_singleton_self name)
          obtain ⟨hidden, init⟩ := agree name here
          rw [Expr.foldWithin, Expr.foldWithin, hidden, init]
          cases shadowed : s.isShadowed name with
          | true =>
              have bound := s.binding?_of_shadowed constants shadowed
              cases found : s.constInit? name with
              | none => rfl
              | some init => exact ih (closed name init here (bound.trans found))
          | false =>
              have bound := s.binding?_of_free constants shadowed
              rw [Constants.binding?] at bound
              cases known : globalValue? name with
              | some value => rfl
              | none =>
                  rw [known] at bound
                  cases found : constants.lookup name with
                  | none => rfl
                  | some init => exact ih (closed name init here (bound.trans found))
      | literal start value => rfl
      | template start chunks holes =>
          have same : ∀ part ∈ holes, part.foldWithin constants t fuel =
              part.foldWithin constants s fuel := fun part member =>
            ih fun name occurs => inside name (names_subset_namesOfAll member occurs)
          rw [Expr.foldWithin, Expr.foldWithin, templateText_congr (List.forall₂_same.mpr same)]
      | paren start inner => exact ih inside
      | typed start inner inType => exact ih inside
      | unary start op operand => rw [Expr.foldWithin, Expr.foldWithin, ih (e := operand) inside]
      | binary start op left right =>
          obtain ⟨first, second⟩ := List.forall_mem_append.mp inside
          rw [Expr.foldWithin, Expr.foldWithin, ih first, ih second]
      | conditional start test yes no =>
          obtain ⟨first, branches⟩ := List.forall_mem_append.mp inside
          obtain ⟨second, third⟩ := List.forall_mem_append.mp branches
          rw [Expr.foldWithin, Expr.foldWithin, ih first, ih second, ih third]
      | member start object name => rfl
      | index start object key => rfl
      | call start callee arguments inType => rfl
      | object span properties => rfl
      | element element => rfl
      | other start parts => rfl

theorem fold_agree {e : Expr} (agree : AgreeOn (Reaches constants s e) s t) :
    e.fold constants t = e.fold constants s :=
  foldWithin_agree agree (fun _ _ reached bound _ member => .follows reached bound member)
    fun _ member => .occurs member

/-- A step that declares none of some names, and closes no scope that declares one. -/
def ScopeStep.Spares (relevant : String → Prop) (s : Scopes) : ScopeStep → Prop
  | .enter => True
  | .exit => ∀ scope ∈ s.opened.head?, ∀ name, relevant name → scope.lookup name = none
  | .declare name => ¬relevant name
  | .declareConst name _ => ¬relevant name
  | .declarePattern pattern => ∀ name ∈ pattern.names, ¬relevant name

def SpareAll (relevant : String → Prop) : Scopes → List ScopeStep → Prop
  | _, [] => True
  | s, step :: later => step.Spares relevant s ∧ SpareAll relevant (s.apply step) later

theorem find?_add {name other : String} (apart : name ≠ other) (s : Scopes)
    (init : Option Expr) : (s.add other init).find? name = s.find? name := by
  obtain ⟨opened⟩ := s
  cases opened with
  | nil => rfl
  | cons innermost outer =>
      simp only [Scopes.add, Scopes.find?, List.findSome?_cons, List.lookup_cons,
        beq_eq_false_iff_ne.mpr apart]

theorem find?_declareNames {name : String} {names : List String} (apart : name ∉ names)
    (s : Scopes) : (s.declareNames names).find? name = s.find? name := by
  induction names generalizing s with
  | nil => rfl
  | cons first rest ih =>
      have different : name ≠ first := fun same => apart (same ▸ List.mem_cons_self)
      have others : name ∉ rest := fun member => apart (List.mem_cons_of_mem first member)
      calc (s.declareNames (first :: rest)).find? name
        _ = ((s.declare first).declareNames rest).find? name := rfl
        _ = (s.declare first).find? name := ih others (s.declare first)
        _ = s.find? name := find?_add different s none

theorem find?_spared {step : ScopeStep} (spares : step.Spares relevant s) {name : String}
    (wanted : relevant name) : (s.apply step).find? name = s.find? name := by
  cases step with
  | enter => rfl
  | exit =>
      obtain ⟨opened⟩ := s
      cases opened with
      | nil => rfl
      | cons innermost outer =>
          have absent := spares innermost rfl name wanted
          simp only [Scopes.apply, Scopes.exit, Scopes.find?, List.tail_cons,
            List.findSome?_cons, absent]
  | declare other =>
      have apart : name ≠ other := fun same => spares (same ▸ wanted : relevant other)
      exact find?_add apart s none
  | declareConst other init =>
      have apart : name ≠ other := fun same => spares (same ▸ wanted : relevant other)
      exact find?_add apart s (some init)
  | declarePattern pattern => exact find?_declareNames (fun member => spares name member wanted) s

theorem find?_spareAll {steps : List ScopeStep} (spare : SpareAll relevant s steps) {name : String}
    (wanted : relevant name) : (steps.foldl Scopes.apply s).find? name = s.find? name := by
  induction steps generalizing s with
  | nil => rfl
  | cons step later ih => exact (ih spare.2).trans (find?_spared spare.1 wanted)

theorem agreeOn_spareAll {steps : List ScopeStep} (spare : SpareAll relevant s steps) :
    AgreeOn relevant s (steps.foldl Scopes.apply s) := by
  intro name wanted
  have same := find?_spareAll spare wanted
  rw [Scopes.isShadowed_eq, Scopes.isShadowed_eq, Scopes.constInit?, Scopes.constInit?, same]
  exact ⟨rfl, rfl⟩

/-- An expression folds alike, or not at all, in any scopes that answer alike for the names in its
reach; so it does after steps that declare none of them and close no scope that does. -/
theorem fold_reaches (constants : Constants) (s : Scopes) (e : Expr) :
    (∀ t, AgreeOn (Reaches constants s e) s t → e.fold constants t = e.fold constants s) ∧
      ∀ steps, SpareAll (Reaches constants s e) s steps →
        e.fold constants (steps.foldl Scopes.apply s) = e.fold constants s :=
  ⟨fun _ => fold_agree, fun _ spare => fold_agree (agreeOn_spareAll spare)⟩

theorem reaches_greeting {name : String}
    (reached : Reaches (.ofModule titleModule) (Scopes.run greetingSteps) (.ident 0 "greeting")
      name) : name = "greeting" ∨ name = "title" := by
  induction reached with
  | occurs member => exact .inl (List.mem_singleton.mp member)
  | @follows name other init _ bound member ih =>
      rcases ih with rfl | rfl
      · obtain rfl : greetingInit = init := Option.some.inj bound
        exact .inr (by simpa [greetingInit, Expr.names] using member)
      · obtain rfl : Expr.literal 0 (.text "Mail") = init := Option.some.inj bound
        simp [Expr.names] at member

/-- Declarations in a scope that is opened and closed again, next to a constant in use. -/
theorem fold_reaches_greeting :
    let s := Scopes.run greetingSteps
    let steps : List ScopeStep := [.declare "count", .enter, .declarePattern (.name "index" []),
      .declareConst "farewell" (.ident 0 "title"), .exit]
    SpareAll (Reaches (.ofModule titleModule) s (.ident 0 "greeting")) s steps ∧
      (Expr.ident 0 "greeting").fold (.ofModule titleModule) s = some (.text "Mail!") ∧
      (Expr.ident 0 "greeting").fold (.ofModule titleModule) (steps.foldl Scopes.apply s) =
        (Expr.ident 0 "greeting").fold (.ofModule titleModule) s := by
  intro s steps
  have unrelated : ∀ name, name ≠ "greeting" → name ≠ "title" →
      ¬Reaches (.ofModule titleModule) s (.ident 0 "greeting") name := by
    intro name notGreeting notTitle reached
    exact (reaches_greeting reached).elim notGreeting notTitle
  have spare : SpareAll (Reaches (.ofModule titleModule) s (.ident 0 "greeting")) s steps := by
    refine ⟨unrelated "count" (by decide) (by decide), trivial, ?_,
      unrelated "farewell" (by decide) (by decide), ?_, trivial⟩
    · intro name member
      obtain rfl := List.mem_singleton.mp member
      exact unrelated "index" (by decide) (by decide)
    · rintro scope ⟨⟩ name reached
      rcases reaches_greeting reached with rfl | rfl <;> rfl
  exact ⟨spare, rfl, (fold_reaches _ s _).2 steps spare⟩

end MessageCatalog.Script
