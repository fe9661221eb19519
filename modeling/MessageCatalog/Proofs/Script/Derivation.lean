import MessageCatalog.Script.Fold

/-!
What the bound on depth does to folding. A derivation gives a value to an expression by the rules of
folding alone, and lists all that is evaluated on the way there. Folding finds the values of the
derivations that stay within the bound and no others, so the bound makes values unknown and never
different.
-/

namespace MessageCatalog.Script

variable {constants : Constants} {scopes : Scopes}

mutual

/-- A derivation of the value of an expression, which may go down as far as it needs to. The name of
a local constant leads on to the innermost initializer, and a name that no open scope declares to
that of the module. -/
inductive Derivation (constants : Constants) (scopes : Scopes) : Expr → Value → Type
  | literal {start value} : Derivation constants scopes (.literal start value) value
  | localConstant {start name init value} (shadowed : scopes.isShadowed name = true)
      (found : scopes.constInit? name = some init) :
      Derivation constants scopes init value →
        Derivation constants scopes (.ident start name) value
  | global {start name value} (free : scopes.isShadowed name = false)
      (known : globalValue? name = some value) :
      Derivation constants scopes (.ident start name) value
  | moduleConstant {start name init value} (free : scopes.isShadowed name = false)
      (unknown : globalValue? name = none) (found : constants.lookup name = some init) :
      Derivation constants scopes init value →
        Derivation constants scopes (.ident start name) value
  | template {start chunks holes text} : TemplateDerivation constants scopes chunks holes text →
      Derivation constants scopes (.template start chunks holes) (.text text)
  | paren {start inner value} : Derivation constants scopes inner value →
      Derivation constants scopes (.paren start inner) value
  | typed {start inner inType value} : Derivation constants scopes inner value →
      Derivation constants scopes (.typed start inner inType) value
  | unary {start op operand value} : Derivation constants scopes operand value →
      Derivation constants scopes (.unary start op operand) (op.apply value)
  | decided {start op left right value result} (decided : op.decided? value = some result) :
      Derivation constants scopes left value →
        Derivation constants scopes (.binary start op left right) result
  | binary {start op left right value other} (undecided : op.decided? value = none) :
      Derivation constants scopes left value → Derivation constants scopes right other →
        Derivation constants scopes (.binary start op left right) (op.apply value other)
  | yes {start test yes no value result} (truthy : value.isTruthy = true) :
      Derivation constants scopes test value → Derivation constants scopes yes result →
        Derivation constants scopes (.conditional start test yes no) result
  | no {start test yes no value result} (falsy : value.isTruthy = false) :
      Derivation constants scopes test value → Derivation constants scopes no result →
        Derivation constants scopes (.conditional start test yes no) result

inductive TemplateDerivation (constants : Constants) (scopes : Scopes) :
    List (Option String) → List Expr → String → Type
  | nil {holes} : TemplateDerivation constants scopes [] holes ""
  | chunk {chunk chunks text} : TemplateDerivation constants scopes chunks [] text →
      TemplateDerivation constants scopes (some chunk :: chunks) [] (chunk ++ text)
  | hole {chunk chunks hole holes value text} : Derivation constants scopes hole value →
      TemplateDerivation constants scopes chunks holes text →
        TemplateDerivation constants scopes (some chunk :: chunks) (hole :: holes)
          (chunk ++ value.toText ++ text)

end

/-- An expression that is evaluated, with the steps that lead to it. -/
abbrev Place := Nat × Expr

def deeper (places : List Place) : List Place :=
  places.map fun place => (place.1 + 1, place.2)

mutual

/-- All that is evaluated in a derivation: the expression itself, and one step below it the parts
and initializers that its value is made from. -/
def Derivation.evaluated {e : Expr} {value : Value} (tree : Derivation constants scopes e value) :
    List Place :=
  (0, e) :: deeper (match tree with
    | .literal => []
    | .localConstant _ _ init => init.evaluated
    | .global _ _ => []
    | .moduleConstant _ _ _ init => init.evaluated
    | .template holes => holes.evaluated
    | .paren inner => inner.evaluated
    | .typed inner => inner.evaluated
    | .unary operand => operand.evaluated
    | .decided _ left => left.evaluated
    | .binary _ left right => left.evaluated ++ right.evaluated
    | .yes _ test branch => test.evaluated ++ branch.evaluated
    | .no _ test branch => test.evaluated ++ branch.evaluated)

def TemplateDerivation.evaluated {chunks : List (Option String)} {holes : List Expr}
    {text : String} (tree : TemplateDerivation constants scopes chunks holes text) : List Place :=
  match tree with
  | .nil => []
  | .chunk rest => rest.evaluated
  | .hole value rest => value.evaluated ++ rest.evaluated

end

def StayWithin (bound : Nat) (places : List Place) : Prop :=
  ∀ place ∈ places, place.1 < bound

theorem stayWithin_append {bound : Nat} {first second : List Place} :
    StayWithin bound (first ++ second) ↔ StayWithin bound first ∧ StayWithin bound second := by
  exact List.forall_mem_append

theorem stayWithin_deeper {fuel : Nat} {e : Expr} {below : List Place} :
    StayWithin (fuel + 1) ((0, e) :: deeper below) ↔ StayWithin fuel below := by
  unfold StayWithin deeper
  rw [List.forall_mem_cons, List.forall_mem_map]
  simp only [Nat.zero_lt_succ, true_and, Nat.add_lt_add_iff_right]

theorem Derivation.place_self {e : Expr} {value : Value}
    (tree : Derivation constants scopes e value) : (0, e) ∈ tree.evaluated := by
  unfold Derivation.evaluated
  exact List.mem_cons_self

mutual

theorem Derivation.folds : ∀ {fuel : Nat} {e : Expr} {value : Value}
    (tree : Derivation constants scopes e value), StayWithin fuel tree.evaluated →
      e.foldWithin constants scopes fuel = some value
  | 0, _, _, tree, stays => absurd (stays _ tree.place_self) (Nat.not_lt_zero _)
  | fuel + 1, _, _, .literal, _ => rfl
  | fuel + 1, _, _, .localConstant shadowed found init, stays => by
      rw [Derivation.evaluated, stayWithin_deeper] at stays
      rw [Expr.foldWithin, if_pos shadowed, found]
      exact init.folds stays
  | fuel + 1, _, _, .global free known, _ => by
      rw [Expr.foldWithin, if_neg (by simp [free]), known]
  | fuel + 1, _, _, .moduleConstant free unknown found init, stays => by
      rw [Derivation.evaluated, stayWithin_deeper] at stays
      rw [Expr.foldWithin, if_neg (by simp [free]), unknown, found]
      exact init.folds stays
  | fuel + 1, _, _, .template holes, stays => by
      rw [Derivation.evaluated, stayWithin_deeper] at stays
      rw [Expr.foldWithin, holes.reads stays]
      rfl
  | fuel + 1, _, _, .paren inner, stays => by
      rw [Derivation.evaluated, stayWithin_deeper] at stays
      exact inner.folds stays
  | fuel + 1, _, _, .typed inner, stays => by
      rw [Derivation.evaluated, stayWithin_deeper] at stays
      exact inner.folds stays
  | fuel + 1, _, _, .unary operand, stays => by
      rw [Derivation.evaluated, stayWithin_deeper] at stays
      rw [Expr.foldWithin, operand.folds stays]
      rfl
  | fuel + 1, _, _, .decided decided left, stays => by
      rw [Derivation.evaluated, stayWithin_deeper] at stays
      rw [Expr.foldWithin, left.folds stays]
      simp only [decided]
  | fuel + 1, _, _, .binary undecided left right, stays => by
      rw [Derivation.evaluated, stayWithin_deeper, stayWithin_append] at stays
      rw [Expr.foldWithin, left.folds stays.1]
      simp only [undecided, right.folds stays.2, Option.map_some]
  | fuel + 1, _, _, .yes truthy test branch, stays => by
      rw [Derivation.evaluated, stayWithin_deeper, stayWithin_append] at stays
      rw [Expr.foldWithin, test.folds stays.1]
      exact (if_pos truthy).trans (branch.folds stays.2)
  | fuel + 1, _, _, .no falsy test branch, stays => by
      rw [Derivation.evaluated, stayWithin_deeper, stayWithin_append] at stays
      rw [Expr.foldWithin, test.folds stays.1]
      exact (if_neg (by simp [falsy])).trans (branch.folds stays.2)

theorem TemplateDerivation.reads : ∀ {fuel : Nat} {chunks : List (Option String)}
    {holes : List Expr} {text : String} (tree : TemplateDerivation constants scopes chunks holes text),
    StayWithin fuel tree.evaluated →
      templateText (Expr.foldWithin constants scopes fuel) chunks holes = some text
  | _, _, _, _, .nil, _ => rfl
  | _, _, _, _, .chunk rest, stays => by
      rw [templateText, rest.reads stays]
      rfl
  | _, _, _, _, .hole value rest, stays => by
      rw [TemplateDerivation.evaluated, stayWithin_append] at stays
      rw [templateText, value.folds stays.1, rest.reads stays.2]
      rfl

end

/-- A derivation in which all that is evaluated is reached in less than some number of steps. -/
def DerivesWithin (constants : Constants) (scopes : Scopes) (bound : Nat) (e : Expr)
    (value : Value) : Prop :=
  ∃ tree : Derivation constants scopes e value, StayWithin bound tree.evaluated

theorem derives_template {fuel : Nat} {hole : Expr → Option Value} {chunks : List (Option String)}
    {holes : List Expr} {text : String}
    (derived : ∀ part ∈ holes, ∀ value, hole part = some value →
      DerivesWithin constants scopes fuel part value)
    (found : templateText hole chunks holes = some text) :
    ∃ tree : TemplateDerivation constants scopes chunks holes text,
      StayWithin fuel tree.evaluated := by
  induction chunks generalizing holes text with
  | nil =>
      cases found
      exact ⟨.nil, nofun⟩
  | cons chunk chunks ih =>
      cases holes with
      | nil =>
          simp only [templateText, Option.bind_eq_bind, Option.bind_eq_some_iff, Option.pure_def,
            Option.some.injEq] at found
          obtain ⟨content, rfl, later, rest, rfl⟩ := found
          obtain ⟨tree, stays⟩ := ih (by simp) rest
          exact ⟨.chunk tree, stays⟩
      | cons first holes =>
          simp only [templateText, Option.bind_eq_bind, Option.bind_eq_some_iff, Option.pure_def,
            Option.some.injEq] at found
          obtain ⟨content, rfl, value, folded, later, rest, rfl⟩ := found
          obtain ⟨head, near⟩ := derived first (by simp) value folded
          obtain ⟨tree, stays⟩ := ih (fun part member => derived part (by simp [member])) rest
          exact ⟨.hole head tree, stayWithin_append.mpr ⟨near, stays⟩⟩

theorem derives_ident {fuel start : Nat} {name : String} {value : Value}
    (derived : ∀ init, Expr.foldWithin constants scopes fuel init = some value →
      DerivesWithin constants scopes fuel init value)
    (folded : (Expr.ident start name).foldWithin constants scopes (fuel + 1) = some value) :
    DerivesWithin constants scopes (fuel + 1) (.ident start name) value := by
  rw [Expr.foldWithin] at folded
  split at folded
  · rename_i shadowed
    split at folded
    · rename_i init found
      obtain ⟨tree, stays⟩ := derived init folded
      exact ⟨.localConstant shadowed found tree, stayWithin_deeper.mpr stays⟩
    · cases folded
  · rename_i free
    rw [Bool.not_eq_true] at free
    split at folded
    · rename_i known
      cases folded
      exact ⟨.global free known, stayWithin_deeper.mpr nofun⟩
    · rename_i unknown
      split at folded
      · rename_i init found
        obtain ⟨tree, stays⟩ := derived init folded
        exact ⟨.moduleConstant free unknown found tree, stayWithin_deeper.mpr stays⟩
      · cases folded

/-- Whatever folds has a derivation that goes down as far as folding may. -/
theorem derives_of_fold {fuel : Nat} {e : Expr} {value : Value}
    (folded : e.foldWithin constants scopes fuel = some value) :
    DerivesWithin constants scopes fuel e value := by
  induction fuel generalizing e value with
  | zero => cases folded
  | succ fuel ih =>
      cases e with
      | ident start name => exact derives_ident (fun init => ih) folded
      | literal start content =>
          cases folded
          exact ⟨.literal, stayWithin_deeper.mpr nofun⟩
      | template start chunks holes =>
          rw [Expr.foldWithin, Option.map_eq_some_iff] at folded
          obtain ⟨text, found, rfl⟩ := folded
          obtain ⟨tree, stays⟩ := derives_template (fun _ _ _ => ih) found
          exact ⟨.template tree, stayWithin_deeper.mpr stays⟩
      | paren start inner =>
          obtain ⟨tree, stays⟩ := ih folded
          exact ⟨.paren tree, stayWithin_deeper.mpr stays⟩
      | typed start inner inType =>
          obtain ⟨tree, stays⟩ := ih folded
          exact ⟨.typed tree, stayWithin_deeper.mpr stays⟩
      | unary start op operand =>
          rw [Expr.foldWithin, Option.map_eq_some_iff] at folded
          obtain ⟨inner, found, rfl⟩ := folded
          obtain ⟨tree, stays⟩ := ih found
          exact ⟨.unary tree, stayWithin_deeper.mpr stays⟩
      | binary start op left right =>
          rw [Expr.foldWithin] at folded
          split at folded
          · rename_i inner found
            obtain ⟨first, near⟩ := ih found
            split at folded
            · rename_i result decided
              cases folded
              exact ⟨.decided decided first, stayWithin_deeper.mpr near⟩
            · rename_i undecided
              obtain ⟨other, found, rfl⟩ := Option.map_eq_some_iff.mp folded
              obtain ⟨second, far⟩ := ih found
              exact ⟨.binary undecided first second,
                stayWithin_deeper.mpr (stayWithin_append.mpr ⟨near, far⟩)⟩
          · cases folded
      | conditional start test yes no =>
          rw [Expr.foldWithin] at folded
          split at folded
          · rename_i inner found
            obtain ⟨first, near⟩ := ih found
            split at folded
            · rename_i truthy
              obtain ⟨branch, far⟩ := ih folded
              exact ⟨.yes truthy first branch,
                stayWithin_deeper.mpr (stayWithin_append.mpr ⟨near, far⟩)⟩
            · rename_i falsy
              rw [Bool.not_eq_true] at falsy
              obtain ⟨branch, far⟩ := ih folded
              exact ⟨.no falsy first branch,
                stayWithin_deeper.mpr (stayWithin_append.mpr ⟨near, far⟩)⟩
          · cases folded
      | member start object name => cases folded
      | index start object key => cases folded
      | call start callee arguments inType => cases folded
      | object span properties => cases folded
      | element element => cases folded
      | other start parts => cases folded

theorem foldWithin_eq_some_iff {fuel : Nat} {e : Expr} {value : Value} :
    e.foldWithin constants scopes fuel = some value ↔
      DerivesWithin constants scopes fuel e value :=
  ⟨derives_of_fold, fun ⟨tree, stays⟩ => tree.folds stays⟩

def Expr.foldAt (constants : Constants) (scopes : Scopes) (e : Expr) (depth : Nat) : Option Value :=
  e.foldWithin constants scopes (maxDepth + 1 - depth)

theorem foldAt_eq_some_iff {depth : Nat} {e : Expr} {value : Value} :
    e.foldAt constants scopes depth = some value ↔
      ∃ tree : Derivation constants scopes e value,
        ∀ place ∈ tree.evaluated, depth + place.1 ≤ maxDepth := by
  rw [Expr.foldAt, foldWithin_eq_some_iff, DerivesWithin]
  refine exists_congr fun tree => forall₂_congr fun place _ => ?_
  omega

theorem exists_stayWithin (places : List Place) : ∃ bound, StayWithin bound places := by
  induction places with
  | nil => exact ⟨0, nofun⟩
  | cons place rest ih =>
      obtain ⟨bound, stay⟩ := ih
      refine ⟨max (place.1 + 1) bound, List.forall_mem_cons.mpr ⟨by omega, fun other member => ?_⟩⟩
      have below := stay other member
      omega

/-- All derivations for an expression give it one value, however far down they go. -/
theorem Derivation.unique {e : Expr} {first second : Value}
    (tree : Derivation constants scopes e first) (other : Derivation constants scopes e second) :
    first = second := by
  obtain ⟨bound, stay⟩ := exists_stayWithin (tree.evaluated ++ other.evaluated)
  obtain ⟨near, far⟩ := stayWithin_append.mp stay
  have folded := tree.folds near
  rw [other.folds far] at folded
  exact (Option.some.inj folded).symm

/-- The bound on depth only makes folding forget. An expression folds to the values of the
derivations in which all that is evaluated is at most `maxDepth` steps below it; what folds at some
depth folds to the same value at every smaller one; and at any depth an expression folds either to
the value that derivations give it or to none. -/
theorem fold_forgets (constants : Constants) (scopes : Scopes) (e : Expr) :
    (∀ value, e.fold constants scopes = some value ↔
      ∃ tree : Derivation constants scopes e value,
        ∀ place ∈ tree.evaluated, place.1 ≤ maxDepth) ∧
    (∀ value shallow deep, shallow ≤ deep → e.foldAt constants scopes deep = some value →
      e.foldAt constants scopes shallow = some value) ∧
    ∀ value depth, Nonempty (Derivation constants scopes e value) →
      e.foldAt constants scopes depth = none ∨
        e.foldAt constants scopes depth = some value := by
  refine ⟨fun value => ?_, fun value shallow deep above folded => ?_, fun value depth derived => ?_⟩
  · change e.foldAt constants scopes 0 = some value ↔ _
    simp only [foldAt_eq_some_iff, Nat.zero_add]
  · obtain ⟨tree, stays⟩ := foldAt_eq_some_iff.mp folded
    refine foldAt_eq_some_iff.mpr ⟨tree, fun place member => ?_⟩
    have near := stays place member
    omega
  · obtain ⟨tree⟩ := derived
    cases folded : e.foldAt constants scopes depth with
    | none => exact .inl rfl
    | some found =>
        obtain ⟨other, _⟩ := foldAt_eq_some_iff.mp folded
        exact .inr (congrArg some (other.unique tree))

/-- Constants that refer to each other have no value. -/
example : (Expr.ident 0 "a").fold [("a", .ident 0 "b"), ("b", .ident 0 "a")] .empty = none := rfl

end MessageCatalog.Script
