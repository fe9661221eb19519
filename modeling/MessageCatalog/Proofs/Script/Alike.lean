import Mathlib.Data.List.Forall2
import MessageCatalog.Script.Fold
import MessageCatalog.Script.Imports

/-!
Expressions that fold alike. Constant folding looks neither at positions nor into what never folds,
so an expression that differs from another one in these alone has its value, in scopes and among
constants that differ from each other in the same way.
-/

namespace MessageCatalog.Script

/-- Forms that fold to nothing, whatever stands in them. -/
def Expr.isInert : Expr → Bool
  | .member _ _ _ => true
  | .index _ _ _ => true
  | .call _ _ _ _ => true
  | .object _ _ => true
  | .element _ => true
  | .other _ _ => true
  | _ => false

inductive Alike : Expr → Expr → Prop
  | ident (start start' : Nat) (name : String) : Alike (.ident start name) (.ident start' name)
  | literal (start start' : Nat) (value : Value) :
      Alike (.literal start value) (.literal start' value)
  | template {start start' : Nat} {holes holes' : List Expr} (chunks : List (Option String))
      (alike : List.Forall₂ Alike holes holes') :
      Alike (.template start chunks holes) (.template start' chunks holes')
  | paren {start start' : Nat} {inner inner' : Expr} (alike : Alike inner inner') :
      Alike (.paren start inner) (.paren start' inner')
  | typed {start start' : Nat} {inner inner' : Expr} {inType inType' : List Expr}
      (alike : Alike inner inner') :
      Alike (.typed start inner inType) (.typed start' inner' inType')
  | unary {start start' : Nat} {operand operand' : Expr} (op : UnaryOp)
      (alike : Alike operand operand') :
      Alike (.unary start op operand) (.unary start' op operand')
  | binary {start start' : Nat} {left left' right right' : Expr} (op : BinaryOp)
      (first : Alike left left') (second : Alike right right') :
      Alike (.binary start op left right) (.binary start' op left' right')
  | conditional {start start' : Nat} {test test' yes yes' no no' : Expr}
      (first : Alike test test') (second : Alike yes yes') (third : Alike no no') :
      Alike (.conditional start test yes no) (.conditional start' test' yes' no')
  | inert {e e' : Expr} (inert : e.isInert = true) (inert' : e'.isInert = true) : Alike e e'

mutual

def isAlike : Expr → Expr → Bool
  | .ident _ name, .ident _ name' => name == name'
  | .literal _ value, .literal _ value' => value == value'
  | .template _ chunks holes, .template _ chunks' holes' =>
      chunks == chunks' && areAlike holes holes'
  | .paren _ inner, .paren _ inner' => isAlike inner inner'
  | .typed _ inner _, .typed _ inner' _ => isAlike inner inner'
  | .unary _ op operand, .unary _ op' operand' => op == op' && isAlike operand operand'
  | .binary _ op left right, .binary _ op' left' right' =>
      op == op' && isAlike left left' && isAlike right right'
  | .conditional _ test yes no, .conditional _ test' yes' no' =>
      isAlike test test' && isAlike yes yes' && isAlike no no'
  | e, e' => e.isInert && e'.isInert

def areAlike : List Expr → List Expr → Bool
  | [], [] => true
  | first :: rest, first' :: rest' => isAlike first first' && areAlike rest rest'
  | _, _ => false

end

mutual

theorem alike_of_check (e e' : Expr) (same : isAlike e e' = true) : Alike e e' := by
  unfold isAlike at same
  split at same
  case h_1 =>
    obtain rfl := beq_iff_eq.mp same
    exact .ident ..
  case h_2 =>
    obtain rfl := beq_iff_eq.mp same
    exact .literal ..
  case h_3 =>
    obtain ⟨chunks, holes⟩ := Bool.and_eq_true_iff.mp same
    obtain rfl := beq_iff_eq.mp chunks
    exact .template _ (alike_of_checks _ _ holes)
  case h_4 => exact .paren (alike_of_check _ _ same)
  case h_5 => exact .typed (alike_of_check _ _ same)
  case h_6 =>
    obtain ⟨op, operand⟩ := Bool.and_eq_true_iff.mp same
    obtain rfl := beq_iff_eq.mp op
    exact .unary _ (alike_of_check _ _ operand)
  case h_7 =>
    simp only [Bool.and_eq_true, beq_iff_eq] at same
    obtain ⟨⟨rfl, left⟩, right⟩ := same
    exact .binary _ (alike_of_check _ _ left) (alike_of_check _ _ right)
  case h_8 =>
    simp only [Bool.and_eq_true] at same
    obtain ⟨⟨test, yes⟩, no⟩ := same
    exact .conditional (alike_of_check _ _ test) (alike_of_check _ _ yes) (alike_of_check _ _ no)
  case h_9 =>
    obtain ⟨inert, inert'⟩ := Bool.and_eq_true_iff.mp same
    exact .inert inert inert'

theorem alike_of_checks (es es' : List Expr) (same : areAlike es es' = true) :
    List.Forall₂ Alike es es' := by
  unfold areAlike at same
  split at same
  · exact .nil
  · obtain ⟨first, rest⟩ := Bool.and_eq_true_iff.mp same
    exact .cons (alike_of_check _ _ first) (alike_of_checks _ _ rest)
  · cases same

end

/-- The same names in the same order, each with a value that is related to the other one. -/
def AlikeNamed {α β : Type} (related : α → β → Prop) :
    List (String × α) → List (String × β) → Prop :=
  List.Forall₂ fun entry entry' => entry.1 = entry'.1 ∧ related entry.2 entry'.2

def AlikeScopes (s s' : Scopes) : Prop :=
  List.Forall₂ (AlikeNamed (Option.Rel Alike)) s.opened s'.opened

variable {s s' : Scopes} {constants constants' : Constants}

theorem forall₂_of_check {α β : Type} {check : α → β → Bool} {related : α → β → Prop}
    (sound : ∀ a b, check a b = true → related a b) {as : List α} {bs : List β}
    (checked : List.all₂ check as bs = true) : List.Forall₂ related as bs :=
  ((List.all₂_eq_true as bs).mp checked).imp sound

def areAlikeNamed {α β : Type} (check : α → β → Bool) :
    List (String × α) → List (String × β) → Bool :=
  List.all₂ fun entry entry' => entry.1 == entry'.1 && check entry.2 entry'.2

theorem alikeNamed_of_check {α β : Type} {check : α → β → Bool} {related : α → β → Prop}
    (sound : ∀ a b, check a b = true → related a b) {entries : List (String × α)}
    {entries' : List (String × β)} (checked : areAlikeNamed check entries entries' = true) :
    AlikeNamed related entries entries' :=
  forall₂_of_check (fun entry entry' same => by
    rw [Bool.and_eq_true, beq_iff_eq] at same
    exact ⟨same.1, sound _ _ same.2⟩) checked

def isAlikeInit : Option Expr → Option Expr → Bool
  | some init, some init' => isAlike init init'
  | none, none => true
  | _, _ => false

theorem rel_of_check (init init' : Option Expr) (same : isAlikeInit init init' = true) :
    Option.Rel Alike init init' := by
  unfold isAlikeInit at same
  split at same
  · exact .some (alike_of_check _ _ same)
  · exact .none
  · cases same

def areAlikeScopes (s s' : Scopes) : Bool :=
  List.all₂ (areAlikeNamed isAlikeInit) s.opened s'.opened

theorem alikeScopes_of_check (checked : areAlikeScopes s s' = true) : AlikeScopes s s' :=
  forall₂_of_check (fun _ _ => alikeNamed_of_check rel_of_check) checked

theorem rel_cases {α β : Type} {related : α → β → Prop} {found : Option α} {found' : Option β}
    (both : Option.Rel related found found') :
    (found = none ∧ found' = none) ∨
      ∃ value value', found = some value ∧ found' = some value' ∧ related value value' := by
  cases both with
  | some same => exact .inr ⟨_, _, rfl, rfl, same⟩
  | none => exact .inl ⟨rfl, rfl⟩

theorem lookup_alike {α β : Type} {related : α → β → Prop} {entries : List (String × α)}
    {entries' : List (String × β)} (alike : AlikeNamed related entries entries') (name : String) :
    Option.Rel related (entries.lookup name) (entries'.lookup name) := by
  induction alike with
  | nil => exact .none
  | @cons entry entry' rest rest' head _ ih =>
      obtain ⟨found, value⟩ := entry
      obtain ⟨found', value'⟩ := entry'
      obtain ⟨rfl, same⟩ := head
      simp only [List.lookup_cons]
      split
      · exact .some same
      · exact ih

theorem find?_alike (scopes : AlikeScopes s s') (name : String) :
    Option.Rel (Option.Rel Alike) (s.find? name) (s'.find? name) := by
  unfold AlikeScopes at scopes
  unfold Scopes.find?
  generalize s.opened = opened at scopes
  generalize s'.opened = opened' at scopes
  induction scopes with
  | nil => exact .none
  | cons head _ ih =>
      rw [List.findSome?_cons, List.findSome?_cons]
      rcases rel_cases (lookup_alike head name) with
        ⟨absent, absent'⟩ | ⟨init, init', found, found', same⟩
      · rw [absent, absent']
        exact ih
      · rw [found, found']
        exact .some same

theorem isShadowed_alike (scopes : AlikeScopes s s') (name : String) :
    s'.isShadowed name = s.isShadowed name := by
  unfold AlikeScopes at scopes
  unfold Scopes.isShadowed
  generalize s.opened = opened at scopes
  generalize s'.opened = opened' at scopes
  induction scopes with
  | nil => rfl
  | cons head _ ih =>
      rw [List.any_cons, List.any_cons, ih]
      rcases rel_cases (lookup_alike head name) with
        ⟨absent, absent'⟩ | ⟨init, init', found, found', same⟩
      · rw [absent, absent']
      · rw [found, found']
        rfl

theorem constInit?_alike (scopes : AlikeScopes s s') (name : String) :
    Option.Rel Alike (s.constInit? name) (s'.constInit? name) := by
  unfold Scopes.constInit?
  rcases rel_cases (find?_alike scopes name) with
    ⟨absent, absent'⟩ | ⟨init, init', found, found', same⟩
  · rw [absent, absent']
    exact .none
  · rw [found, found']
    exact same

theorem templateText_congr {hole hole' : Expr → Option Value} {holes holes' : List Expr}
    (same : List.Forall₂ (fun e e' => hole' e' = hole e) holes holes')
    (chunks : List (Option String)) :
    templateText hole' chunks holes' = templateText hole chunks holes := by
  induction chunks generalizing holes holes' with
  | nil => cases same <;> rfl
  | cons chunk rest ih =>
      cases same with
      | nil => rw [templateText, templateText, ih .nil]
      | cons head tail => rw [templateText, templateText, head, ih tail]

theorem foldWithin_inert {e : Expr} (inert : e.isInert = true) (constants : Constants)
    (s : Scopes) (fuel : Nat) : e.foldWithin constants s fuel = none := by
  cases fuel with
  | zero => rfl
  | succ fuel => cases e <;> first | rfl | cases inert

theorem foldWithin_alike (scopes : AlikeScopes s s') (named : AlikeNamed Alike constants constants')
    (fuel : Nat) {e e' : Expr} (alike : Alike e e') :
    e'.foldWithin constants' s' fuel = e.foldWithin constants s fuel := by
  induction fuel generalizing e e' with
  | zero => rfl
  | succ fuel ih =>
      cases alike with
      | ident start start' name =>
          rw [Expr.foldWithin, Expr.foldWithin, isShadowed_alike scopes]
          split
          · rcases rel_cases (constInit?_alike scopes name) with
              ⟨absent, absent'⟩ | ⟨init, init', found, found', same⟩
            · rw [absent, absent']
            · rw [found, found']
              exact ih same
          · split
            · rfl
            · rcases rel_cases (lookup_alike named name) with
                ⟨absent, absent'⟩ | ⟨init, init', found, found', same⟩
              · rw [absent, absent']
              · rw [found, found']
                exact ih same
      | literal start start' value => rfl
      | template chunks alike =>
          rw [Expr.foldWithin, Expr.foldWithin,
            templateText_congr (alike.imp fun _ _ related => ih related) chunks]
      | paren alike => exact ih alike
      | typed alike => exact ih alike
      | unary op alike => rw [Expr.foldWithin, Expr.foldWithin, ih alike]
      | binary op left right => rw [Expr.foldWithin, Expr.foldWithin, ih left, ih right]
      | conditional test yes no =>
          rw [Expr.foldWithin, Expr.foldWithin, ih test, ih yes, ih no]
      | inert inert inert' => rw [foldWithin_inert inert, foldWithin_inert inert']

theorem fold_alike (scopes : AlikeScopes s s') (named : AlikeNamed Alike constants constants')
    {e e' : Expr} (alike : Alike e e') : e'.fold constants' s' = e.fold constants s :=
  foldWithin_alike scopes named _ alike

/-! ### References -/

theorem origin?_alike (scopes : AlikeScopes s s') (table : ImportTable) (name : String) :
    table.origin? s' name = table.origin? s name := by
  rw [ImportTable.origin?, ImportTable.origin?, isShadowed_alike scopes]

theorem isImport_alike (scopes : AlikeScopes s s') (table : ImportTable) (name : String)
    (wanted : Origin) : table.isImport s' name wanted = table.isImport s name wanted := by
  rw [ImportTable.isImport, ImportTable.isImport, origin?_alike scopes]

theorem isMember_alike (scopes : AlikeScopes s s') (table : ImportTable) (space member : String)
    (wanted : Origin) :
    table.isMember s' space member wanted = table.isMember s space member wanted := by
  rw [ImportTable.isMember, ImportTable.isMember, origin?_alike scopes]

theorem tag_refersTo_alike (scopes : AlikeScopes s s') (table : ImportTable) (wanted : Origin)
    (tag : TagName) : tag.refersTo table s' wanted = tag.refersTo table s wanted := by
  unfold TagName.refersTo
  split
  · exact isImport_alike scopes table _ wanted
  · exact isMember_alike scopes table _ _ wanted
  · rfl

theorem refersTo_alike (scopes : AlikeScopes s s') (table : ImportTable) (wanted : Origin)
    (e : Expr) : e.refersTo table s' wanted = e.refersTo table s wanted := by
  fun_induction Expr.refersTo table s wanted e with
  | case1 start name => exact isImport_alike scopes table name wanted
  | case2 start inner space name => exact isMember_alike scopes table space name wanted
  | case3 start inner space inside name => exact isMember_alike scopes table space name wanted
  | case4 start inner ih => exact ih
  | case5 e => simp [Expr.refersTo]

end MessageCatalog.Script
