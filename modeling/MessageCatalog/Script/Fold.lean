import MessageCatalog.Decimal.Binary
import MessageCatalog.Script.Scope

/-!
Constant folding. An expression folds if it is built from literals, module constants and local
constants by operators without effects. A constant's initializer is folded in the scopes that are
open where the constant is used.
-/

namespace MessageCatalog.Script

/-- The constants at the top of a module with their initializers, the last one first. -/
abbrev Constants := List (String × Expr)

def Declarator.constant? : Declarator → Option (String × Expr)
  | .mk (.name text _) (some init) => some (text, init)
  | _ => none

def Item.constants : Item → List (String × Expr)
  | .part (.variableDeclaration true declarators) => declarators.filterMap Declarator.constant?
  | _ => []

def Constants.ofModule (m : Module) : Constants :=
  (m.items.flatMap Item.constants).reverse

def UnaryOp.apply : UnaryOp → Value → Value
  | .minus, value => .number (-value.toNumber)
  | .plus, value => .number value.toNumber
  | .not, value => .bool (!value.isTruthy)
  | .typeOf, value => .text value.typeName
  | .void, _ => .undefined

def Value.add : Value → Value → Value
  | .text left, right => .text (left ++ right.toText)
  | left, .text right => .text (left.toText ++ right)
  | left, right => .number (left.toNumber + right.toNumber)

/-- The value that the left operand decides on its own, in which case the right one is not looked
at. -/
def BinaryOp.decided? : BinaryOp → Value → Option Value
  | .and, left => if left.isTruthy then none else some left
  | .or, left => if left.isTruthy then some left else none
  | .coalesce, left => if left.isNullish then none else some left
  | _, _ => none

/-- The value of two operands, where the left one did not decide it. -/
def BinaryOp.apply : BinaryOp → Value → Value → Value
  | .and, _, right => right
  | .or, _, right => right
  | .coalesce, _, right => right
  | .add, left, right => left.add right
  | .subtract, left, right => .number (left.toNumber - right.toNumber)
  | .multiply, left, right => .number (left.toNumber * right.toNumber)
  | .divide, left, right => .number (left.toNumber / right.toNumber)
  | .remainder, left, right => .number (Decimal.remainder left.toNumber right.toNumber)
  | .same, left, right => .bool (left.same right)
  | .different, left, right => .bool (!left.same right)

def templateText (hole : Expr → Option Value) :
    List (Option String) → List Expr → Option String
  | [], _ => some ""
  | chunk :: chunks, [] => return (← chunk) ++ (← templateText hole chunks [])
  | chunk :: chunks, first :: rest =>
      return (← chunk) ++ (← hole first).toText ++ (← templateText hole chunks rest)

def globalValue? : String → Option Value
  | "undefined" => some .undefined
  | "NaN" => some (.number (0.0 / 0.0))
  | "Infinity" => some (.number (1.0 / 0.0))
  | _ => none

def Expr.foldWithin (constants : Constants) (scopes : Scopes) : Nat → Expr → Option Value
  | 0, _ => none
  | fuel + 1, e =>
      match e with
      | .literal _ value => some value
      | .ident _ name =>
          if scopes.isShadowed name then
            match scopes.constInit? name with
            | some init => init.foldWithin constants scopes fuel
            | none => none
          else
            match globalValue? name with
            | some value => some value
            | none =>
                match constants.lookup name with
                | some init => init.foldWithin constants scopes fuel
                | none => none
      | .template _ chunks holes =>
          (templateText (Expr.foldWithin constants scopes fuel) chunks holes).map .text
      | .paren _ inner => inner.foldWithin constants scopes fuel
      | .typed _ inner _ => inner.foldWithin constants scopes fuel
      | .unary _ op operand => (operand.foldWithin constants scopes fuel).map op.apply
      | .binary _ op left right =>
          match left.foldWithin constants scopes fuel with
          | some value =>
              match op.decided? value with
              | some result => some result
              | none => (right.foldWithin constants scopes fuel).map (op.apply value)
          | none => none
      | .conditional _ test yes no =>
          match test.foldWithin constants scopes fuel with
          | some value =>
              if value.isTruthy then yes.foldWithin constants scopes fuel
              else no.foldWithin constants scopes fuel
          | none => none
      | _ => none

/-- Deeper expressions count as not constant, which also ends constants that refer to each
other. -/
def maxDepth : Nat := 32

def Expr.fold (constants : Constants) (scopes : Scopes) (e : Expr) : Option Value :=
  e.foldWithin constants scopes (maxDepth + 1)

end MessageCatalog.Script
