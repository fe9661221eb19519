import MessageCatalog.Script.Value
import MessageCatalog.Text.Lines

/-!
Syntax trees of scripts, as far as constant folding and extraction look at them. Forms that fold
to nothing and bind nothing are kept as `other`, with their parts in the order in which they are
walked over. Every number called `start` is the byte offset of a node's first character.
-/

namespace MessageCatalog.Script

inductive UnaryOp where
  | minus
  | plus
  | not
  | typeOf
  | void
  deriving DecidableEq, Repr

inductive BinaryOp where
  | and
  | or
  | coalesce
  | add
  | subtract
  | multiply
  | divide
  | remainder
  | same
  | different
  deriving DecidableEq, Repr

inductive FunctionKind where
  | function
  | method
  | arrow
  | constructor
  | accessor
  deriving DecidableEq, Repr

inductive TagName where
  | path (first : String) (rest : List String)
  | namespaced (space name : String)
  deriving DecidableEq, Repr

mutual

inductive Expr where
  | ident (start : Nat) (name : String)
  | literal (start : Nat) (value : Value)
  /-- A template; a chunk with an escape that means nothing has no text. -/
  | template (start : Nat) (chunks : List (Option String)) (holes : List Expr)
  | paren (start : Nat) (inner : Expr)
  /-- An expression that is given a type, or asserted not to be null. -/
  | typed (start : Nat) (inner : Expr) (inType : List Expr)
  | unary (start : Nat) (op : UnaryOp) (operand : Expr)
  | binary (start : Nat) (op : BinaryOp) (left right : Expr)
  | conditional (start : Nat) (test yes no : Expr)
  | member (start : Nat) (object : Expr) (name : String)
  | index (start : Nat) (object key : Expr)
  | call (start : Nat) (callee : Expr) (arguments : List Argument) (inType : List Expr)
  | object (span : Span) (properties : List Property)
  | element (element : Element)
  | other (start : Nat) (parts : List Part)

inductive Argument where
  | plain (value : Expr)
  | spread (value : Expr)

inductive Key where
  | name (start : Nat) (text : String)
  | literal (start : Nat) (value : Value)
  | bigInteger (start : Nat)
  | computed (start : Nat) (value : Expr)

inductive Property where
  | keyed (key : Key) (value : Expr)
  | shorthand (start : Nat) (name : String)
  | assigned (start : Nat) (name : String) (value : Expr)
  | method (start : Nat) (key : Key) (function : Part)
  | spread (start : Nat) (value : Expr)

inductive AttributeValue where
  | missing
  | text (start : Nat) (content : String)
  | braces (start : Nat) (value : Expr)
  | markup (start : Nat) (value : Expr)

inductive Attribute where
  | named (span : Span) (name : String) (value : AttributeValue)
  | spread (value : Expr)

/-- A markup element; the texts among its children are left out. -/
inductive Element where
  | mk (start : Nat) (tag : TagName) (attributes : List Attribute) (inType : List Expr)
      (children : List Expr)

inductive Pattern where
  | name (text : String) (inType : List Expr)
  | withDefault (target : Pattern) (value : Expr)
  | group (parts : List Pattern)
  /-- A computed key, or an expression in a type. -/
  | expr (value : Expr)

inductive Declarator where
  | mk (target : Pattern) (init : Option Expr)

inductive Part where
  | expr (value : Expr)
  | variableDeclaration (constant : Bool) (declarators : List Declarator)
  | declaration (name : String) (parts : List Part)
  | function (kind : FunctionKind) (parameters : List Pattern) (parts : List Part)
  | block (parts : List Part)
  | catching (parameter : Option Pattern) (parts : List Part)
  | group (parts : List Part)

end

mutual

def Pattern.exprs : Pattern → List Expr
  | .name _ inType => inType
  | .withDefault target value => target.exprs ++ [value]
  | .group parts => Pattern.exprsOfAll parts
  | .expr value => [value]

def Pattern.exprsOfAll : List Pattern → List Expr
  | [] => []
  | first :: rest => first.exprs ++ Pattern.exprsOfAll rest

end

def Expr.start : Expr → Nat
  | .ident start _ => start
  | .literal start _ => start
  | .template start _ _ => start
  | .paren start _ => start
  | .typed start _ _ => start
  | .unary start _ _ => start
  | .binary start _ _ _ => start
  | .conditional start _ _ _ => start
  | .member start _ _ => start
  | .index start _ _ => start
  | .call start _ _ _ => start
  | .object span _ => span.start
  | .element (.mk start _ _ _ _) => start
  | .other start _ => start

def Argument.value : Argument → Expr
  | .plain value => value
  | .spread value => value

def Key.start : Key → Nat
  | .name start _ => start
  | .literal start _ => start
  | .bigInteger start => start
  | .computed start _ => start

structure ImportedName where
  localName : String
  imported : String
  typeOnly : Bool
  deriving DecidableEq, Repr

structure Import where
  source : String
  typeOnly : Bool
  names : List ImportedName
  deriving DecidableEq, Repr

inductive Item where
  | imports (declaration : Import)
  | part (value : Part)

def Item.toPart : Item → Part
  | .imports _ => .group []
  | .part value => value

structure Module where
  items : List Item

end MessageCatalog.Script
