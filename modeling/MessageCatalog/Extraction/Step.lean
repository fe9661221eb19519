import MessageCatalog.Script.Scope

/-!
What extraction meets on its walk over a module: scopes that open and close, declarations,
elements and calls, in the order in which they are met. What a class extends is met behind its
members, the condition of a `do` loop before its body, and the types of a function behind its
body, which is the order in which the parts of a syntax tree stand.
-/

namespace MessageCatalog.Extraction

open Script

inductive Step where
  | declare (names : List String)
  | constant (name : String) (init : Expr)
  | scope (names : List String) (inner : List Step)
  | element (start : Nat) (tag : TagName) (attributes : List Attribute)
  | call (start : Nat) (callee : Expr) (arguments : List Argument)
      (inCallee inFirst inLater inType : List Step)

/-- Constructors, and the accessors of objects, open no scope around their parameters. -/
def opensScope : FunctionKind → Bool
  | .function => true
  | .method => true
  | .arrow => true
  | .constructor => false
  | .accessor => false

/-- A function's parameters are declared in a scope around it, if it opens one. -/
def functionScope (kind : FunctionKind) (parameters : List Pattern) (inner : List Step) :
    List Step :=
  if opensScope kind then [.scope (Pattern.namesOfAll parameters) inner] else inner

def declaration (constant : Bool) : Declarator → Step
  | .mk target init =>
      match constant, target, init with
      | true, .name text _, some init => .constant text init
      | _, _, _ => .declare target.names

mutual

def ofExpr : Expr → List Step
  | .ident _ _ => []
  | .literal _ _ => []
  | .template _ _ holes => ofExprs holes
  | .paren _ inner => ofExpr inner
  | .typed _ inner inType => ofExpr inner ++ ofExprs inType
  | .unary _ _ operand => ofExpr operand
  | .binary _ _ left right => ofExpr left ++ ofExpr right
  | .conditional _ test yes no => ofExpr test ++ ofExpr yes ++ ofExpr no
  | .member _ object _ => ofExpr object
  | .index _ object key => ofExpr object ++ ofExpr key
  | .call start callee arguments inType =>
      [.call start callee arguments (ofExpr callee) (ofFirst arguments) (ofLater arguments)
        (ofExprs inType)]
  | .object _ properties => ofProperties properties
  | .element element => ofElement element
  | .other _ parts => ofParts parts

def ofExprs : List Expr → List Step
  | [] => []
  | first :: rest => ofExpr first ++ ofExprs rest

def ofArgument : Argument → List Step
  | .plain value => ofExpr value
  | .spread value => ofExpr value

def ofArguments : List Argument → List Step
  | [] => []
  | first :: rest => ofArgument first ++ ofArguments rest

def ofFirst : List Argument → List Step
  | [] => []
  | first :: _ => ofArgument first

def ofLater : List Argument → List Step
  | [] => []
  | _ :: rest => ofArguments rest

def ofKey : Key → List Step
  | .computed _ value => ofExpr value
  | .name _ _ => []
  | .literal _ _ => []
  | .bigInteger _ => []

def ofProperty : Property → List Step
  | .keyed key value => ofKey key ++ ofExpr value
  | .shorthand _ _ => []
  | .assigned _ _ value => ofExpr value
  | .method _ key function => ofKey key ++ ofPart function
  | .spread _ value => ofExpr value

def ofProperties : List Property → List Step
  | [] => []
  | first :: rest => ofProperty first ++ ofProperties rest

def ofAttributeValue : AttributeValue → List Step
  | .missing => []
  | .text _ _ => []
  | .braces _ value => ofExpr value
  | .markup _ value => ofExpr value

def ofAttribute : Attribute → List Step
  | .named _ _ value => ofAttributeValue value
  | .spread value => ofExpr value

def ofAttributes : List Attribute → List Step
  | [] => []
  | first :: rest => ofAttribute first ++ ofAttributes rest

def ofElement : Element → List Step
  | .mk start tag attributes inType children =>
      .element start tag attributes :: (ofAttributes attributes ++ ofExprs inType ++
        ofExprs children)

def ofPattern : Pattern → List Step
  | .name _ inType => ofExprs inType
  | .withDefault target value => ofPattern target ++ ofExpr value
  | .group parts => ofPatterns parts
  | .expr value => ofExpr value

def ofPatterns : List Pattern → List Step
  | [] => []
  | first :: rest => ofPattern first ++ ofPatterns rest

def ofDeclarator : Declarator → List Step
  | .mk target none => ofPattern target
  | .mk target (some init) => ofPattern target ++ ofExpr init

def ofDeclarators : List Declarator → List Step
  | [] => []
  | first :: rest => ofDeclarator first ++ ofDeclarators rest

def ofPart : Part → List Step
  | .expr value => ofExpr value
  | .variableDeclaration constant declarators =>
      declarators.map (declaration constant) ++ ofDeclarators declarators
  | .declaration name parts => .declare [name] :: ofParts parts
  | .function kind parameters parts =>
      functionScope kind parameters (ofPatterns parameters ++ ofParts parts)
  | .block parts => [.scope [] (ofParts parts)]
  | .catching none parts => [.scope [] (ofParts parts)]
  | .catching (some parameter) parts =>
      [.scope parameter.names (ofPattern parameter ++ ofParts parts)]
  | .group parts => ofParts parts

def ofParts : List Part → List Step
  | [] => []
  | first :: rest => ofPart first ++ ofParts rest

end

def ofItem : Item → List Step
  | .imports _ => []
  | .part value => ofPart value

def ofModule (m : Module) : List Step :=
  m.items.flatMap ofItem

end MessageCatalog.Extraction
