/-!
Patterns for paths. A question mark stands for one character, a star for any run of them, brackets
for one character of a class, and two stars that make up a whole step of a path for any number of
steps. A pattern matches a path as a whole.
-/

namespace MessageCatalog.Glob

inductive Cause where
  | wildcards
  | recursiveWildcards
  | range
  deriving DecidableEq, Repr

def Cause.message : Cause → String
  | .wildcards => "wildcards are either regular `*` or recursive `**`"
  | .recursiveWildcards => "recursive wildcards must form a single path component"
  | .range => "invalid range pattern"

structure PatternError where
  position : Nat
  cause : Cause
  deriving DecidableEq, Repr

def PatternError.display (e : PatternError) : String :=
  "Pattern syntax error near position " ++ toString e.position ++ ": " ++ e.cause.message

inductive Member where
  | one (c : Char)
  | range (first last : Char)
  deriving DecidableEq, Repr

def Member.contains (c : Char) : Member → Bool
  | .one member => c == member
  | .range first last => first ≤ c && c ≤ last

inductive Token where
  | exactly (c : Char)
  | anyChar
  | anyRun
  | anySteps
  | within (members : List Member)
  | without (members : List Member)
  deriving DecidableEq, Repr

/-- The only character that a token stands for. -/
def Token.char? : Token → Option Char
  | .exactly c => some c
  | _ => none

abbrev Pattern := List Token

/-! ### Reading patterns -/

def members : List Char → List Member
  | first :: '-' :: last :: rest => .range first last :: members rest
  | c :: rest => .one c :: members rest
  | [] => []

/-- The class behind an opening bracket, and the number of characters it takes with its closing
bracket. The first member may be a closing bracket itself. -/
def charClass? : List Char → Option (Token × Nat)
  | '!' :: first :: rest =>
      let inner := rest.takeWhile (· != ']')
      if inner.length < rest.length then
        some (.without (members (first :: inner)), inner.length + 3)
      else none
  | first :: rest =>
      let inner := rest.takeWhile (· != ']')
      if first != '!' && inner.length < rest.length then
        some (.within (members (first :: inner)), inner.length + 2)
      else none
  | [] => none

def addSteps (found : List Token) : List Token :=
  match found with
  | .anySteps :: _ :: _ => found
  | _ => .anySteps :: found

/-- Reads a pattern. `found` holds the tokens so far, last first, and `before` the character in
front; the first `pending` characters belong to a token that is read already. -/
def readFrom (found : List Token) (before : Option Char) (position pending : Nat) :
    List Char → Except PatternError Pattern
  | [] => .ok found.reverse
  | c :: rest =>
      match pending with
      | pending + 1 => readFrom found (some c) (position + 1) pending rest
      | 0 =>
          if c == '?' then readFrom (.anyChar :: found) (some c) (position + 1) 0 rest
          else if c == '*' then
            let stars := (rest.takeWhile (· == '*')).length + 1
            if stars > 2 then .error ⟨position + 2, .wildcards⟩
            else if stars == 1 then readFrom (.anyRun :: found) (some c) (position + 1) 0 rest
            else if before.any (· != '/') then .error ⟨position - 1, .recursiveWildcards⟩
            else
              match rest.drop 1 with
              | [] => readFrom (addSteps found) (some c) (position + 1) 1 rest
              | '/' :: _ => readFrom (addSteps found) (some c) (position + 1) 2 rest
              | _ => .error ⟨position + 2, .recursiveWildcards⟩
          else if c == '[' then
            match charClass? rest with
            | some (token, count) => readFrom (token :: found) (some c) (position + 1) count rest
            | none => .error ⟨position, .range⟩
          else readFrom (.exactly c :: found) (some c) (position + 1) 0 rest

def Pattern.parse (text : String) : Except PatternError Pattern :=
  readFrom [] none 0 0 text.toList

/-! ### Matching -/

def Token.accepts (c : Char) : Token → Bool
  | .exactly expected => c == expected
  | .anyChar => true
  | .within members => members.any (Member.contains c)
  | .without members => !members.any (Member.contains c)
  | .anyRun => false
  | .anySteps => false

def anySuffix (holds : List Char → Bool) : List Char → Bool
  | [] => holds []
  | c :: rest => holds (c :: rest) || anySuffix holds rest

/-- Whether what is left of a text behind some slash, or nothing at all, has a property. -/
def anyStep (holds : List Char → Bool) : List Char → Bool
  | [] => holds []
  | c :: rest => (c == '/' && holds rest) || anyStep holds rest

def Pattern.matches : Pattern → List Char → Bool
  | [], text => text.isEmpty
  | .anyRun :: tokens, text => anySuffix (Pattern.matches tokens) text
  | .anySteps :: tokens, text =>
      Pattern.matches tokens text || anyStep (Pattern.matches tokens) text
  | token :: tokens, text =>
      match text with
      | [] => false
      | c :: rest => token.accepts c && Pattern.matches tokens rest

/-- A pattern without a star and a question mark names a path. -/
def isPattern (text : String) : Bool :=
  text.toList.any fun c => c == '*' || c == '?'

end MessageCatalog.Glob
