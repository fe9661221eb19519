import MessageCatalog.Proofs.Message.Tokens

/-!
Canonical messages: the trees that are read back as they were printed. Their texts are as long as
they can be and hold no control characters, and their styles and selectors need no escapes.
-/

namespace MessageCatalog.Message

def isName (name : List Char) : Bool :=
  !name.isEmpty && name.all fun c => !endsName c

def isToken (text : List Char) : Bool :=
  !text.isEmpty && text.all isTokenChar

def isNumber (digits : List Char) : Bool :=
  digits == ['0'] || (!digits.isEmpty && digits.all Char.isDigit && digits.head? != some '0')

def isSelector : List Char → Bool
  | '=' :: digits => isNumber digits
  | text => isToken text

def offsetMark : List Char :=
  ['o', 'f', 'f', 's', 'e', 't', ':']

def Choice.selector : Choice → String
  | .mk selector _ => selector

def Element.isText : Element → Bool
  | .text _ => true
  | _ => false

def readsAsOffset : List Choice → Bool
  | [] => false
  | first :: _ => offsetMark.isPrefixOf first.selector.toList

def startsWithSpace : List Element → Bool
  | .text content :: _ => content.toList.head?.any isSpace
  | _ => false

def endsWithSpace (elements : List Element) : Bool :=
  match elements.getLast? with
  | some (.text content) => content.toList.getLast?.any isSpace
  | _ => false

mutual

def Element.isCanonical : Element → Bool
  | .text content => !content.toList.isEmpty && content.toList.all fun c => !isControl c
  | .escapedHash => true
  | .argument name none => isName name.toList
  | .argument name (some format) => isName name.toList && format.isCanonical

def Format.isCanonical : Format → Bool
  | .simple _ none => true
  | .simple _ (some style) => isToken style.toList
  | .plural _ offset options =>
      decide (offset < UInt64.size) && !options.isEmpty && (offset != 0 || !readsAsOffset options) &&
        areCanonicalOptions options
  | .select options => !options.isEmpty && areCanonicalOptions options

def Choice.isCanonical : Choice → Bool
  | .mk selector body =>
      isSelector selector.toList && areCanonical body && !startsWithSpace body &&
        !endsWithSpace body

def areCanonical : List Element → Bool
  | [] => true
  | first :: rest =>
      first.isCanonical && !(first.isText && rest.head?.any Element.isText) && areCanonical rest

def areCanonicalOptions : List Choice → Bool
  | [] => true
  | first :: rest => first.isCanonical && areCanonicalOptions rest

end

/-- A message as it is read from its own canonical text. An offset is a number of 64 bits. -/
def Canonical (elements : List Element) : Prop :=
  areCanonical elements = true

instance (elements : List Element) : Decidable (Canonical elements) :=
  inferInstanceAs (Decidable (areCanonical elements = true))

end MessageCatalog.Message
