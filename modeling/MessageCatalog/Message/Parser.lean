import MessageCatalog.Message.Element
import MessageCatalog.Text.Characters

/-!
Reading message texts. White space inside literal text is kept; it has no meaning between the
tokens of an argument and at the two ends of an option's message. Each reader takes a cursor
and returns the cursor behind what it read, so an error names the byte offset where it shows.
-/

namespace MessageCatalog.Message

structure Cursor where
  offset : Nat
  rest : List Char

abbrev Outcome := Except SyntaxError

def Cursor.fail {α : Type} (c : Cursor) (cause : Cause) : Except SyntaxError α :=
  .error ⟨c.offset, cause⟩

def isSpace (c : Char) : Bool :=
  c == ' ' || c == '\t' || c == '\n' || c == '\r'

theorem isSpace_iff {c : Char} : isSpace c = true ↔ c ∈ [' ', '\t', '\n', '\r'] := by
  simp [isSpace, or_assoc]

def isControl (c : Char) : Bool :=
  (c.toNat ≤ 0x1F && !isSpace c) || c.toNat == 0x7F

theorem isControl_iff {c : Char} :
    isControl c = true ↔ c.toNat ≤ 0x08 ∨ c.toNat = 0x0B ∨ c.toNat = 0x0C ∨
      (0x0E ≤ c.toNat ∧ c.toNat ≤ 0x1F) ∨ c.toNat = 0x7F := by
  have code (x : Char) : c = x ↔ c.toNat = x.toNat :=
    ⟨congrArg Char.toNat, fun same => Char.ext (UInt32.toNat_inj.mp same)⟩
  simp only [isControl, isSpace, Bool.or_eq_true, Bool.and_eq_true, Bool.not_eq_true',
    Bool.or_eq_false_iff, beq_eq_false_iff_ne, decide_eq_true_eq, beq_iff_eq, ne_eq, code,
    Char.reduceToNat]
  omega

def endsName (c : Char) : Bool :=
  isSpace c || c == ',' || c == '.' || c == '+' || c == '=' || c == '\x7b' || c == '\x7d' ||
    c == '#'

theorem endsName_iff {c : Char} :
    endsName c = true ↔
      c ∈ [' ', '\t', '\n', '\r', ',', '.', '+', '=', '\x7b', '\x7d', '#'] := by
  simp [endsName, isSpace, or_assoc]

def Cursor.next (c : Cursor) : Cursor :=
  match c.rest with
  | [] => c
  | head :: rest => ⟨c.offset + head.utf8Size, rest⟩

def takeRun (accepts : Char → Bool) (offset : Nat) : List Char → List Char × Cursor
  | [] => ([], ⟨offset, []⟩)
  | head :: rest =>
      if accepts head then
        let (run, after) := takeRun accepts (offset + head.utf8Size) rest
        (head :: run, after)
      else ([], ⟨offset, head :: rest⟩)

def Cursor.takeRun (accepts : Char → Bool) (c : Cursor) : List Char × Cursor :=
  Message.takeRun accepts c.offset c.rest

def Cursor.skipSpace (c : Cursor) : Cursor :=
  (c.takeRun isSpace).2

def expect (wanted : Char) (c : Cursor) : Except SyntaxError Cursor :=
  match c.rest with
  | [] => c.fail (.expected wanted none)
  | head :: _ => if head == wanted then .ok c.next else c.fail (.expected wanted (some head))

inductive Piece where
  | char (c : Char)
  | whole (element : Element)

def joinPieces : List Piece → List Element
  | [] => []
  | .whole element :: rest => element :: joinPieces rest
  | .char c :: rest =>
      match joinPieces rest with
      | .text content :: elements => .text (String.ofList (c :: content.toList)) :: elements
      | elements => .text (String.ofList [c]) :: elements

def charOfCode? (code : Nat) : Option Char :=
  if code.isValidChar then some (Char.ofNat code) else none

def hexEscape? : List Char → Option (Char × List Char)
  | a :: b :: c :: d :: rest => do
      let high := (← Text.digitValue? a) * 16 + (← Text.digitValue? b)
      let low := (← Text.digitValue? c) * 16 + (← Text.digitValue? d)
      return (← charOfCode? (high * 256 + low), rest)
  | _ => none

/-- Reads an escape; the cursor stands at its backslash. -/
def escape (c : Cursor) : Outcome (Piece × Cursor) :=
  match c.rest with
  | '\\' :: '#' :: rest => .ok (.whole .escapedHash, ⟨c.offset + 2, rest⟩)
  | '\\' :: '\x7b' :: rest => .ok (.char '\x7b', ⟨c.offset + 2, rest⟩)
  | '\\' :: '\x7d' :: rest => .ok (.char '\x7d', ⟨c.offset + 2, rest⟩)
  | '\\' :: '\\' :: rest => .ok (.char '\\', ⟨c.offset + 2, rest⟩)
  | '\\' :: 'u' :: rest =>
      match hexEscape? rest with
      | some (char, after) => .ok (.char char, ⟨c.offset + 6, after⟩)
      | none => c.fail .unicodeEscape
  | _ => c.fail .escape

/-- A run of characters up to white space or a brace, escapes decoded. The fuel bounds the
number of characters. -/
def token : Nat → Cursor → Outcome (List Char × Cursor)
  | 0, c => .ok ([], c)
  | fuel + 1, c =>
      match c.rest with
      | [] => .ok ([], c)
      | head :: _ =>
          if isSpace head || head == '\x7b' || head == '\x7d' then .ok ([], c)
          else if head == '\\' then do
            let (piece, c) ← escape c
            let (rest, c) ← token fuel c
            match piece with
            | .char char => return (char :: rest, c)
            | .whole _ => return ('#' :: rest, c)
          else if isControl head then c.fail (.controlCharacter head)
          else do
            let (rest, c) ← token fuel c.next
            return (head :: rest, c)

def Cursor.token (c : Cursor) : Outcome (List Char × Cursor) :=
  Message.token c.rest.length c

/-- A zero, or digits that do not begin with one. -/
def number (c : Cursor) : Outcome (List Char × Cursor) :=
  match c.rest with
  | '0' :: _ => .ok (['0'], c.next)
  | _ =>
      match c.takeRun Char.isDigit with
      | ([], _) => c.fail .missingNumber
      | (digits, after) => .ok (digits, after)

def digitsValue (digits : List Char) : Nat :=
  digits.foldl (fun value c => value * 10 + (c.toNat - 48)) 0

/-- The offset in front of a plural's options, zero if none is written. -/
def pluralOffset (c : Cursor) : Outcome (Nat × Cursor) :=
  match c.rest with
  | 'o' :: 'f' :: 'f' :: 's' :: 'e' :: 't' :: ':' :: rest => do
      let (digits, after) ← number (Cursor.skipSpace ⟨c.offset + 7, rest⟩)
      let value := digitsValue digits
      if value < UInt64.size then return (value, after) else after.fail .offsetRange
  | _ => .ok (0, c)

def argumentName (c : Cursor) : Outcome (String × Cursor) :=
  match c.takeRun (fun head => !endsName head) with
  | ([], _) => c.fail .missingName
  | (name, after) => .ok (String.ofList name, after)

def style (c : Cursor) : Outcome (Option String × Cursor) :=
  let c := c.skipSpace
  match c.rest with
  | ',' :: _ => do
      let (text, after) ← c.next.skipSpace.token
      if text.isEmpty then after.fail .missingStyle else return (some (String.ofList text), after)
  | _ => .ok (none, c)

def selectorText (c : Cursor) : Outcome (List Char × Cursor) :=
  match c.rest with
  | '=' :: _ => do
      let (digits, after) ← number c.next
      return ('=' :: digits, after)
  | _ => c.token

def selector (c : Cursor) : Outcome (String × Cursor) := do
  let (text, after) ← selectorText c
  if text.isEmpty then after.fail .missingSelector else return (String.ofList text, after)

def trimHead : List Element → List Element
  | .text content :: rest => .text (String.ofList (content.toList.dropWhile isSpace)) :: rest
  | elements => elements

def trimLast : List Element → List Element
  | [] => []
  | [.text content] =>
      [.text (String.ofList (content.toList.reverse.dropWhile isSpace).reverse)]
  | element :: rest => element :: trimLast rest

def Element.isEmptyText : Element → Bool
  | .text content => content.isEmpty
  | _ => false

/-- The message of an option has no white space at its two ends, and no empty text. -/
def trimBody (elements : List Element) : List Element :=
  (trimLast (trimHead elements)).filter fun element => !element.isEmptyText

/-- What a reader of formats finds behind a comma, if there is one. -/
def announced (read : Cursor → Outcome (Format × Cursor)) (c : Cursor) :
    Outcome (Option Format × Cursor) :=
  match c.rest with
  | ',' :: _ => do
      let (format, after) ← read c.next.skipSpace
      return (some format, after)
  | _ => .ok (none, c)

mutual

/-- The pieces of a message. A nested message stops before its closing brace; the outermost one
at the end, or before a brace that closes nothing. -/
def pieces : Nat → Bool → Cursor → Outcome (List Piece × Cursor)
  | 0, _, c => .ok ([], c)
  | fuel + 1, nested, c =>
      match c.rest with
      | [] => if nested then c.fail (.expected '\x7d' none) else .ok ([], c)
      | head :: _ =>
          if head == '\x7d' then .ok ([], c)
          else if head == '\x7b' then do
            let (element, c) ← argument fuel c
            let (rest, c) ← pieces fuel nested c
            return (.whole element :: rest, c)
          else if head == '\\' then do
            let (piece, c) ← escape c
            let (rest, c) ← pieces fuel nested c
            return (piece :: rest, c)
          else if isControl head then c.fail (.controlCharacter head)
          else do
            let (rest, c) ← pieces fuel nested c.next
            return (.char head :: rest, c)

def argument : Nat → Cursor → Outcome (Element × Cursor)
  | 0, c => .ok (.escapedHash, c)
  | fuel + 1, c => do
      let c ← expect '\x7b' c
      let (name, c) ← argumentName c.skipSpace
      let (format, c) ← announced (argumentFormat fuel) c.skipSpace
      let c ← expect '\x7d' c.skipSpace
      return (.argument name format, c)

def argumentFormat : Nat → Cursor → Outcome (Format × Cursor)
  | 0, c => c.fail .missingType
  | fuel + 1, c => do
      let (letters, after) := c.takeRun Char.isAlphanum
      let keyword := String.ofList letters
      match SimpleKind.ofKeyword? keyword with
      | some kind =>
          let (style, after) ← style after
          return (.simple kind style, after)
      | none =>
          if keyword == "plural" || keyword == "selectordinal" then
            let after ← expect ',' after.skipSpace
            let (offset, after) ← pluralOffset after.skipSpace
            let (options, after) ← choices fuel after
            if options.isEmpty then after.fail .missingOption
            else return (.plural (keyword == "selectordinal") offset options, after)
          else if keyword == "select" then
            let after ← expect ',' after.skipSpace
            let (options, after) ← choices fuel after
            if options.isEmpty then after.fail .missingOption
            else return (.select options, after)
          else if keyword.isEmpty then c.fail .missingType
          else c.fail (.unknownType keyword)

def choices : Nat → Cursor → Outcome (List Choice × Cursor)
  | 0, c => .ok ([], c)
  | fuel + 1, c =>
      let c := c.skipSpace
      match c.rest with
      | [] => .ok ([], c)
      | '\x7d' :: _ => .ok ([], c)
      | _ => do
          let (option, c) ← choice fuel c
          let (rest, c) ← choices fuel c
          return (option :: rest, c)

def choice : Nat → Cursor → Outcome (Choice × Cursor)
  | 0, c => c.fail .missingSelector
  | fuel + 1, c => do
      let (selector, c) ← selector c
      let c ← expect '\x7b' c.skipSpace
      let (body, c) ← pieces fuel true c
      let c ← expect '\x7d' c
      return (.mk selector (trimBody (joinPieces body)), c)

end

/-- Every reader above moves over at least one character on its way to the next but one, so
twice the length of a text is fuel enough. -/
def fuelFor (text : List Char) : Nat :=
  2 * text.length + 6

def parse (text : String) : Except SyntaxError (List Element) := do
  let (found, after) ← pieces (fuelFor text.toList) false ⟨0, text.toList⟩
  match after.rest with
  | [] => return joinPieces found
  | _ => after.fail .strayBrace

end MessageCatalog.Message
