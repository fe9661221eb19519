import MessageCatalog.Json.Basic
import MessageCatalog.Text.Characters

/-!
Reading JSON texts. Nothing but white space may stand before and behind the value.
-/

namespace MessageCatalog.Json

def isJsonBlank (c : Char) : Bool :=
  c == ' ' || c == '\n' || c == '\t' || c == '\r'

def skipBlanks (input : List Char) : List Char :=
  input.dropWhile isJsonBlank

def textUnits : List Char → Option (List Nat × List Char)
  | [] => none
  | '"' :: rest => some ([], rest)
  | '\\' :: 'u' :: a :: b :: c :: d :: rest => do
      let unit ← Text.hexNumber? [a, b, c, d]
      let (units, after) ← textUnits rest
      return (unit :: units, after)
  | '\\' :: c :: rest => do
      let unit ← escapes.lookup c
      let (units, after) ← textUnits rest
      return (unit.toNat :: units, after)
  | c :: rest =>
      if c.toNat < 0x20 || c == '\\' then none
      else do
        let (units, after) ← textUnits rest
        return (c.toNat :: units, after)
where
  escapes : List (Char × Char) :=
    [('"', '"'), ('\\', '\\'), ('/', '/'), ('b', '\x08'), ('f', '\x0c'), ('n', '\n'), ('r', '\r'),
     ('t', '\t')]

def pairedText? : List Nat → Option (List Char)
  | [] => some []
  | high :: low :: rest =>
      if 0xD800 ≤ high && high < 0xDC00 && 0xDC00 ≤ low && low < 0xE000 then
        (pairedText? rest).map
          (Char.ofNat (0x10000 + (high - 0xD800) * 0x400 + (low - 0xDC00)) :: ·)
      else if high.isValidChar then (pairedText? (low :: rest)).map (Char.ofNat high :: ·)
      else none
  | [unit] => if unit.isValidChar then some [Char.ofNat unit] else none

def digits (input : List Char) : List Char × List Char :=
  (input.takeWhile Char.isDigit, input.dropWhile Char.isDigit)

/-- A point with digits behind it, or nothing. -/
def fraction? (input : List Char) : Option (List Char × List Char) :=
  match input with
  | '.' :: rest =>
      match digits rest with
      | ([], _) => none
      | (found, after) => some ('.' :: found, after)
  | _ => some ([], input)

/-- A letter e with digits behind it, and perhaps a sign between them, or nothing. -/
def exponent? (input : List Char) : Option (List Char × List Char) :=
  match input with
  | [] => some ([], [])
  | c :: rest =>
      if c == 'e' || c == 'E' then
        let (sign, unsigned) := Text.takeSign rest
        match digits unsigned with
        | ([], _) => none
        | (found, after) => some (c :: sign ++ found, after)
      else some ([], input)

/-- A whole number in front of which no zero stands. -/
def whole? (input : List Char) : Option (List Char × List Char) :=
  match digits input with
  | ([], _) => none
  | (['0'], after) => some (['0'], after)
  | ('0' :: _, _) => none
  | (found, after) => some (found, after)

def number? (input : List Char) : Option (Value × List Char) := do
  let (sign, unsigned) := if input.head? == some '-' then (['-'], input.tail) else ([], input)
  let (whole, rest) ← whole? unsigned
  let (fraction, rest) ← fraction? rest
  let (exponent, rest) ← exponent? rest
  if fraction.isEmpty && exponent.isEmpty then
    let value := whole.foldl (fun value c => value * 10 + (c.toNat - 48)) 0
    return (.integer (if sign.isEmpty then Int.ofNat value else -Int.ofNat value), rest)
  else return (.decimal (String.ofList (sign ++ whole ++ fraction ++ exponent)), rest)

/-- A key, behind its opening quote; it has to have a content. -/
def key? (input : List Char) : Option (String × List Char) := do
  let (units, rest) ← textUnits input
  let content ← pairedText? units
  return (String.ofList content, rest)

def textValue? (input : List Char) : Option (Value × List Char) := do
  let (units, rest) ← textUnits input
  match pairedText? units with
  | some content => return (.text (String.ofList content), rest)
  | none => return (.brokenText, rest)

mutual

/-- A value at the head of a text, and what follows. The fuel bounds the number of steps. -/
def value? : Nat → List Char → Option (Value × List Char)
  | 0, _ => none
  | fuel + 1, input =>
      match skipBlanks input with
      | 'n' :: 'u' :: 'l' :: 'l' :: rest => some (.null, rest)
      | 't' :: 'r' :: 'u' :: 'e' :: rest => some (.bool true, rest)
      | 'f' :: 'a' :: 'l' :: 's' :: 'e' :: rest => some (.bool false, rest)
      | '"' :: rest => textValue? rest
      | '[' :: rest =>
          match skipBlanks rest with
          | ']' :: after => some (.array [], after)
          | _ => do
              let (items, after) ← items? fuel rest
              return (.array items, after)
      | '\x7b' :: rest =>
          match skipBlanks rest with
          | '\x7d' :: after => some (.object [], after)
          | _ => do
              let (fields, after) ← fields? fuel rest
              return (.object fields, after)
      | other => number? other

def items? : Nat → List Char → Option (List Value × List Char)
  | 0, _ => none
  | fuel + 1, input => do
      let (first, rest) ← value? fuel input
      match skipBlanks rest with
      | ',' :: after => do
          let (items, after) ← items? fuel after
          return (first :: items, after)
      | ']' :: after => return ([first], after)
      | _ => none

def fields? : Nat → List Char → Option (List (String × Value) × List Char)
  | 0, _ => none
  | fuel + 1, input =>
      match skipBlanks input with
      | '"' :: rest => do
          let (key, rest) ← key? rest
          match skipBlanks rest with
          | ':' :: rest => do
              let (first, rest) ← value? fuel rest
              match skipBlanks rest with
              | ',' :: after => do
                  let (fields, after) ← fields? fuel after
                  return ((key, first) :: fields, after)
              | '\x7d' :: after => return ([(key, first)], after)
              | _ => none
          | _ => none
      | _ => none

end

def parse? (text : String) : Option Value := do
  let (value, rest) ← value? (2 * text.length + 2) text.toList
  if (skipBlanks rest).isEmpty then return value else none

end MessageCatalog.Json
