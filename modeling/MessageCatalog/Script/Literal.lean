import MessageCatalog.Decimal.Read
import MessageCatalog.Text.Characters

/-!
What is written inside literals: escapes, which stand for code units, and numbers. A pair of
surrogates makes one character, and a surrogate on its own reads as U+FFFD.
-/

namespace MessageCatalog.Script

def isLineEnd (c : Char) : Bool :=
  c == '\n' || c == '\r' || c == '\u2028' || c == '\u2029'

def digitBelow? (base : Nat) (c : Char) : Option Nat :=
  (Text.digitValue? c).filter fun value => value < base

/-- Octal digits, at most `count` more, as long as the value stays below 256; with their number. -/
def octalDigits (value : Nat) : Nat → List Char → Nat × Nat
  | _, [] => (value, 0)
  | 0, _ => (value, 0)
  | count + 1, c :: rest =>
      match digitBelow? 8 c with
      | some digit =>
          if value * 8 + digit < 256 then
            let (total, length) := octalDigits (value * 8 + digit) count rest
            (total, length + 1)
          else (value, 0)
      | none => (value, 0)

/-- What stands behind `\u`: four digits, or any number of them in braces. The code comes with the
number of characters that write it. -/
def unicodeEscape? (text : List Char) : Option (Nat × Nat) :=
  match text with
  | '\x7b' :: rest =>
      let digits := rest.takeWhile fun c => (Text.digitValue? c).isSome
      if digits.isEmpty || rest[digits.length]? != some '\x7d' then none
      else (Text.hexNumber? digits).bind fun code =>
        if code ≤ 0x10FFFF then some (code, digits.length + 2) else none
  | a :: b :: c :: d :: _ => (Text.hexNumber? [a, b, c, d]).map fun code => (code, 4)
  | _ => none

/-- The code unit that an escape stands for, if it stands for one, and the number of characters
behind the backslash that write it. Templates have no octal escapes. -/
def escape? (inTemplate : Bool) : List Char → Option (Option Nat × Nat)
  | [] => none
  | 'n' :: _ => some (some 0x0A, 1)
  | 't' :: _ => some (some 0x09, 1)
  | 'r' :: _ => some (some 0x0D, 1)
  | 'b' :: _ => some (some 0x08, 1)
  | 'v' :: _ => some (some 0x0B, 1)
  | 'f' :: _ => some (some 0x0C, 1)
  | '\r' :: '\n' :: _ => some (none, 2)
  | 'x' :: a :: b :: _ => (Text.hexNumber? [a, b]).map fun code => (some code, 3)
  | 'x' :: _ => none
  | 'u' :: rest => (unicodeEscape? rest).map fun (code, count) => (some code, count + 1)
  | c :: rest =>
      match digitBelow? 8 c with
      | some digit =>
          if c == '0' && !(rest.head?.any fun next => (digitBelow? 8 next).isSome) then
            some (some 0, 1)
          else if inTemplate then none
          else
            let (value, count) := octalDigits digit 2 rest
            some (some value, count + 1)
      | none => if isLineEnd c then some (none, 1) else some (some c.toNat, 1)

def textOfUnits : List Nat → List Char
  | [] => []
  | high :: low :: rest =>
      if 0xD800 ≤ high && high < 0xDC00 && 0xDC00 ≤ low && low < 0xE000 then
        Char.ofNat (0x10000 + (high - 0xD800) * 0x400 + (low - 0xDC00)) :: textOfUnits rest
      else
        (if high.isValidChar then Char.ofNat high else '\ufffd') :: textOfUnits (low :: rest)
  | [unit] => [if unit.isValidChar then Char.ofNat unit else '\ufffd']

def wholeNumber (base : Nat) (digits : List Char) : Float :=
  digits.foldl (fun value c => value * base.toFloat + ((Text.digitValue? c).getD 0).toFloat) 0.0

inductive Numeral where
  | number (value : Float)
  | bigInteger

def takeDigits (base : Nat) (text : List Char) : List Char × List Char :=
  let run := text.takeWhile fun c => c == '_' || (digitBelow? base c).isSome
  (run.filter (· != '_'), text.drop run.length)

def basedNumeral? (base : Nat) (text : List Char) : Option (Numeral × List Char) :=
  match takeDigits base text with
  | ([], _) => none
  | (_, 'n' :: rest) => some (.bigInteger, rest)
  | (digits, rest) => some (.number (wholeNumber base digits), rest)

def takeFraction (text : List Char) : List Char × List Char :=
  match text with
  | '.' :: rest =>
      let (digits, after) := takeDigits 10 rest
      ('.' :: digits, after)
  | _ => ([], text)

def takeExponent (text : List Char) : List Char × List Char :=
  match text with
  | [] => ([], [])
  | c :: rest =>
      if c == 'e' || c == 'E' then
        let (sign, unsigned) := Text.takeSign rest
        match takeDigits 10 unsigned with
        | ([], _) => ([], text)
        | (digits, after) => ('e' :: sign ++ digits, after)
      else ([], text)

def decimalNumeral? (text : List Char) : Option (Numeral × List Char) :=
  let (whole, rest) := takeDigits 10 text
  match rest with
  | 'n' :: after => if whole.isEmpty then none else some (.bigInteger, after)
  | _ =>
      let (fraction, rest) := takeFraction rest
      let (exponent, rest) := takeExponent rest
      (Decimal.parseFloat? (whole ++ fraction ++ exponent)).map fun value => (.number value, rest)

/-- A numeral at the head of a text. Digits behind a zero are octal if they can be. -/
def numeral? (text : List Char) : Option (Numeral × List Char) :=
  match text with
  | '0' :: letter :: rest =>
      if letter == 'x' || letter == 'X' then basedNumeral? 16 rest
      else if letter == 'o' || letter == 'O' then basedNumeral? 8 rest
      else if letter == 'b' || letter == 'B' then basedNumeral? 2 rest
      else if letter.isDigit then
        let run := (letter :: rest).takeWhile Char.isDigit
        if run.all fun c => (digitBelow? 8 c).isSome then
          some (.number (wholeNumber 8 run), (letter :: rest).drop run.length)
        else decimalNumeral? text
      else decimalNumeral? text
  | _ => decimalNumeral? text

end MessageCatalog.Script
