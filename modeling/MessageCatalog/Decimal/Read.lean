/-!
Reading decimals: an optional sign, digits with an optional point among or beside them, and an
optional exponent; or the names of the infinity and of NaN in any case.
-/

namespace MessageCatalog.Decimal

def isDigit (c : Char) : Bool :=
  '0' ≤ c && c ≤ '9'

def digitsValue (digits : List Char) : Nat :=
  digits.foldl (fun value c => value * 10 + (c.toNat - 48)) 0

/-- `mantissa * 10 ^ exponent`, rounded to the nearest number. Exponents that certainly
overflow or underflow are not raised to a power. -/
def nearest (mantissa : Nat) (exponent : Int) : Float :=
  if mantissa = 0 then 0.0
  else
    let size : Int := (Nat.toDigits 10 mantissa).length
    if size + exponent > 400 then 1.0 / 0.0
    else if size + exponent < -400 then 0.0
    else if exponent ≥ 0 then Float.ofScientific (mantissa * Nat.pow 10 exponent.toNat) false 0
    else Float.ofScientific mantissa true (-exponent).toNat

def splitSign : List Char → Bool × List Char
  | '-' :: rest => (true, rest)
  | '+' :: rest => (false, rest)
  | text => (false, text)

/-- The exponent part, if the text is nothing or an exponent. -/
def exponent? : List Char → Option Int
  | [] => some 0
  | c :: rest =>
      if c == 'e' || c == 'E' then
        let (negative, digits) := splitSign rest
        if digits.isEmpty || !digits.all isDigit then none
        else some (if negative then -(digitsValue digits : Int) else digitsValue digits)
      else none

/-- A number without its sign. -/
def unsigned? (text : List Char) : Option Float :=
  let whole := text.takeWhile isDigit
  let rest := text.dropWhile isDigit
  let (fraction, rest) :=
    match rest with
    | '.' :: after => (after.takeWhile isDigit, after.dropWhile isDigit)
    | _ => ([], rest)
  if whole.isEmpty && fraction.isEmpty then none
  else (exponent? rest).map fun exponent =>
    nearest (digitsValue (whole ++ fraction)) (exponent - fraction.length)

/-- The name of a number that has no digits. -/
def named? (text : List Char) : Option Float :=
  let name := text.map Char.toLower
  if name == "inf".toList || name == "infinity".toList then some (1.0 / 0.0)
  else if name == "nan".toList then some (0.0 / 0.0)
  else none

def parseFloat? (text : List Char) : Option Float :=
  let (negative, rest) := splitSign text
  ((named? rest).or (unsigned? rest)).map fun x => if negative then -x else x

end MessageCatalog.Decimal
