import MessageCatalog.Decimal.Binary

/-!
The shortest decimal that reads back as a given floating-point number, and its positional text.
Among the decimals with the fewest digits the nearest one is taken.
-/

namespace MessageCatalog.Decimal

structure Scaled where
  digits : Nat
  exponent : Int
  deriving DecidableEq

/-- A positive number with the interval of the reals that round to it, as numerators over one
denominator. `closed` says whether the ends belong to the interval. -/
structure Rounding where
  value : Nat
  low : Nat
  high : Nat
  denominator : Nat
  closed : Bool

/-- Half the gap to each neighbour; the gap below a power of two is half as wide. -/
def Rounding.ofBinary (b : Binary) : Rounding :=
  let gap := if b.mantissa = Nat.pow 2 52 ∧ b.exponent ≠ -1074 then 1 else 2
  let scale := b.exponent - 2
  let factor := if scale ≥ 0 then Nat.pow 2 scale.toNat else 1
  { value := 4 * b.mantissa * factor
    low := (4 * b.mantissa - gap) * factor
    high := (4 * b.mantissa + 2) * factor
    denominator := if scale ≥ 0 then 1 else Nat.pow 2 (-scale).toNat
    closed := b.mantissa % 2 = 0 }

def Rounding.onGrid (r : Rounding) (exponent : Int) : Rounding :=
  if exponent ≥ 0 then { r with denominator := r.denominator * Nat.pow 10 exponent.toNat }
  else
    let factor := Nat.pow 10 (-exponent).toNat
    { r with value := r.value * factor, low := r.low * factor, high := r.high * factor }

def Rounding.contains (r : Rounding) (point : Nat) : Bool :=
  let scaled := point * r.denominator
  if r.closed then r.low ≤ scaled && scaled ≤ r.high else r.low < scaled && scaled < r.high

def Rounding.neighbour? (r : Rounding) : Option Nat :=
  let below := r.value / r.denominator
  match r.contains below, r.contains (below + 1) with
  | true, true =>
      some (if (2 * below + 1) * r.denominator < 2 * r.value then below + 1 else below)
  | true, false => some below
  | false, true => some (below + 1)
  | false, false => none

def Rounding.leading (r : Rounding) : Int :=
  if r.denominator ≤ r.value then
    ((Nat.toDigits 10 (r.value / r.denominator)).length : Int) - 1
  else
    -(((List.range 330).find? fun places =>
      r.denominator ≤ r.value * Nat.pow 10 places).getD 330 : Nat)

/-- Seventeen digits always suffice. -/
def Rounding.shortest (r : Rounding) : Scaled :=
  let grid (count : Nat) : Int := r.leading - count
  ((List.range 17).findSome? fun count =>
    (r.onGrid (grid count)).neighbour?.map fun digits => ⟨digits, grid count⟩).getD ⟨0, 0⟩

/-- Zeros at the end of a fraction are not written. -/
def dropZeros (fraction : List Char) : List Char :=
  (fraction.reverse.dropWhile (· == '0')).reverse

/-- The digits of a decimal without exponent; a point only where a fraction follows. -/
def Scaled.positional (s : Scaled) : List Char :=
  let digits := Nat.toDigits 10 s.digits
  if s.exponent ≥ 0 then digits ++ List.replicate s.exponent.toNat '0'
  else
    let places := (-s.exponent).toNat
    let padded := List.replicate (places + 1 - digits.length) '0' ++ digits
    let whole := padded.take (padded.length - places)
    match dropZeros (padded.drop (padded.length - places)) with
    | [] => whole
    | fraction => whole ++ '.' :: fraction

/-- The text of a number: the shortest digits that read back, never with an exponent. -/
def floatText (x : Float) : String :=
  if x.isNaN then "NaN"
  else if x.isInf then if x < 0.0 then "-Infinity" else "Infinity"
  else
    let b := Binary.ofFloat x
    let sign := if b.negative then ['-'] else []
    if b.mantissa = 0 then String.ofList (sign ++ ['0'])
    else String.ofList (sign ++ (Rounding.ofBinary b).shortest.positional)

end MessageCatalog.Decimal
