/-!
Floating-point numbers as an integer times a power of two. A finite number other than zero is
`mantissa * 2 ^ exponent` with a sign, and every such number with at most 53 significant bits
and an exponent in range is written back without loss.
-/

namespace MessageCatalog.Decimal

structure Binary where
  negative : Bool
  mantissa : Nat
  exponent : Int
  deriving DecidableEq

/-- The fields of the 64-bit pattern; for infinities and NaN the answer has no meaning. -/
def Binary.ofFloat (x : Float) : Binary :=
  let bits := x.toBits.toNat
  let field : Nat := bits / Nat.pow 2 52 % Nat.pow 2 11
  let fraction := bits % Nat.pow 2 52
  if field = 0 then ⟨bits / Nat.pow 2 63 = 1, fraction, -1074⟩
  else ⟨bits / Nat.pow 2 63 = 1, fraction + Nat.pow 2 52, (field : Int) - 1075⟩

/-- Brings the mantissa to 53 bits, or the exponent to the least one, and packs the fields. -/
def Binary.toFloat (b : Binary) : Float :=
  let sign := if b.negative then Nat.pow 2 63 else 0
  if b.mantissa = 0 then Float.ofBits (UInt64.ofNat sign)
  else
    let excess := (b.mantissa.log2 : Int) - 52
    let shift := max excess (-1074 - b.exponent)
    let mantissa :=
      if shift ≥ 0 then b.mantissa / Nat.pow 2 shift.toNat
      else b.mantissa * Nat.pow 2 (-shift).toNat
    let field := if mantissa < Nat.pow 2 52 then 0 else (b.exponent + shift + 1075).toNat
    Float.ofBits (UInt64.ofNat (sign + field * Nat.pow 2 52 + mantissa % Nat.pow 2 52))

/-- The remainder of the division that rounds toward zero: it has the sign of the dividend and
is smaller than the divisor. Every value of it is a floating-point number, so nothing rounds. -/
def remainder (x y : Float) : Float :=
  if x.isNaN || y.isNaN || x.isInf || y == 0.0 then 0.0 / 0.0
  else if y.isInf then x
  else
    let a := Binary.ofFloat x
    let b := Binary.ofFloat y
    let exponent := min a.exponent b.exponent
    let dividend := a.mantissa * Nat.pow 2 (a.exponent - exponent).toNat
    let divisor := b.mantissa * Nat.pow 2 (b.exponent - exponent).toNat
    Binary.toFloat ⟨a.negative, dividend % divisor, exponent⟩

end MessageCatalog.Decimal
