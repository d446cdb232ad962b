/-!
# Decimal numbers

* `Decimal`: a natural number times a power of ten.
* `Decimal.text`: its places, all of them.
-/

namespace SchemaPlan

/-- The number `mantissa * 10 ^ exponent`. -/
structure Decimal where
  mantissa : Nat
  exponent : Int
  deriving DecidableEq, Repr

namespace Decimal

/-- The digits of the mantissa. -/
def digits (d : Decimal) : List Char := Nat.toDigits 10 d.mantissa

/-- The number with all its places, of which at least one stands on either side of the point. -/
def text (d : Decimal) : String :=
  let zeros := (d.digits.reverse.takeWhile (· = '0')).length
  if d.mantissa = 0 then "0.0"
  else
    match d.exponent + zeros, d.digits.take (d.digits.length - zeros) with
    | .ofNat e, digits => String.ofList (digits ++ List.replicate e '0' ++ ['.', '0'])
    | .negSucc e, digits =>
      let padded := List.replicate (e + 2 - digits.length) '0' ++ digits
      let whole := padded.length - (e + 1)
      String.ofList (padded.take whole ++ '.' :: padded.drop whole)

end Decimal

end SchemaPlan
