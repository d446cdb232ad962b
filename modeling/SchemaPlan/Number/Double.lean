import SchemaPlan.Number.Decimal

/-!
# Doubles

The numbers that a double of sixty-four bits stands for, without their signs.

* `Double.nearest?`: the double to which a decimal number rounds, if it is not too large.
* `Double.exact`, `Double.shortest`: the decimal number that a double is, and the one of the fewest
  digits that rounds to it.
* `nearest?_shortest`: the shortest decimal form rounds to the double, or is the double.
-/

namespace SchemaPlan

/-- The number `mantissa * 2 ^ exponent`. -/
structure Double where
  /-- A number of at most 53 bits, and of no fewer unless the exponent is the least one. -/
  mantissa : Nat
  /-- A number from `minExponent` to `maxExponent`. -/
  exponent : Int
  deriving DecidableEq, Repr

namespace Double

/-- The exponent of the smallest step between two numbers. -/
def minExponent : Int := -1074

/-- The exponent of the largest step. -/
def maxExponent : Int := 971

/-- What a mantissa stays below. -/
def mantissaBound : Nat := Nat.pow 2 53

/-- The number zero. -/
def zero : Double := ⟨0, minExponent⟩

/-! ## Rounding -/

/-- The natural number nearest to `p / q`; of two, the even one. -/
def nearestQuotient (p q : Nat) : Nat :=
  let low := p / q
  let rest := p % q
  if 2 * rest < q ∨ (2 * rest = q ∧ low % 2 = 0) then low else low + 1

/-- The natural number nearest to `p / q / 2 ^ exponent`. -/
def nearestMantissa (p q : Nat) : Int → Nat
  | .ofNat e => nearestQuotient p (q * Nat.pow 2 e)
  | .negSucc e => nearestQuotient (p * Nat.pow 2 (e + 1)) q

/-- The double nearest to `p / q`, if that is not too large. At the first of the exponents `p / q`
has a mantissa of 53 or 54 bits, or the exponent is the least one. Rounding may add a bit. -/
def ofQuotient? (p q : Nat) : Option Double :=
  let first := max ((p.log2 : Int) - q.log2 - 53) minExponent
  let doubles := [first, first + 1, first + 2].map fun e => (⟨nearestMantissa p q e, e⟩ : Double)
  (doubles.find? (·.mantissa < mantissaBound)).filter (·.exponent ≤ maxExponent)

/-- The double to which a decimal number rounds, if it is not too large. The place of its first
digit tells of most numbers that they are too large, or too small to be told from zero. -/
def nearest? (d : Decimal) : Option Double :=
  let place := d.digits.length + d.exponent
  if d.mantissa = 0 ∨ place < -330 then some zero
  else if 330 < place then none
  else
    match d.exponent with
    | .ofNat e => ofQuotient? (d.mantissa * Nat.pow 10 e) 1
    | .negSucc e => ofQuotient? d.mantissa (Nat.pow 10 (e + 1))

/-! ## Decimal forms -/

/-- The decimal number that a double is. -/
def exact (x : Double) : Decimal :=
  match x.exponent with
  | .ofNat e => ⟨x.mantissa * Nat.pow 2 e, 0⟩
  | .negSucc e => ⟨x.mantissa * Nat.pow 5 (e + 1), .negSucc e⟩

/-- The decimal numbers just below and just above `d` that have `cut` digits less, the nearer one
first; the upper one if both are equally near. -/
def neighbours (d : Decimal) (cut : Nat) : List Decimal :=
  let unit := Nat.pow 10 cut
  let low := d.mantissa / unit
  let mantissas := if 2 * (d.mantissa % unit) < unit then [low, low + 1] else [low + 1, low]
  mantissas.map (⟨·, d.exponent + cut⟩)

/-- The decimal number of the fewest digits that rounds to a double, and the nearest of them. -/
def rounding? (x : Double) : Option Decimal :=
  (List.range x.exact.digits.length).reverse.findSome? fun cut =>
    (neighbours x.exact cut).find? fun d => nearest? d = some x

/-- The shortest decimal form of a double. -/
def shortest (x : Double) : Decimal := x.rounding?.getD x.exact

/-- The shortest decimal form rounds to the double, or is the double. -/
theorem nearest?_shortest (x : Double) :
    nearest? x.shortest = some x ∨ x.shortest = x.exact := by
  unfold shortest
  cases h : x.rounding? with
  | none => exact .inr rfl
  | some d =>
    obtain ⟨cut, -, hd⟩ := List.exists_of_findSome?_eq_some h
    have hx := List.find?_some hd
    exact .inl (of_decide_eq_true hx)

end Double

end SchemaPlan
