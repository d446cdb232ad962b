import SchemaPlan.Number.Double

/-!
# Plain scalars

What an unquoted scalar stands for, judged by its look: nothing, a truth value, a number or a
text.

* `unsignedOf?`, `negativeOf?`: integers in base ten, or in another base after `0x`, `0o`, `0b`.
* `isFraction`: numbers with a point or an exponent, as long as a double is nearest to them, and the
  words for the numbers that are not finite.
* `fractionText`: such a number in the notation of messages.
-/

namespace SchemaPlan.Plain

/-- The words for the absence of a value. -/
def nullWords : List String := ["null", "Null", "NULL", "~"]

/-- The truth value a word stands for. -/
def bool? (s : String) : Option Bool :=
  if s ∈ ["true", "True", "TRUE"] then some true
  else if s ∈ ["false", "False", "FALSE"] then some false
  else none

/-! ## Integers -/

/-- The value of a digit in bases up to sixteen. -/
def digit? (base : Nat) (c : Char) : Option Nat :=
  let value? :=
    if '0' ≤ c ∧ c ≤ '9' then some (c.toNat - '0'.toNat)
    else if 'a' ≤ c ∧ c ≤ 'f' then some (c.toNat - 'a'.toNat + 10)
    else if 'A' ≤ c ∧ c ≤ 'F' then some (c.toNat - 'A'.toNat + 10)
    else none
  value?.filter (· < base)

/-- The number that a list of digits continues. -/
def digitsFrom? (base : Nat) (value : Nat) : List Char → Option Nat
  | [] => some value
  | c :: cs =>
    match digit? base c with
    | none => none
    | some d => digitsFrom? base (value * base + d) cs

/-- The number that a list of digits, at least one, stands for. -/
def digits? (base : Nat) : List Char → Option Nat
  | [] => none
  | cs => digitsFrom? base 0 cs

/-- The characters without a sign before them. -/
def dropSign : List Char → List Char
  | '+' :: rest => rest
  | '-' :: rest => rest
  | rest => rest

/-- Digits after a leading zero, with or without a sign. They are a text, not a number. -/
def hasLeadingZero (cs : List Char) : Bool :=
  match dropSign cs with
  | '0' :: c :: rest => (c :: rest).all Char.isDigit
  | _ => false

/-- The base that the first two characters announce, and the rest. -/
def base? : List Char → Option (Nat × List Char)
  | '0' :: 'x' :: rest => some (16, rest)
  | '0' :: 'o' :: rest => some (8, rest)
  | '0' :: 'b' :: rest => some (2, rest)
  | _ => none

/-- An integer below `bound`, with or without a plus sign. -/
def unsignedOf? (bound : Nat) (cs : List Char) : Option Nat :=
  let unsigned :=
    match cs with
    | '+' :: rest => rest
    | rest => rest
  let value? :=
    match base? unsigned with
    | some (base, rest) => digits? base rest
    | none => if hasLeadingZero cs then none else digits? 10 unsigned
  value?.filter (· < bound)

/-- The absolute value, at most `bound`, of an integer with a minus sign. -/
def negativeOf? (bound : Nat) : List Char → Option Nat
  | '-' :: rest =>
    let value? :=
      match base? rest with
      | some (base, rest) => digits? base rest
      | none => if hasLeadingZero ('-' :: rest) then none else digits? 10 rest
    value?.filter (· ≤ bound)
  | _ => none

/-- An integer whose unsigned or signed form fits `bits` bits. -/
def integerOf? (bits : Nat) (cs : List Char) : Option Int :=
  match unsignedOf? (Nat.pow 2 bits) cs with
  | some n => some n
  | none => (negativeOf? (Nat.pow 2 (bits - 1)) cs).map fun n => -(n : Int)

/-! ## Numbers with a point or an exponent -/

/-- The exponent at the end of a number; zero if there is none. -/
def exponent? : List Char → Option Int
  | [] => some 0
  | c :: cs =>
    if c = 'e' ∨ c = 'E' then
      match cs with
      | '+' :: rest => (digits? 10 rest).map Int.ofNat
      | '-' :: rest => (digits? 10 rest).map fun n => -(n : Int)
      | rest => (digits? 10 rest).map Int.ofNat
    else none

/-- The number without a sign that some characters stand for. There are digits before or after the
point, and perhaps an exponent. -/
def decimal? (cs : List Char) : Option Decimal :=
  let whole := cs.takeWhile Char.isDigit
  let afterWhole := cs.dropWhile Char.isDigit
  let (fraction, afterFraction) :=
    match afterWhole with
    | '.' :: rest => (rest.takeWhile Char.isDigit, rest.dropWhile Char.isDigit)
    | rest => ([], rest)
  match digits? 10 (whole ++ fraction), exponent? afterFraction with
  | some mantissa, some exponent => some ⟨mantissa, exponent - fraction.length⟩
  | _, _ => none

/-- The words for infinities and for what is not a number, with their notation in messages. -/
def specialNumbers : List (String × String) :=
  [(".inf", "inf"), (".Inf", "inf"), (".INF", "inf"), ("+.inf", "inf"), ("+.Inf", "inf"),
    ("+.INF", "inf"), ("-.inf", "-inf"), ("-.Inf", "-inf"), ("-.INF", "-inf"), (".nan", "NaN"),
    (".NaN", "NaN"), (".NAN", "NaN")]

/-- The double nearest to the number without a sign that some characters stand for. -/
def double? (cs : List Char) : Option Double := (decimal? cs).bind Double.nearest?

/-- A text that stands for a number with a point or an exponent, or for a number that is not
finite. -/
def isFraction (s : String) : Bool :=
  (specialNumbers.lookup s).isSome || (double? (dropSign s.toList)).isSome

/-- The notation of messages for a number with a point or an exponent: a minus sign, if there is
one, and the shortest number that rounds to the same double. -/
def fractionText (s : String) : String :=
  match specialNumbers.lookup s, double? (dropSign s.toList) with
  | some text, _ => text
  | none, some x => String.ofList (s.toList.takeWhile (· = '-')) ++ x.shortest.text
  | none, none => s

end SchemaPlan.Plain
