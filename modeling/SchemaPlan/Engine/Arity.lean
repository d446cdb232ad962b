/-!
# Arities

How many arguments a declaration takes, as a range with both ends included, and its wording in
messages.
-/

namespace SchemaPlan

/-- From `min` to `max` arguments. -/
structure Arity where
  min : Nat
  max : Nat
  deriving DecidableEq, Repr

namespace Arity

/-- The arity of a fixed number of arguments. -/
def exactly (n : Nat) : Arity := ⟨n, n⟩

/-- `found` arguments are neither too few nor too many. -/
def accepts (a : Arity) (found : Nat) : Bool := a.min ≤ found && found ≤ a.max

/-- How many arguments are lacking. -/
def missing (a : Arity) (found : Nat) : Nat := a.min - found

/-- The count after `n`. Counts have 64 bits, so zero comes after the largest. -/
def next (n : Nat) : Nat := (n + 1) % Nat.pow 2 64

/-- The wording of an arity: `exactly 2`, `0 or 1`, `1 to 4`. -/
def text (a : Arity) : String :=
  if a.min = a.max then "exactly " ++ toString a.min
  else if a.max = next a.min then toString a.min ++ " or " ++ toString a.max
  else toString a.min ++ " to " ++ toString a.max

theorem accepts_iff {a : Arity} {found : Nat} :
    a.accepts found = true ↔ a.min ≤ found ∧ found ≤ a.max := by
  simp [accepts]

@[simp] theorem accepts_exactly {n found : Nat} : (exactly n).accepts found = (n == found) := by
  rw [Bool.eq_iff_iff, accepts_iff, beq_iff_eq]
  simp only [exactly]
  omega

end Arity

end SchemaPlan
