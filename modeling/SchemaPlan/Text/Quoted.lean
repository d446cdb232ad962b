import SchemaPlan.Text.Invisible

/-!
# Quoted texts

* `quoted`: a text in double quotes, as messages show it.
* `quotedChar_eq_self`: what needs no escape has none.
-/

namespace SchemaPlan

/-- A character of a quoted text. One that is invisible shows by its code point. -/
def quotedChar (c : Char) : List Char :=
  if c = '"' ∨ c = '\\' then ['\\', c]
  else if c = '\n' then ['\\', 'n']
  else if c = '\r' then ['\\', 'r']
  else if c = '\t' then ['\\', 't']
  else if c = '\x00' then ['\\', '0']
  else if isInvisible c then
    ['\\', 'u', '\x7b'] ++ Nat.toDigits 16 c.toNat ++ ['\x7d']
  else [c]

/-- A text in double quotes. Quotes and backslashes in it have a backslash before them. -/
def quoted (s : String) : String := String.ofList ('"' :: s.toList.flatMap quotedChar ++ ['"'])

/-- What ASCII has besides controls, quotes and backslashes stands for itself. -/
theorem quotedChar_eq_self {c : Char} (h : 0x20 ≤ c.toNat) (h' : c.toNat < 0x7F) (hq : c ≠ '"')
    (hb : c ≠ '\\') : quotedChar c = [c] := by
  have off {d : Char} (hd : d.toNat < 0x20) : c ≠ d := by
    rintro rfl
    omega
  rw [quotedChar, if_neg (by simp [hq, hb]), if_neg (off (by decide)), if_neg (off (by decide)),
    if_neg (off (by decide)), if_neg (off (by decide)), if_neg]
  simp [isInvisible_eq_false h h']

end SchemaPlan
