/-!
# Places in texts

* `Mark`: a place in a text.
* `Mark.wording`: how a message tells a place.
-/

namespace SchemaPlan

/-- A place in a text: the line breaks before it, and the characters and the bytes before it on its
line. -/
structure Mark where
  line : Nat
  column : Nat
  bytes : Nat
  deriving DecidableEq, Repr

namespace Mark

/-- The mark of the first character. -/
def start : Mark := ⟨0, 0, 0⟩

/-- The place after a character that ends no line. -/
def after (m : Mark) (c : Char) : Mark := ⟨m.line, m.column + 1, m.bytes + c.utf8Size⟩

/-- The mark of the first character of the next line. -/
def nextLine (m : Mark) : Mark := ⟨m.line + 1, 0, 0⟩

/-- How a message tells the place. The start of a text is not told. -/
def wording (m : Mark) : String :=
  if m.line = 0 ∧ m.column = 0 then ""
  else " at line " ++ toString (m.line + 1) ++ " column " ++ toString (m.column + 1)

end Mark

end SchemaPlan
