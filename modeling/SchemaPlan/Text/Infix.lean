/-!
# Texts inside texts

Cutting a text at the first place where another text stands in it.
-/

namespace SchemaPlan

/-- The text before and the text after the first place where `mark` stands in `cs`. -/
def cutAt? (mark : List Char) : List Char → Option (List Char × List Char)
  | [] => if mark.isEmpty then some ([], []) else none
  | c :: cs =>
    match mark.isPrefixOf? (c :: cs) with
    | some rest => some ([], rest)
    | none => (cutAt? mark cs).map fun parts => (c :: parts.1, parts.2)

/-- The text before the first place where `mark` stands; all of it if `mark` stands nowhere. -/
def upTo (mark cs : List Char) : List Char :=
  match cutAt? mark cs with
  | none => cs
  | some (before, _) => before

end SchemaPlan
