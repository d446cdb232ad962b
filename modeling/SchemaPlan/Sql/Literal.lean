import SchemaPlan.Text.Blank

/-!
# String literals

Writing a text as a single-quoted literal and reading a literal back.

* `quote`: the literal of a text, with a backslash before each backslash and single quote.
* `unquote`: what a literal stands for; a text that is no literal stands for itself.
-/

namespace SchemaPlan.Sql

/-- `cs` with a backslash before each backslash and single quote. -/
def escape : List Char → List Char
  | [] => []
  | c :: cs => if c = '\\' ∨ c = '\'' then '\\' :: c :: escape cs else c :: escape cs

/-- `cs` with each backslash replaced by the character it stands before. A backslash at the end
stands for itself. -/
def unescape : List Char → List Char
  | '\\' :: c :: cs => c :: unescape cs
  | c :: cs => c :: unescape cs
  | [] => []

/-- The single-quoted literal of a text. -/
def quote (cs : List Char) : List Char := '\'' :: (escape cs ++ ['\''])

/-- The literal of a text, as a text. -/
def quoteLiteral (text : String) : String := String.ofList (quote text.toList)

/-- What stands between two marks, if the text starts with the one and ends with the other. -/
def between? (opening closing : Char) : List Char → Option (List Char)
  | [] => none
  | c :: cs => if c = opening ∧ cs.getLast? = some closing then some cs.dropLast else none

/-- The text of a literal in single or double quotes. A text that is neither stands for itself,
without the blanks at its ends. -/
def unquote (cs : List Char) : List Char :=
  match between? '\'' '\'' (trim cs) with
  | some inner => unescape inner
  | none =>
    match between? '"' '"' (trim cs) with
    | some inner => unescape inner
    | none => trim cs

end SchemaPlan.Sql
