import SchemaPlan.Sql.Literal
import SchemaPlan.Sql.Split

/-!
# Argument lists

The arguments of a declaration `Name(a, 'b', f(c))`.

* `parenthesized?`: the text between the first `(` and the last `)`.
* `arguments`: the parts of that text, each without its quotes.
-/

namespace SchemaPlan.Sql

/-- `cs` up to its last `mark`, exclusively. -/
def upToLast? (mark : Char) : List Char → Option (List Char)
  | [] => none
  | c :: cs =>
    match upToLast? mark cs with
    | some init => some (c :: init)
    | none => if c = mark then some [] else none

/-- The text between the first `(` and the last `)`, if the one comes before the other. -/
def parenthesized? (cs : List Char) : Option (List Char) :=
  match cs.dropWhile (· != '(') with
  | [] => none
  | _ :: rest => upToLast? ')' rest

/-- The parts of an argument list. One empty part at the end, after a last comma, is none. -/
def argumentPieces (content : List Char) : List (List Char) :=
  match trim content with
  | [] => []
  | inner =>
    let parts := splitPieces inner
    if parts.getLast? = some [] then parts.dropLast else parts

/-- The arguments of a declaration, trimmed and without quotes. A declaration without
parentheses has none. -/
def arguments (text : String) : List String :=
  match parenthesized? text.toList with
  | none => []
  | some content => (argumentPieces content).map fun piece => String.ofList (unquote piece)

end SchemaPlan.Sql
