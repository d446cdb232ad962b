import SchemaPlan.Sql.Scan

/-!
# Lists separated by commas

A text is cut at its exposed commas, those outside literals and parentheses.

* `pieces`: the parts between the cuts as they stand.
* `splitTopLevel`: the parts with the blanks at their ends removed.
-/

namespace SchemaPlan.Sql

/-- The parts between the exposed commas of a text that is read from state `s` on. -/
def piecesFrom (s : ScanState) : List Char → List (List Char)
  | [] => [[]]
  | c :: cs =>
    if s.exposes c && c == ',' then [] :: piecesFrom (s.step c) cs
    else
      match piecesFrom (s.step c) cs with
      | [] => [[c]]
      | piece :: rest => (c :: piece) :: rest

/-- The parts between the exposed commas of a text. -/
def pieces (cs : List Char) : List (List Char) := piecesFrom .start cs

/-- The trimmed parts between the exposed commas of a text. -/
def splitPieces (cs : List Char) : List (List Char) := (pieces cs).map trim

/-- The trimmed parts between the exposed commas of a text. A text without any is one part. -/
def splitTopLevel (text : String) : List String := (splitPieces text.toList).map String.ofList

theorem piecesFrom_ne_nil (s : ScanState) (cs : List Char) : piecesFrom s cs ≠ [] := by
  cases cs with
  | nil => simp [piecesFrom]
  | cons c cs =>
    rw [piecesFrom]
    split
    · simp
    · split <;> simp

theorem splitPieces_ne_nil (cs : List Char) : splitPieces cs ≠ [] := by
  simpa [splitPieces, pieces] using piecesFrom_ne_nil .start cs

end SchemaPlan.Sql
