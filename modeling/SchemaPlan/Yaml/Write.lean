import SchemaPlan.Document.Basic
import SchemaPlan.Yaml.Style

/-!
# Writing YAML texts

A document as a text in block style. Entries of a mapping stand one below the other, and so do the
items of a list, after dashes that are not indented more than the key before them. Empty
collections are written with brackets and braces.
-/

namespace SchemaPlan.Yaml

/-- A scalar whose lines after the first one start at column `column`. -/
def scalarText (column : Nat) : Scalar → String
  | .text s => String.ofList ((Style.of s).write column s.toList)
  | .plain s => s
  | .null => "null"
  | .bool true => "true"
  | .bool false => "false"
  | .natural n => toString n
  | .negative n => "-" ++ toString n
  | .huge n => toString n
  | .fraction s => s

/-- A text with the line feed at its end that it may have already. -/
def endLine (s : String) : String := if s.toList.getLast?.any isBreak then s else s ++ "\n"

def indentation (column : Nat) : String := String.ofList (Style.spaces column)

/-- How many bytes a key before a plain colon may have. -/
def simpleKeyLimit : Nat := 128

/-- A key that can stand before a plain colon: one line that is not too long. -/
def simpleKey? : Document → Option String
  | .scalar (.text s) =>
    if s.toList.any isLineEnd || simpleKeyLimit < s.utf8ByteSize then none
    else some (scalarText 0 (.text s))
  | .scalar s => some (scalarText 0 s)
  | .list [] => some "[]"
  | .tuple [] => some "[]"
  | .mapping [] => some (String.ofList ['\x7b', '\x7d'])
  | .list _ => none
  | .tuple _ => none
  | .mapping _ => none
  | .nothing => some "null"
  | .unread _ => some "null"

/-- Texts one below the other at column `column`, where the first one starts. -/
def stack (column : Nat) (texts : List String) : String := (indentation column).intercalate texts

mutual

/-- A node that starts at column `column` of a line, after what stands there already. -/
def nodeText (column : Nat) : Document → String
  | .scalar s => endLine (scalarText column s)
  | .list [] => "[]\n"
  | .list (item :: rest) => stack column (itemTexts column (item :: rest))
  | .tuple [] => "[]\n"
  | .tuple (item :: rest) => stack column (itemTexts column (item :: rest))
  | .mapping [] => "\x7b\x7d\n"
  | .mapping (entry :: rest) => stack column (entryTexts column (entry :: rest))
  | .nothing => "null\n"
  | .unread _ => "null\n"

/-- A node after a key at column `column` and its colon. -/
def valueText (column : Nat) : Document → String
  | .scalar s => " " ++ endLine (scalarText (column + 2) s)
  | .list [] => " []\n"
  | .list (item :: rest) =>
    "\n" ++ indentation column ++ stack column (itemTexts column (item :: rest))
  | .tuple [] => " []\n"
  | .tuple (item :: rest) =>
    "\n" ++ indentation column ++ stack column (itemTexts column (item :: rest))
  | .mapping [] => " \x7b\x7d\n"
  | .mapping (entry :: rest) =>
    "\n" ++ indentation (column + 2) ++ stack (column + 2) (entryTexts (column + 2) (entry :: rest))
  | .nothing => " null\n"
  | .unread _ => " null\n"

def itemTexts (column : Nat) : List Document → List String
  | [] => []
  | item :: rest => ("- " ++ nodeText (column + 2) item) :: itemTexts column rest

/-- The entries of a mapping at column `column`. -/
def entryTexts (column : Nat) : List (Document × Document) → List String
  | [] => []
  | (key, value) :: rest =>
    (match simpleKey? key with
      | some text => text ++ ":" ++ valueText column value
      | none =>
        "? " ++ nodeText (column + 2) key ++ indentation column ++ ": " ++
          nodeText (column + 2) value) :: entryTexts column rest

end

def write (d : Document) : String := nodeText 0 d

end SchemaPlan.Yaml
