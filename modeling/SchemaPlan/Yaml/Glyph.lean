import SchemaPlan.Text.Mark

/-!
# Glyphs

A YAML text as a list of glyphs: characters together with their places, after all line breaks have
been made alike.

* `Glyph.ofText`: the glyphs of a text.
* `forbiddenOffset?`: whether a text holds a character that is not allowed in one.
* `isBreak`, `isSpacing`: the characters between words.
* `isDocumentMark`: `---` or `...` alone at the start of a line.
-/

namespace SchemaPlan.Yaml

/-- The mark that may open a text and stands for nothing. -/
def byteOrderMark : Char := '\uFEFF'

/-- A carriage return or a next-line character: a line break that is read as a line feed. -/
def isLineFeedVariant (c : Char) : Bool := c == '\r' || c == '\x85'

/-- A line break, once the variants of the line feed are gone. -/
def isBreak (c : Char) : Bool := c == '\n' || c == '\u2028' || c == '\u2029'

/-- The character ends a line, as a break or as one of its variants. -/
def isLineEnd (c : Char) : Bool := isBreak c || isLineFeedVariant c

/-- A blank inside a line. -/
def isSpace (c : Char) : Bool := c == ' ' || c == '\t'

/-- A character that separates words. -/
def isSpacing (c : Char) : Bool := isSpace c || isBreak c

/-- The ranges of code points that a text may hold, ends included. -/
def allowedRanges : List (Nat × Nat) :=
  [(0x09, 0x0A), (0x0D, 0x0D), (0x20, 0x7E), (0x85, 0x85), (0xA0, 0xD7FF), (0xE000, 0xFFFD),
    (0x10000, 0x10FFFF)]

/-- The character may stand in a text. -/
def isAllowed (c : Char) : Bool :=
  allowedRanges.any fun range => range.1 ≤ c.toNat && c.toNat ≤ range.2

/-- A character with its mark. -/
structure Glyph where
  char : Char
  mark : Mark
  deriving DecidableEq, Repr

namespace Glyph

/-- The line a character stands in. -/
def line (g : Glyph) : Nat := g.mark.line

/-- The characters before a glyph on its line. -/
def column (g : Glyph) : Nat := g.mark.column

/-- The place after a glyph. -/
def stop (g : Glyph) : Mark := if isBreak g.char then g.mark.nextLine else g.mark.after g.char

end Glyph

/-- The characters with every carriage return, with or without a line feed after it, and every
next-line character as one line feed. -/
def unifyBreaks : List Char → List Char
  | [] => []
  | '\r' :: '\n' :: cs => '\n' :: unifyBreaks cs
  | c :: cs => (if isLineFeedVariant c then '\n' else c) :: unifyBreaks cs

namespace Glyph

/-- The characters with their places, the first one at a given place. -/
def place (mark : Mark) : List Char → List Glyph
  | [] => []
  | c :: cs =>
    let g : Glyph := ⟨c, mark⟩
    g :: place g.stop cs

/-- The characters of a text, each with its mark. -/
def ofText (text : String) : List Glyph := place .start (unifyBreaks text.toList)

theorem map_char_place (mark : Mark) (cs : List Char) : (place mark cs).map char = cs := by
  induction cs generalizing mark with
  | nil => rfl
  | cons c cs ih => rw [place, List.map_cons, ih]

end Glyph

/-- The number of bytes before the first character of a text that it may not hold, if there is
one. -/
def forbiddenOffset? (cs : List Char) : Option Nat :=
  if cs.all isAllowed then none
  else some (String.ofList (cs.takeWhile isAllowed)).utf8ByteSize

/-- The place where some glyphs start; that of the end of the text if there are none. -/
def markOf (textEnd : Mark) (glyphs : List Glyph) : Mark := (glyphs.head?.map (·.mark)).getD textEnd

/-- The place after some glyphs, the first of which stands at the start of a text. -/
def endMark (glyphs : List Glyph) : Mark := (glyphs.getLast?.map (·.stop)).getD .start

/-- A word ends before these glyphs: they start with a blank or a break, or there are none. -/
def atWordEnd (glyphs : List Glyph) : Bool := glyphs.head?.all (isSpacing ·.char)

/-- Three characters `c` stand alone at the start of a line. -/
def isMark (c : Char) : List Glyph → Bool
  | g₁ :: g₂ :: g₃ :: rest =>
    g₁.column == 0 && g₁.char == c && g₂.char == c && g₃.char == c && atWordEnd rest
  | _ => false

/-- The mark of the start or of the end of a document. -/
def isDocumentMark (glyphs : List Glyph) : Bool := isMark '-' glyphs || isMark '.' glyphs

end SchemaPlan.Yaml
