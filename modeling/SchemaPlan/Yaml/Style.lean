import SchemaPlan.Document.Basic
import SchemaPlan.Yaml.Glyph

/-!
# Styles of scalars

How a text is written as a scalar: plain if that is read as the same text, else in single quotes,
else in double quotes; and as a block of lines if it has line feeds.

* `Style.of`: the style of a text.
* `Style.write`: the text in a style.

Lines are never folded. A character that is not printable is written by its code, in double
quotes.
-/

namespace SchemaPlan.Yaml

/-! ## What a text holds -/

/-- The ranges of code points that are written as they are, ends included. -/
def printableRanges : List (Nat × Nat) :=
  [(0x0A, 0x0A), (0x20, 0x7E), (0xA0, 0xD7FF), (0xE000, 0xFEFE), (0xFF00, 0xFFFD),
    (0x10000, 0x10FFFF)]

/-- The character is shown as it is. -/
def isPrintable (c : Char) : Bool :=
  printableRanges.any fun range => range.1 ≤ c.toNat && c.toNat ≤ range.2

/-- A text that is read as something else, or as a number by others, when it is written plain. -/
def looksTyped (s : String) : Bool :=
  Scalar.ofPlain s != .text s || Plain.hasLeadingZero s.toList

/-- Two characters with the given properties stand side by side. -/
def hasPair (p q : Char → Bool) (cs : List Char) : Bool :=
  (cs.zip cs.tail).any fun pair => p pair.1 && q pair.2

/-- A line ends with a space. -/
def hasBlankBeforeBreak (cs : List Char) : Bool := hasPair (· == ' ') isBreak cs

/-- A line starts with a space. -/
def hasBlankAfterBreak (cs : List Char) : Bool := hasPair isBreak (· == ' ') cs

/-- A blank or a break stands at an end. -/
def hasSpacingAtEnd (cs : List Char) : Bool :=
  let isEdge (c : Char) : Bool := c == ' ' || isBreak c
  cs.head?.any isEdge || cs.getLast?.any isEdge

/-- The characters that start no plain scalar. -/
def startIndicators : List Char :=
  ['#', ',', '[', ']', '{', '}', '&', '*', '!', '|', '>', '\'', '"', '%', '@', '\x60']

/-- The start of the text is that of something else than a plain scalar. -/
def hasStartIndicator (cs : List Char) : Bool :=
  ['-', '-', '-'].isPrefixOf cs || ['.', '.', '.'].isPrefixOf cs ||
    match cs with
    | [] => false
    | c :: rest =>
      startIndicators.contains c || (['?', ':', '-'].contains c && rest.head?.all isSpacing)

/-- A colon or a number sign inside the text ends a plain scalar. -/
def hasInnerIndicator : List Char → Bool
  | before :: c :: rest =>
    (c == ':' && rest.head?.all isSpacing) || (c == '#' && isSpacing before) ||
      hasInnerIndicator (c :: rest)
  | _ => false

/-! ## Styles -/

/-- A way to write a scalar. -/
inductive Style
  | plain
  | singleQuoted
  | doubleQuoted
  | block
  deriving DecidableEq, Repr

namespace Style

/-- The text may stand between single quotes. -/
def allowsSingleQuotes (cs : List Char) : Bool :=
  cs.all isPrintable && !hasBlankBeforeBreak cs && !hasBlankAfterBreak cs

/-- The text may stand without quotes. -/
def allowsPlain (cs : List Char) : Bool :=
  cs.all isPrintable && !cs.any isBreak && !hasSpacingAtEnd cs && !hasStartIndicator cs &&
    !hasInnerIndicator cs

def allowsBlock (cs : List Char) : Bool :=
  cs.all isPrintable && !hasBlankBeforeBreak cs && cs.getLast? != some ' '

def of (s : String) : Style :=
  let cs := s.toList
  if cs.contains '\n' then if allowsBlock cs then block else doubleQuoted
  else if !looksTyped s && allowsPlain cs then plain
  else if allowsSingleQuotes cs then singleQuoted
  else doubleQuoted

/-! ## Writing -/

def spaces (n : Nat) : List Char := List.replicate n ' '

/-- The inside of a text in single quotes, whose lines after a break start at column `column`. -/
def singleQuotedBody (column : Nat) (afterBreak : Bool) : List Char → List Char
  | [] => if afterBreak then spaces column else []
  | c :: cs =>
    if isBreak c then c :: singleQuotedBody column true cs
    else
      (if afterBreak then spaces column else []) ++ (if c = '\'' then ['\'', '\''] else [c]) ++
        singleQuotedBody column false cs

/-- The letters that stand for characters after a backslash. -/
def escapeNames : List (Char × Char) :=
  [('\x00', '0'), ('\x07', 'a'), ('\x08', 'b'), ('\t', 't'), ('\n', 'n'), ('\x0B', 'v'),
    ('\x0C', 'f'), ('\r', 'r'), ('\x1B', 'e'), ('"', '"'), ('\\', '\\'), ('\x85', 'N'),
    ('\u2028', 'L'), ('\u2029', 'P')]

/-- A code in hexadecimal digits, with zeros before them up to the given width. -/
def hexCode (width code : Nat) : List Char :=
  let digits := (Nat.toDigits 16 code).map Char.toUpper
  List.replicate (width - digits.length) '0' ++ digits

/-- A character of a text in double quotes. -/
def doubleQuotedChar (c : Char) : List Char :=
  match escapeNames.lookup c with
  | some letter => ['\\', letter]
  | none =>
    if isPrintable c then [c]
    else if c.toNat ≤ 0xFF then '\\' :: 'x' :: hexCode 2 c.toNat
    else if c.toNat ≤ 0xFFFF then '\\' :: 'u' :: hexCode 4 c.toNat
    else '\\' :: 'U' :: hexCode 8 c.toNat

/-- The lines of a block, each that is not empty at column `column`. -/
def blockBody (column : Nat) (afterBreak : Bool) : List Char → List Char
  | [] => []
  | c :: cs =>
    if isBreak c then c :: blockBody column true cs
    else (if afterBreak then spaces column else []) ++ c :: blockBody column false cs

/-- What the first line of a block says about its indentation and its last breaks. -/
def blockHints (cs : List Char) : List Char :=
  let indentation := if cs.head?.any (fun c => c == ' ' || isBreak c) then ['2'] else []
  let chomping :=
    match cs.reverse with
    | [] => ['-']
    | c :: before =>
      if !isBreak c then ['-'] else if before.head?.all isBreak then ['+'] else []
  indentation ++ chomping

/-- A text in a style. Its lines after the first one start at column `column`. -/
def write (style : Style) (column : Nat) (cs : List Char) : List Char :=
  match style with
  | plain => cs
  | singleQuoted => '\'' :: singleQuotedBody column false cs ++ ['\'']
  | doubleQuoted => '"' :: cs.flatMap doubleQuotedChar ++ ['"']
  | block => '|' :: blockHints cs ++ '\n' :: blockBody column true cs

end Style

end SchemaPlan.Yaml
