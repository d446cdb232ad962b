import SchemaPlan.Yaml.Fault
import SchemaPlan.Yaml.Glyph

/-!
# Scalars in YAML texts

The readers of plain, quoted and block scalars. Each takes the glyphs after the start of a scalar
and gives the text of the scalar and the glyphs that are left.

* `Gap`: what stands between two words of a scalar. Blanks stay; one line break becomes a blank,
  and of several the first one goes.
* `plainFrom`, `singleQuotedFrom`, `doubleQuotedFrom`, `blockScalar`: the readers.
-/

namespace SchemaPlan.Yaml

/-- A problem, and the glyphs before which it was found. -/
abbrev Slip := Problem × List Glyph

/-- A scalar that was read: its text, and the glyphs after it. -/
abbrev Lexed := Except Slip (List Char × List Glyph)

/-- Put characters before a text that was read. -/
def Lexed.after (cs : List Char) (read : Lexed) : Lexed := read.map fun r => (cs ++ r.1, r.2)

/-! ## Gaps -/

/-- The blanks and breaks since the last word. Blanks beside a break do not count. -/
structure Gap where
  blanks : List Char := []
  breaks : List Char := []
  /-- The gap starts with a break that was escaped. -/
  isEscaped : Bool := false
  deriving DecidableEq, Repr

namespace Gap

/-- The gap of no characters. -/
def none : Gap := {}

/-- The gap goes over a line break. -/
def isBroken (gap : Gap) : Bool := gap.isEscaped || !gap.breaks.isEmpty

/-- There is no blank and no break. -/
def isNone (gap : Gap) : Bool := gap.blanks.isEmpty && !gap.isBroken

/-- The gap with one more character. Blanks after a break are not kept. -/
def add (gap : Gap) (c : Char) : Gap :=
  if isBreak c then { gap with breaks := gap.breaks ++ [c] }
  else if gap.isBroken then gap
  else { gap with blanks := gap.blanks ++ [c] }

/-- What the gap stands for between two words. -/
def text (gap : Gap) : List Char :=
  if gap.isEscaped then gap.breaks
  else
    match gap.breaks with
    | [] => gap.blanks
    | ['\n'] => [' ']
    | '\n' :: more => more
    | breaks => breaks

end Gap

/-! ## Plain scalars -/

/-- A plain scalar that was read: its text, whether a line break follows it, and the glyphs that
are left. -/
abbrev LexedPlain := Except Slip (List Char × Bool × List Glyph)

/-- The characters that end a plain scalar inside brackets or braces. -/
def flowIndicators : List Char := [',', '[', ']', '{', '}']

/-- A plain scalar ends before the glyph `g` and the glyphs `rest` after it, although no gap
does. -/
def endsPlain (inFlow : Bool) (g : Glyph) (rest : List Glyph) : Bool :=
  (g.char == ':' && atWordEnd rest) || (inFlow && flowIndicators.contains g.char)

/-- A colon of a plain scalar inside brackets or braces that an indicator follows. -/
def isAmbiguousColon (inFlow : Bool) (g : Glyph) (rest : List Glyph) : Bool :=
  inFlow && g.char == ':' && rest.head?.any fun next => ('?' :: flowIndicators).contains next.char

/-- The rest of a plain scalar after a gap. Outside brackets and braces its lines start at column
`margin` or to the right of it. -/
def plainFrom (inFlow : Bool) (margin : Nat) (gap : Gap) : List Glyph → LexedPlain
  | [] => .ok ([], gap.isBroken, [])
  | g :: rest =>
    if isSpacing g.char then
      if gap.isBroken && g.char == '\t' && g.column < margin then .error (.tabInPlain, g :: rest)
      else plainFrom inFlow margin (gap.add g.char) rest
    else if !gap.isNone &&
        ((!inFlow && g.column < margin) || isDocumentMark (g :: rest) || g.char == '#') then
      .ok ([], gap.isBroken, g :: rest)
    else if isAmbiguousColon inFlow g rest then .error (.ambiguousColon, g :: rest)
    else if endsPlain inFlow g rest then .ok ([], gap.isBroken, g :: rest)
    else
      (plainFrom inFlow margin .none rest).map fun r => (gap.text ++ g.char :: r.1, r.2)

/-! ## Quoted scalars -/

/-- The rest of a scalar in single quotes. A quote in it is written twice. -/
def singleQuotedFrom (gap : Gap) : List Glyph → Lexed
  | [] => .error (.unclosedQuote, [])
  | g :: rest =>
    if isSpacing g.char then singleQuotedFrom (gap.add g.char) rest
    else if isDocumentMark (g :: rest) then .error (.documentMarkInQuote, g :: rest)
    else if g.char = '\'' then
      match rest with
      | [] => .ok (gap.text, [])
      | next :: more =>
        if next.char = '\'' then (singleQuotedFrom .none more).after (gap.text ++ ['\''])
        else .ok (gap.text, rest)
    else (singleQuotedFrom .none rest).after (gap.text ++ [g.char])

/-- The characters that one letter after a backslash stands for. -/
def namedEscapes : List (Char × Char) :=
  [('0', '\x00'), ('a', '\x07'), ('b', '\x08'), ('t', '\t'), ('\t', '\t'), ('n', '\n'),
    ('v', '\x0B'), ('f', '\x0C'), ('r', '\r'), ('e', '\x1B'), (' ', ' '), ('"', '"'), ('/', '/'),
    ('\\', '\\'), ('N', '\x85'), ('_', '\xA0'), ('L', '\u2028'), ('P', '\u2029')]

/-- How many hexadecimal digits follow one of these letters after a backslash. -/
def codeLengths : List (Char × Nat) := [('x', 2), ('u', 4), ('U', 8)]

/-- The value of a hexadecimal digit. -/
def hexDigit? (c : Char) : Option Nat :=
  if c.isDigit then some (c.toNat - '0'.toNat)
  else if 'a' ≤ c ∧ c ≤ 'f' then some (c.toNat - 'a'.toNat + 10)
  else if 'A' ≤ c ∧ c ≤ 'F' then some (c.toNat - 'A'.toNat + 10)
  else none

/-- The character of a code point. -/
def charOf? (code : Nat) : Option Char :=
  if code.isValidChar then some (Char.ofNat code) else none

/-- Where the reader of a scalar in double quotes stands. -/
inductive QuotePlace
  /-- Between or inside words. -/
  | words (gap : Gap)
  /-- After the given backslash. -/
  | escape (backslash : Glyph)
  /-- Before the given number of digits, after digits of a given value. The first of them all stands
  at the start of the given glyphs. -/
  | code (start : List Glyph) (digits value : Nat)
  deriving DecidableEq, Repr

/-- The rest of a scalar in double quotes. -/
def doubleQuotedFrom : QuotePlace → List Glyph → Lexed
  | .words _, [] => .error (.unclosedQuote, [])
  | .escape backslash, [] => .error (.unknownEscape, [backslash])
  | .code start _ _, [] => .error (.notHexadecimal, start)
  | .words gap, g :: rest =>
    if isSpacing g.char then doubleQuotedFrom (.words (gap.add g.char)) rest
    else if isDocumentMark (g :: rest) then .error (.documentMarkInQuote, g :: rest)
    else if g.char = '"' then .ok (gap.text, rest)
    else if g.char = '\\' then (doubleQuotedFrom (.escape g) rest).after gap.text
    else (doubleQuotedFrom (.words .none) rest).after (gap.text ++ [g.char])
  | .escape backslash, g :: rest =>
    if isBreak g.char then doubleQuotedFrom (.words { isEscaped := true }) rest
    else
      match namedEscapes.lookup g.char, codeLengths.lookup g.char with
      | some c, _ => (doubleQuotedFrom (.words .none) rest).after [c]
      | none, some digits => doubleQuotedFrom (.code rest digits 0) rest
      | none, none => .error (.unknownEscape, [backslash])
  | .code start digits value, g :: rest =>
    match hexDigit? g.char with
    | none => .error (.notHexadecimal, start)
    | some d =>
      if 1 < digits then doubleQuotedFrom (.code start (digits - 1) (16 * value + d)) rest
      else
        match charOf? (16 * value + d) with
        | none => .error (.invalidCodePoint, start)
        | some c => (doubleQuotedFrom (.words .none) rest).after [c]

/-! ## Block scalars -/

/-- What becomes of the line breaks at the end of a block scalar: none of them stays, the first
one, or all. -/
inductive Chomping
  | strip
  | clip
  | keep
  deriving DecidableEq, Repr

/-- How the lines of a block scalar make up its text. -/
structure BlockStyle where
  /-- A single break between two lines is a blank. -/
  isFolded : Bool
  chomping : Chomping
  deriving DecidableEq, Repr

namespace BlockStyle

/-- What stands between two lines that are not empty: `lead` is the break after the first one, and
`breaks` are those of the empty lines after it. Lines that start with a blank are not folded. -/
def joint (style : BlockStyle) (besideBlank : Bool) (lead breaks : List Char) : List Char :=
  if style.isFolded && lead == ['\n'] && !besideBlank then
    if breaks.isEmpty then [' '] else breaks
  else lead ++ breaks

/-- What stays of the breaks after the last line that is not empty. -/
def ending (style : BlockStyle) (lead breaks : List Char) : List Char :=
  match style.chomping with
  | .strip => []
  | .clip => lead
  | .keep => lead ++ breaks

end BlockStyle

/-- Where the reader of a block scalar stands. -/
inductive BlockPlace
  | inLine
  /-- After the break `lead` of a line and the breaks of empty lines. -/
  | between (lead breaks : List Char)
  deriving DecidableEq, Repr

/-- The rest of a block scalar whose lines start at column `indent`. The last line before started
with a blank or did not. -/
def blockFrom (style : BlockStyle) (indent : Nat) (afterBlank : Bool) :
    BlockPlace → List Glyph → Lexed
  | .inLine, [] => .ok ([], [])
  | .inLine, g :: rest =>
    if isBreak g.char then blockFrom style indent afterBlank (.between [g.char] []) rest
    else (blockFrom style indent afterBlank .inLine rest).after [g.char]
  | .between lead breaks, [] => .ok (style.ending lead breaks, [])
  | .between lead breaks, g :: rest =>
    if g.char = ' ' && g.column < indent then
      blockFrom style indent afterBlank (.between lead breaks) rest
    else if g.char = '\t' && g.column < indent then .error (.tabInBlock, g :: rest)
    else if isBreak g.char then
      blockFrom style indent afterBlank (.between lead (breaks ++ [g.char])) rest
    else if g.column = indent then
      (blockFrom style indent (isSpace g.char) .inLine rest).after
        (style.joint (afterBlank || isSpace g.char) lead breaks ++ [g.char])
    else .ok (style.ending lead breaks, g :: rest)

/-- The sign for the breaks at the end, if there is one. -/
def chompingSign : List Glyph → Option Chomping × List Glyph
  | [] => (none, [])
  | g :: rest =>
    if g.char = '+' then (some .keep, rest)
    else if g.char = '-' then (some .strip, rest)
    else (none, g :: rest)

/-- The digit that states the indentation of a block, if there is one. -/
def indentationDigit : List Glyph → Except Slip (Option Nat × List Glyph)
  | [] => .ok (none, [])
  | g :: rest =>
    if g.char = '0' then .error (.zeroIndentation, g :: rest)
    else if g.char.isDigit then .ok (some (g.char.toNat - '0'.toNat), rest)
    else .ok (none, g :: rest)

/-- The glyphs after the line that starts a block scalar. Only blanks and a comment may be left
on it. -/
def afterHeader (glyphs : List Glyph) : Except Slip (List Glyph) :=
  let rest := glyphs.dropWhile (isSpace ·.char)
  let rest :=
    if rest.head?.any (·.char == '#') then rest.dropWhile (!isBreak ·.char) else rest
  match rest with
  | [] => .ok []
  | g :: more => if isBreak g.char then .ok more else .error (.textAfterHeader, rest)

/-- The indentation of a block scalar that does not tell it: that of its first line that is not
empty, or of a longer line of blanks before it; at least `margin` and at least one. -/
def detectIndentation (margin : Nat) (glyphs : List Glyph) : Except Slip Nat :=
  let isLead (g : Glyph) : Bool := g.char == ' ' || isBreak g.char
  let lead := glyphs.takeWhile isLead
  let breaks := (lead.filter (isBreak ·.char)).map (·.column)
  let after := ((lead.getLast?).map (·.stop.column)).getD 0
  let rest := glyphs.dropWhile isLead
  if rest.head?.any (·.char == '\t') then .error (.tabInBlock, rest)
  else .ok ((after :: breaks).foldl max (max margin 1))

/-- A block scalar after its first indicator, inside a collection whose entries start at column
`parent`. -/
def blockScalar (isFolded : Bool) (parent : Option Nat) (glyphs : List Glyph) : Lexed := do
  let (before, rest) := chompingSign glyphs
  let (digit, rest) ← indentationDigit rest
  let (after, rest) := if before.isSome then (none, rest) else chompingSign rest
  let rest ← afterHeader rest
  let indent ←
    match digit with
    | some n => pure (parent.getD 0 + n)
    | none => detectIndentation ((parent.map (· + 1)).getD 0) rest
  let style := ⟨isFolded, (before.or after).getD .clip⟩
  blockFrom style indent false (.between [] []) rest

end SchemaPlan.Yaml
