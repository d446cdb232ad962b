import SchemaPlan.Document.Basic
import SchemaPlan.Yaml.Lexeme

/-!
# Tokens of YAML texts

A text as a list of tokens. The indentation of block collections is made explicit by tokens for
their starts and ends, and a mapping key by a token before it.

* `Scanner`: what has been seen of a text: its tokens, the columns of the open block collections,
  and where the key of a mapping may have started.
* `Scanner.step`: the next token.
* `Scan.ofText`: the tokens of a text up to its first fault.

A key on one line is known as such only at its colon. So the token before it, and that for the
start of its mapping, are put in afterwards. Tokens that may yet be a key are not among those before
a fault.
-/

namespace SchemaPlan.Yaml

inductive Token
  | blockListStart
  | blockMappingStart
  | blockEnd
  | flowListStart
  | flowListEnd
  | flowMappingStart
  | flowMappingEnd
  | item
  | comma
  | key
  | value
  | scalar (s : Scalar)
  | documentStart
  | documentEnd
  | textEnd
  deriving DecidableEq, Repr

/-- A token with the place where it starts. -/
structure PlacedToken where
  token : Token
  mark : Mark
  deriving DecidableEq, Repr

/-- A place where a key may have started, after `position` tokens. -/
structure KeyStart where
  position : Nat
  mark : Mark
  /-- Nothing but a key can start here. -/
  isRequired : Bool
  deriving DecidableEq, Repr

/-- How many bytes a key may have. -/
def keyLimit : Nat := 1024

/-- At a place it is too late for the colon of the key. -/
def KeyStart.isStale (k : KeyStart) (mark : Mark) : Bool :=
  k.mark.line < mark.line || k.mark.bytes + keyLimit < mark.bytes

/-- What has been seen of a text. -/
structure Scanner where
  /-- The place where the text ends. -/
  textEnd : Mark
  tokens : Array PlacedToken := #[]
  /-- The columns of the open block collections, innermost first. -/
  indents : List Nat := []
  /-- Where a key of the innermost collection may have started. -/
  keyStart : Option KeyStart := none
  /-- The same for the collections around each open bracket or brace, innermost first. -/
  outerKeys : List (Option KeyStart) := []
  /-- A key may start here. -/
  allowsKey : Bool := true

namespace Scanner

/-- A bracket or a brace is open. -/
def inFlow (s : Scanner) : Bool := !s.outerKeys.isEmpty

/-- The first column to the right of the innermost block collection. -/
def margin (s : Scanner) : Nat := (s.indents.head?.map (· + 1)).getD 0

def push (s : Scanner) (t : Token) (mark : Mark) : Scanner :=
  { s with tokens := s.tokens.push ⟨t, mark⟩ }

/-- From here on a key may or may not start. -/
def allowKey (s : Scanner) (allowed : Bool) : Scanner := { s with allowsKey := allowed }

/-! ## Keys -/

/-- Where keys may have started, innermost first. -/
def keyStarts (s : Scanner) : List KeyStart := (s.keyStart :: s.outerKeys).filterMap id

/-- Key starts for whose colon it is too late at a place are given up, unless one was required. -/
def expireKeys (s : Scanner) (mark : Mark) : Except Fault Scanner :=
  let isStale (k : Option KeyStart) : Bool := k.any (·.isStale mark)
  if !isStale s.keyStart && !s.outerKeys.any isStale then .ok s
  else
    match s.keyStarts.find? fun k => k.isStale mark && k.isRequired with
    | some k => .error ⟨.missingColon, mark, k.mark⟩
    | none => .ok { s with
      keyStart := s.keyStart.filter (!·.isStale mark)
      outerKeys := s.outerKeys.map (·.filter (!·.isStale mark)) }

/-- The key start of the innermost collection is given up at a place, unless it was required. -/
def forgetKey (s : Scanner) (mark : Mark) : Except Fault Scanner :=
  match s.keyStart.filter (·.isRequired) with
  | some k => .error ⟨.missingColon, mark, k.mark⟩
  | none => .ok { s with keyStart := none }

/-- A key may start at a place, if one is allowed. -/
def noteKey (s : Scanner) (mark : Mark) : Except Fault Scanner :=
  if s.allowsKey then do
    let s ← s.forgetKey mark
    let isRequired := !s.inFlow && s.indents.head? == some mark.column
    return { s with keyStart := some ⟨s.tokens.size, mark, isRequired⟩ }
  else .ok s

/-! ## Block collections -/

/-- A block collection starts at a place to the right of those that are open. Its token is put
after the first `position` tokens. -/
def indentTo (s : Scanner) (mark : Mark) (start : Token) (position : Nat) : Scanner :=
  if s.inFlow || mark.column < s.margin then s
  else { s with
    indents := mark.column :: s.indents
    tokens := s.tokens.insertIdxIfInBounds position ⟨start, mark⟩ }

/-- The block collections to the right of a place end there. -/
def dedentTo (s : Scanner) (mark : Mark) : Scanner :=
  if s.inFlow then s
  else { s with
    indents := s.indents.dropWhile (mark.column < ·)
    tokens := s.tokens ++
      (s.indents.takeWhile (mark.column < ·)).map fun _ => PlacedToken.mk .blockEnd mark }

/-- All block collections end at a place. -/
def dedentAll (s : Scanner) (mark : Mark) : Scanner :=
  if s.inFlow then s
  else { s with
    indents := []
    tokens := s.tokens ++ s.indents.map fun _ => PlacedToken.mk .blockEnd mark }

/-! ## Tokens -/

/-- The mark of the start or the end of a document. -/
def documentMark (s : Scanner) (mark : Mark) (t : Token) : Except Fault Scanner := do
  let s ← (s.dedentAll mark).forgetKey mark
  return (s.allowKey false).push t mark

/-- The end of the text, which is the end of a line. -/
def finish (s : Scanner) : Except Fault Scanner := do
  let s ← s.expireKeys s.textEnd
  let mark := if s.textEnd.column = 0 then s.textEnd else s.textEnd.nextLine
  let s ← (s.dedentAll mark).forgetKey mark
  return (← s.expireKeys mark).push .textEnd mark

def openFlow (s : Scanner) (mark : Mark) (t : Token) : Except Fault Scanner := do
  let s ← s.noteKey mark
  let s := { s with keyStart := none, outerKeys := s.keyStart :: s.outerKeys }
  return (s.allowKey true).push t mark

def closeFlow (s : Scanner) (mark : Mark) (t : Token) : Except Fault Scanner := do
  let s ← s.forgetKey mark
  let s :=
    match s.outerKeys with
    | [] => s
    | k :: outer => { s with keyStart := k, outerKeys := outer }
  return (s.allowKey false).push t mark

def comma (s : Scanner) (mark : Mark) : Except Fault Scanner := do
  return ((← s.forgetKey mark).allowKey true).push .comma mark

/-- A collection that starts at its first indicator, where the problem is that none may. -/
def startBlock (s : Scanner) (mark : Mark) (start : Token) (problem : Problem) :
    Except Fault Scanner :=
  if s.inFlow then .ok s
  else if s.allowsKey then .ok (s.indentTo mark start s.tokens.size)
  else .error ⟨problem, mark, mark⟩

/-- A dash before an item. -/
def item (s : Scanner) (mark : Mark) : Except Fault Scanner := do
  let s ← s.startBlock mark .blockListStart .misplacedItem
  return ((← s.forgetKey mark).allowKey true).push .item mark

/-- A question mark before a key. -/
def key (s : Scanner) (mark : Mark) : Except Fault Scanner := do
  let s ← s.startBlock mark .blockMappingStart .misplacedKey
  return ((← s.forgetKey mark).allowKey !s.inFlow).push .key mark

/-- A colon before a value: the end of the key that was started, or of one that a question mark
announced. -/
def value (s : Scanner) (mark : Mark) : Except Fault Scanner :=
  match s.keyStart with
  | some k =>
    let tokens := s.tokens.insertIdxIfInBounds k.position ⟨.key, k.mark⟩
    let s := { s with tokens := tokens, keyStart := none }
    .ok (((s.indentTo k.mark .blockMappingStart k.position).allowKey false).push .value mark)
  | none => do
    let s ← s.startBlock mark .blockMappingStart .misplacedValue
    return (s.allowKey !s.inFlow).push .value mark

/-- What comes of reading a scalar that starts at a place. -/
def lexed {α : Type} (s : Scanner) (mark : Mark) (read : Except Slip α) : Except Fault α :=
  read.mapError fun slip => ⟨slip.1, markOf s.textEnd slip.2, mark⟩

def quoted (s : Scanner) (mark : Mark) (read : Lexed) : Except Fault (Scanner × List Glyph) := do
  let s ← s.noteKey mark
  let (text, rest) ← s.lexed mark read
  return ((s.allowKey false).push (.scalar (.text (String.ofList text))) mark, rest)

def block (s : Scanner) (mark : Mark) (isFolded : Bool) (rest : List Glyph) :
    Except Fault (Scanner × List Glyph) := do
  let s ← s.forgetKey mark
  let (text, rest) ← s.lexed mark (blockScalar isFolded s.indents.head? rest)
  return ((s.allowKey true).push (.scalar (.text (String.ofList text))) mark, rest)

def plain (s : Scanner) (g : Glyph) (rest : List Glyph) :
    Except Fault (Scanner × List Glyph) := do
  let s ← s.noteKey g.mark
  let (text, isBroken, rest) ← s.lexed g.mark (plainFrom s.inFlow s.margin .none (g :: rest))
  return ((s.allowKey isBroken).push (.scalar (.plain (String.ofList text))) g.mark, rest)

/-- The characters that start no plain scalar, whatever comes after them. -/
def indicators : List Char :=
  [',', '[', ']', '{', '}', '#', '&', '*', '!', '|', '>', '\'', '"', '%', '@', '\x60', '\t']

/-- The token that starts at the glyph `g`. -/
def step (s : Scanner) (g : Glyph) (rest : List Glyph) :
    Except Fault (Scanner × List Glyph) := do
  let mark := g.mark
  let s := (← s.expireKeys mark).dedentTo mark
  if isMark '-' (g :: rest) then return (← s.documentMark mark .documentStart, rest.drop 2)
  else if isMark '.' (g :: rest) then return (← s.documentMark mark .documentEnd, rest.drop 2)
  else
    match g.char with
    | '[' => return (← s.openFlow mark .flowListStart, rest)
    | '{' => return (← s.openFlow mark .flowMappingStart, rest)
    | ']' => return (← s.closeFlow mark .flowListEnd, rest)
    | '}' => return (← s.closeFlow mark .flowMappingEnd, rest)
    | ',' => return (← s.comma mark, rest)
    | '\'' => s.quoted mark (singleQuotedFrom .none rest)
    | '"' => s.quoted mark (doubleQuotedFrom (.words .none) rest)
    | c =>
      if c == '-' && atWordEnd rest then return (← s.item mark, rest)
      else if c == '?' && (s.inFlow || atWordEnd rest) then return (← s.key mark, rest)
      else if c == ':' && (s.inFlow || atWordEnd rest) then return (← s.value mark, rest)
      else if (c == '|' || c == '>') && !s.inFlow then s.block mark (c == '>') rest
      else if indicators.contains c then .error ⟨.unexpectedCharacter, mark, mark⟩
      else s.plain g rest

/-- Skip what stands between tokens: blanks, breaks and comments. A line break outside brackets
and braces allows a key. Where a key is allowed, no tab is skipped. -/
def skipSpacing (s : Scanner) (inComment : Bool) : List Glyph → Scanner × List Glyph
  | [] => (s, [])
  | g :: rest =>
    if isBreak g.char then (s.allowKey (s.allowsKey || !s.inFlow)).skipSpacing false rest
    else if inComment || g.char == '#' then s.skipSpacing true rest
    else if g.char == ' ' || (g.char == '\t' && (s.inFlow || !s.allowsKey)) ||
        (g.char == byteOrderMark && g.column == 0) then s.skipSpacing false rest
    else (s, g :: rest)

/-- The tokens that are complete when a fault is found: those before any that may yet be a key. -/
def completeTokens (s : Scanner) : List PlacedToken :=
  s.tokens.toList.take ((s.keyStarts.map (·.position)).foldl min s.tokens.size)

end Scanner

/-! ## Texts -/

/-- The tokens of a text, up to its first fault if it has one. -/
structure Scan where
  tokens : List PlacedToken
  fault : Option Fault := none
  deriving DecidableEq, Repr

namespace Scan

/-- The tokens before a fault. -/
def broken (s : Scanner) (fault : Fault) : Scan := ⟨s.completeTokens, some fault⟩

/-- The tokens of a text of which some glyphs are left. Every step leaves fewer of them. -/
def ofGlyphs (s : Scanner) (glyphs : List Glyph) : Scan :=
  match s.skipSpacing false glyphs with
  | (s, []) =>
    match s.finish with
    | .error fault => broken s fault
    | .ok s => ⟨s.tokens.toList, none⟩
  | (s, g :: more) =>
    match s.step g more with
    | .error fault => broken s fault
    | .ok (next, rest) =>
      match next.expireKeys (markOf s.textEnd rest) with
      | .error fault => broken s fault
      | .ok next =>
        if _h : rest.length < glyphs.length then ofGlyphs next rest
        else broken s ⟨.unexpectedCharacter, g.mark, g.mark⟩
termination_by glyphs.length

/-- The tokens of a text. One with a character that is not allowed has none. -/
def ofText (text : String) : Scan :=
  match forbiddenOffset? text.toList with
  | some offset => ⟨[], some { problem := .forbiddenCharacter offset }⟩
  | none =>
    let glyphs := Glyph.ofText text
    ofGlyphs { textEnd := endMark glyphs } glyphs

end Scan

end SchemaPlan.Yaml
