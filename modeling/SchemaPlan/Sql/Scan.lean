import SchemaPlan.Text.Blank

/-!
# Scanning SQL text

One reading of a text, character by character, that knows what is inside a quoted literal and how
many parentheses are open. A character is exposed when it stands outside both.

* `ScanState.step`: the state after one more character.
* `topLevelOffsets`: where the exposed characters stand.
* `Balanced`: a text that closes what it opens and nothing else.
-/

namespace SchemaPlan.Sql

/-- What the next character is read inside of. -/
inductive Mode
  | code
  /-- Inside a literal that `mark` opened and will close. -/
  | quoted (mark : Char)
  /-- Inside a literal, right after a backslash. -/
  | escaped (mark : Char)
  deriving DecidableEq, Repr

/-- Where a scan stands: its mode and the number of open parentheses. -/
structure ScanState where
  mode : Mode
  depth : Nat
  deriving DecidableEq, Repr

/-- Before the first character. -/
def ScanState.start : ScanState := ⟨.code, 0⟩

/-- The marks that open and close a literal. -/
def isQuoteMark (c : Char) : Bool := c == '\'' || c == '"' || c == '\x60'

namespace ScanState

/-- The state after reading `c`. A surplus `)` leaves the depth at zero. -/
def step (s : ScanState) (c : Char) : ScanState :=
  match s.mode with
  | .escaped mark => ⟨.quoted mark, s.depth⟩
  | .quoted mark =>
    if c = '\\' then ⟨.escaped mark, s.depth⟩
    else if c = mark then ⟨.code, s.depth⟩
    else s
  | .code =>
    if isQuoteMark c then ⟨.quoted c, s.depth⟩
    else if c = '(' then ⟨.code, s.depth + 1⟩
    else if c = ')' then ⟨.code, s.depth - 1⟩
    else s

/-- The state after reading a text. -/
def run (s : ScanState) (cs : List Char) : ScanState := cs.foldl step s

/-- `c`, read in state `s`, stands outside literals and parentheses and is none of their marks. -/
def exposes (s : ScanState) (c : Char) : Bool :=
  s == start && !isQuoteMark c && c != '(' && c != ')'

@[simp] theorem run_nil (s : ScanState) : s.run [] = s := rfl

@[simp] theorem run_cons (s : ScanState) (c : Char) (cs : List Char) :
    s.run (c :: cs) = (s.step c).run cs := rfl

@[simp] theorem run_append (s : ScanState) (cs ds : List Char) :
    s.run (cs ++ ds) = (s.run cs).run ds := List.foldl_append

end ScanState

/-- The offsets of the exposed characters of a text that is read from state `s` on, the first
character having offset `at_`. -/
def offsetsFrom (s : ScanState) (at_ : Nat) : List Char → List Nat
  | [] => []
  | c :: cs =>
    if s.exposes c then at_ :: offsetsFrom (s.step c) (at_ + 1) cs
    else offsetsFrom (s.step c) (at_ + 1) cs

/-- The offsets of the exposed characters of a text. -/
def topLevelOffsets (cs : List Char) : List Nat := offsetsFrom .start 0 cs

/-- The text closes every literal and parenthesis that it opens and closes none that it did not
open: whatever depth it is read at, the scan ends where it began. -/
def Balanced (cs : List Char) : Prop :=
  ∀ depth, (ScanState.mk .code depth).run cs = ⟨.code, depth⟩

end SchemaPlan.Sql
