import SchemaPlan.Text.Mark

/-!
# Faults of YAML texts

The ways in which a text is not the YAML text of one document.

* `Problem`: what is wrong, with its wording.
* `Activity`: what was being read.
* `Fault`: a problem, its place, and the place where the reading of the activity started.
-/

namespace SchemaPlan.Yaml

/-- What was being read when a problem was found. -/
inductive Activity
  | nextToken
  | simpleKey
  | plainScalar
  | quotedScalar
  /-- An escaped character of a quoted scalar. -/
  | escape
  | blockScalar
  | flowNode
  | blockNode
  | flowList
  | flowMapping
  | blockList
  | blockMapping
  deriving DecidableEq, Repr

/-- The wording of what the reader was doing. -/
def Activity.message : Activity → String
  | nextToken => "while scanning for the next token"
  | simpleKey => "while scanning a simple key"
  | plainScalar => "while scanning a plain scalar"
  | quotedScalar => "while scanning a quoted scalar"
  | escape => "while parsing a quoted scalar"
  | blockScalar => "while scanning a block scalar"
  | flowNode => "while parsing a flow node"
  | blockNode => "while parsing a block node"
  | flowList => "while parsing a flow sequence"
  | flowMapping => "while parsing a flow mapping"
  | blockList => "while parsing a block collection"
  | blockMapping => "while parsing a block mapping"

/-- What is wrong with a text. -/
inductive Problem
  /-- A character that is not allowed, after a number of bytes. -/
  | forbiddenCharacter (offset : Nat)
  | unexpectedCharacter
  | missingColon
  | misplacedItem
  | misplacedKey
  | misplacedValue
  | ambiguousColon
  | tabInPlain
  | unclosedQuote
  | documentMarkInQuote
  | unknownEscape
  | notHexadecimal
  | invalidCodePoint
  | zeroIndentation
  | textAfterHeader
  | tabInBlock
  | missingFlowNode
  | missingBlockNode
  | unclosedFlowList
  | unclosedFlowMapping
  | unclosedBlockList
  | unclosedBlockMapping
  | severalDocuments
  deriving DecidableEq, Repr

namespace Problem

/-- The wording of a problem. -/
def message : Problem → String
  | forbiddenCharacter 0 => "control characters are not allowed"
  | forbiddenCharacter offset =>
    "control characters are not allowed at position " ++ toString offset
  | unexpectedCharacter => "found character that cannot start any token"
  | missingColon => "could not find expected ':'"
  | misplacedItem => "block sequence entries are not allowed in this context"
  | misplacedKey => "mapping keys are not allowed in this context"
  | misplacedValue => "mapping values are not allowed in this context"
  | ambiguousColon => "found unexpected ':'"
  | tabInPlain => "found a tab character that violates indentation"
  | unclosedQuote => "found unexpected end of stream"
  | documentMarkInQuote => "found unexpected document indicator"
  | unknownEscape => "found unknown escape character"
  | notHexadecimal => "did not find expected hexadecimal number"
  | invalidCodePoint => "found invalid Unicode character escape code"
  | zeroIndentation => "found an indentation indicator equal to 0"
  | textAfterHeader => "did not find expected comment or line break"
  | tabInBlock => "found a tab character where an indentation space is expected"
  | missingFlowNode => "did not find expected node content"
  | missingBlockNode => "did not find expected node content"
  | unclosedFlowList => "did not find expected ',' or ']'"
  | unclosedFlowMapping => "did not find expected ',' or '\x7d'"
  | unclosedBlockList => "did not find expected '-' indicator"
  | unclosedBlockMapping => "did not find expected key"
  | severalDocuments =>
    "deserializing from YAML containing more than one document is not supported"

/-- What is being read when the problem is found. -/
def activity? : Problem → Option Activity
  | forbiddenCharacter _ => none
  | unexpectedCharacter => some .nextToken
  | missingColon => some .simpleKey
  | misplacedItem => none
  | misplacedKey => none
  | misplacedValue => none
  | ambiguousColon => some .plainScalar
  | tabInPlain => some .plainScalar
  | unclosedQuote => some .quotedScalar
  | documentMarkInQuote => some .quotedScalar
  | unknownEscape => some .escape
  | notHexadecimal => some .escape
  | invalidCodePoint => some .escape
  | zeroIndentation => some .blockScalar
  | textAfterHeader => some .blockScalar
  | tabInBlock => some .blockScalar
  | missingFlowNode => some .flowNode
  | missingBlockNode => some .blockNode
  | unclosedFlowList => some .flowList
  | unclosedFlowMapping => some .flowMapping
  | unclosedBlockList => some .blockList
  | unclosedBlockMapping => some .blockMapping
  | severalDocuments => none

end Problem

/-- Why a text cannot be read. -/
structure Fault where
  problem : Problem
  /-- Where the problem is. -/
  mark : Mark := .start
  /-- Where the reading of what has the problem started. -/
  startMark : Mark := .start
  deriving DecidableEq, Repr

/-- The wording of a fault: the problem and where it is, then what the reader was doing. -/
def Fault.message (f : Fault) : String :=
  f.problem.message ++ f.mark.wording ++
    match f.problem.activity? with
    | none => ""
    | some activity =>
      ", " ++ activity.message ++ if f.startMark = f.mark then "" else f.startMark.wording

end SchemaPlan.Yaml
