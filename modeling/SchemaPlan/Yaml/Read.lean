import SchemaPlan.Yaml.Token
import SchemaPlan.Yaml.Tree

/-!
# Reading YAML texts

The document that a list of tokens describes. An empty place stands for a plain scalar without
characters. Where the tokens end too early or make no sense, the document breaks off.

* `node` and its siblings: one node and the tokens after it.
* `Outcome.ofText`: the document of a text that holds one document or none.
-/

namespace SchemaPlan.Yaml

/-! ## Parts of documents -/

/-- The tokens after a node. Without them the text breaks off inside the node, for a reason that is
given unless it is the fault that ends the tokens. -/
abbrev Onward := Except (Option Fault) (List PlacedToken)

/-- A node that was read, and what comes after it. -/
abbrev Parsed := Tree × Onward

/-- Nothing was read because the tokens end. -/
def outOfTokens : Parsed := (.missing, .error none)

/-- The reason why a node that started at a place breaks off: a problem with the next token. -/
def breakOff (problem : Problem) (start : Mark) : List PlacedToken → Option Fault
  | [] => none
  | t :: _ => some ⟨problem, t.mark, start⟩

/-- A list that breaks off after items that are given in reverse order. -/
def brokenList (mark : Mark) (done : List Tree) (fault : Option Fault) : Parsed :=
  (.list mark (.missing :: done).reverse, .error fault)

/-- A mapping that breaks off after entries that are given in reverse order. -/
def brokenMapping (mark : Mark) (done : List (Tree × Tree)) (fault : Option Fault) : Parsed :=
  (.mapping mark ((.missing, .missing) :: done).reverse, .error fault)

/-- The node of a place where nothing is written. -/
def emptyNode (mark : Mark) : Tree := .scalar mark (.plain "")

/-! ## Nodes -/

/-- Where a node stands. -/
inductive Place
  /-- Inside brackets or braces. -/
  | flow
  /-- In a block list, or at the root of a document. -/
  | block
  /-- In a block mapping, where a list need not be indented. -/
  | mapping
  deriving DecidableEq, Repr

/-- The problem that a place holds no node. -/
def Place.missingNode : Place → Problem
  | flow => .missingFlowNode
  | block => .missingBlockNode
  | mapping => .missingBlockNode

/-- The tokens that end a value in a block mapping. -/
def entryStops : List Token := [.key, .value, .blockEnd]

/-- The tokens after the comma that has to stand between two entries. -/
def afterComma? (isFirst : Bool) : List PlacedToken → Option (List PlacedToken)
  | ⟨.comma, mark⟩ :: rest => if isFirst then some (⟨.comma, mark⟩ :: rest) else some rest
  | rest => if isFirst then some rest else none

mutual

/-- One node. The first argument bounds the depth of the calls. -/
def node (fuel : Nat) (place : Place) (tokens : List PlacedToken) : Parsed :=
  match fuel, tokens with
  | fuel + 1, t :: rest =>
    match t.token, place with
    | .scalar s, _ => (.scalar t.mark s, .ok rest)
    | .flowListStart, _ => flowItems fuel t.mark [] rest
    | .flowMappingStart, _ => flowEntries fuel t.mark [] rest
    | .blockListStart, .block => blockItems fuel t.mark [] rest
    | .blockListStart, .mapping => blockItems fuel t.mark [] rest
    | .blockMappingStart, .block => blockEntries fuel t.mark [] rest
    | .blockMappingStart, .mapping => blockEntries fuel t.mark [] rest
    | .item, .mapping => bareItems fuel t.mark [] (t :: rest)
    | _, _ => (.missing, .error (some ⟨place.missingNode, t.mark, t.mark⟩))
  | _, _ => outOfTokens

/-- One node, or none before one of the tokens `stops`. In a block an empty node stands at the place
`after` what comes before it, inside brackets and braces at the next token. -/
def nodeBefore (fuel : Nat) (place : Place) (after : Mark) (stops : List Token)
    (tokens : List PlacedToken) : Parsed :=
  match fuel, tokens with
  | fuel + 1, t :: rest =>
    if t.token ∈ stops then
      (emptyNode (if place = .flow then t.mark else after), .ok (t :: rest))
    else node fuel place (t :: rest)
  | _, _ => outOfTokens

/-- The items of a block list after `done`, which are in reverse order. -/
def blockItems (fuel : Nat) (mark : Mark) (done : List Tree) (tokens : List PlacedToken) : Parsed :=
  match fuel, tokens with
  | fuel + 1, ⟨.item, dash⟩ :: rest =>
    match nodeBefore fuel .block (dash.after '-') [.item, .blockEnd] rest with
    | (d, .ok rest) => blockItems fuel mark (d :: done) rest
    | (d, .error fault) => brokenList mark (d :: done) fault
  | _ + 1, ⟨.blockEnd, _⟩ :: rest => (.list mark done.reverse, .ok rest)
  | _, tokens => brokenList mark done (breakOff .unclosedBlockList mark tokens)

/-- The items of a list that is not indented. It ends before the first token that is no item. -/
def bareItems (fuel : Nat) (mark : Mark) (done : List Tree) (tokens : List PlacedToken) : Parsed :=
  match fuel, tokens with
  | fuel + 1, ⟨.item, dash⟩ :: rest =>
    match nodeBefore fuel .block (dash.after '-') (.item :: entryStops) rest with
    | (d, .ok rest) => bareItems fuel mark (d :: done) rest
    | (d, .error fault) => brokenList mark (d :: done) fault
  | _ + 1, t :: rest => (.list mark done.reverse, .ok (t :: rest))
  | _, _ => brokenList mark done none

/-- The value of a key in a block mapping, which may lack one. -/
def blockValue (fuel : Nat) (tokens : List PlacedToken) : Parsed :=
  match fuel, tokens with
  | fuel + 1, ⟨.value, colon⟩ :: rest =>
    nodeBefore fuel .mapping (colon.after ':') entryStops rest
  | _ + 1, t :: rest => (emptyNode t.mark, .ok (t :: rest))
  | _, _ => outOfTokens

/-- The entries of a block mapping. -/
def blockEntries (fuel : Nat) (mark : Mark) (done : List (Tree × Tree))
    (tokens : List PlacedToken) : Parsed :=
  match fuel, tokens with
  | fuel + 1, ⟨.key, start⟩ :: rest =>
    match nodeBefore fuel .mapping (start.after '?') entryStops rest with
    | (k, .error fault) => brokenMapping mark ((k, .missing) :: done) fault
    | (k, .ok rest) =>
      match blockValue fuel rest with
      | (v, .error fault) => brokenMapping mark ((k, v) :: done) fault
      | (v, .ok rest) => blockEntries fuel mark ((k, v) :: done) rest
  | _ + 1, ⟨.blockEnd, _⟩ :: rest => (.mapping mark done.reverse, .ok rest)
  | _, tokens => brokenMapping mark done (breakOff .unclosedBlockMapping mark tokens)

/-- The value of a key in brackets or braces, which may lack one. The token `close` ends them. -/
def flowValue (fuel : Nat) (close : Token) (tokens : List PlacedToken) : Parsed :=
  match fuel, tokens with
  | fuel + 1, ⟨.value, colon⟩ :: rest => nodeBefore fuel .flow colon [.comma, close] rest
  | _ + 1, t :: rest => (emptyNode t.mark, .ok (t :: rest))
  | _, _ => outOfTokens

/-- The key of an item in brackets. If it is empty, the token after its mark is lost. -/
def itemKey (fuel : Nat) (tokens : List PlacedToken) : Parsed :=
  match fuel, tokens with
  | fuel + 1, t :: rest =>
    if t.token ∈ [Token.value, .comma, .flowListEnd] then
      (emptyNode (t.mark.after ':'), .ok rest)
    else node fuel .flow (t :: rest)
  | _, _ => outOfTokens

/-- A mapping of one entry as an item in brackets, after the mark of its key. -/
def itemEntry (fuel : Nat) (mark : Mark) (tokens : List PlacedToken) : Parsed :=
  match fuel with
  | 0 => outOfTokens
  | fuel + 1 =>
    match itemKey fuel tokens with
    | (k, .error fault) => brokenMapping mark [(k, .missing)] fault
    | (k, .ok rest) =>
      match flowValue fuel .flowListEnd rest with
      | (v, .error fault) => brokenMapping mark [(k, v)] fault
      | (v, .ok []) => brokenMapping mark [(k, v)] none
      | (v, .ok rest) => (.mapping mark [(k, v)], .ok rest)

/-- The items in brackets. A key among them makes a mapping of one entry. -/
def flowItems (fuel : Nat) (mark : Mark) (done : List Tree) (tokens : List PlacedToken) : Parsed :=
  match fuel, tokens with
  | 0, _ => brokenList mark done none
  | _ + 1, ⟨.flowListEnd, _⟩ :: rest => (.list mark done.reverse, .ok rest)
  | fuel + 1, tokens =>
    match afterComma? done.isEmpty tokens with
    | none => brokenList mark done (breakOff .unclosedFlowList mark tokens)
    | some (⟨.flowListEnd, _⟩ :: rest) => (.list mark done.reverse, .ok rest)
    | some (⟨.key, start⟩ :: rest) =>
      match itemEntry fuel start rest with
      | (d, .ok rest) => flowItems fuel mark (d :: done) rest
      | (d, .error fault) => brokenList mark (d :: done) fault
    | some rest =>
      match node fuel .flow rest with
      | (d, .ok rest) => flowItems fuel mark (d :: done) rest
      | (d, .error fault) => brokenList mark (d :: done) fault

/-- An entry in braces. A node that is not marked as a key is one without a value. -/
def flowEntry (fuel : Nat) (tokens : List PlacedToken) : Tree × Tree × Onward :=
  match fuel, tokens with
  | fuel + 1, ⟨.key, start⟩ :: rest =>
    match nodeBefore fuel .flow start [.value, .comma, .flowMappingEnd] rest with
    | (k, .error fault) => (k, .missing, .error fault)
    | (k, .ok rest) => (k, flowValue fuel .flowMappingEnd rest)
  | fuel + 1, t :: rest =>
    match node fuel .flow (t :: rest) with
    | (k, .ok []) => (k, outOfTokens)
    | (k, .ok (next :: rest)) => (k, emptyNode next.mark, .ok (next :: rest))
    | (k, .error fault) => (k, .missing, .error fault)
  | _, _ => (.missing, outOfTokens)

/-- The entries in braces. -/
def flowEntries (fuel : Nat) (mark : Mark) (done : List (Tree × Tree))
    (tokens : List PlacedToken) : Parsed :=
  match fuel, tokens with
  | 0, _ => brokenMapping mark done none
  | _ + 1, ⟨.flowMappingEnd, _⟩ :: rest => (.mapping mark done.reverse, .ok rest)
  | fuel + 1, tokens =>
    match afterComma? done.isEmpty tokens with
    | none => brokenMapping mark done (breakOff .unclosedFlowMapping mark tokens)
    | some (⟨.flowMappingEnd, _⟩ :: rest) => (.mapping mark done.reverse, .ok rest)
    | some rest =>
      match flowEntry fuel rest with
      | (k, v, .ok rest) => flowEntries fuel mark ((k, v) :: done) rest
      | (k, v, .error fault) => brokenMapping mark ((k, v) :: done) fault

end

/-! ## Texts -/

/-- The node at the start of a list of tokens. -/
def firstNode (tokens : List PlacedToken) : Parsed :=
  node (4 * (tokens.length + 1)) .block tokens

/-- The tokens that leave a document empty after the mark of its start. -/
def documentStops : List Token := [.documentStart, .documentEnd, .textEnd]

/-- The first document of a text. -/
def firstDocument : List PlacedToken → Parsed
  | ⟨.textEnd, mark⟩ :: rest => (.nothing, .ok (⟨.textEnd, mark⟩ :: rest))
  | ⟨.documentStart, _⟩ :: t :: rest =>
    if t.token ∈ documentStops then (emptyNode t.mark, .ok (t :: rest)) else firstNode (t :: rest)
  | [⟨.documentStart, _⟩] => outOfTokens
  | tokens => firstNode tokens

/-- What is wrong after the first document of a text: a fault right after it, or more than marks of
its end. -/
def trailingFault (fault : Option Fault) : List PlacedToken → Option Fault
  | [] => fault
  | ⟨.textEnd, _⟩ :: _ => none
  | ⟨.documentEnd, _⟩ :: rest =>
    match rest.dropWhile (·.token = .documentEnd) with
    | ⟨.textEnd, _⟩ :: _ => none
    | _ => some { problem := .severalDocuments }
  | _ => some { problem := .severalDocuments }

/-- The document of a text up to its first fault, if it has one. -/
structure Outcome where
  tree : Tree
  fault : Option Fault := none
  deriving Repr

/-- The document of a text that should hold one document or none. -/
def Outcome.ofText (text : String) : Outcome :=
  let scan := Scan.ofText text
  match firstDocument scan.tokens with
  | (tree, .error fault) => ⟨tree, fault.or scan.fault⟩
  | (tree, .ok rest) => ⟨tree, trailingFault scan.fault rest⟩

end SchemaPlan.Yaml
