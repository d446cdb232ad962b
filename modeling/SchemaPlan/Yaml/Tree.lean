import SchemaPlan.Document.Misfit

/-!
# Placed documents

A document of a text together with the places of its parts.

* `Tree.document`: the document without the places. What lies deeper than a limit is not read.
* `Tree.locate`: how messages call a part, and its place.
-/

namespace SchemaPlan.Yaml

/-- A document with the places where its parts start. -/
inductive Tree
  | scalar (mark : Mark) (s : Scalar)
  | list (mark : Mark) (items : List Tree)
  | mapping (mark : Mark) (entries : List (Tree × Tree))
  /-- The content of a text that holds no document. -/
  | nothing
  /-- What is missing because the text breaks off. -/
  | missing
  deriving Repr

instance : Inhabited Tree := ⟨.missing⟩

namespace Tree

/-- The place where a document starts. -/
def mark : Tree → Mark
  | scalar mark _ => mark
  | list mark _ => mark
  | mapping mark _ => mark
  | nothing => .start
  | missing => .start

/-! ## Documents -/

mutual

/-- The document without the places. Lists and mappings inside more than `depth` others are not
read. -/
def document (depth : Nat) : Tree → Document
  | .scalar _ s => .scalar s
  | .list _ items =>
    match depth with
    | 0 => .unread .depth
    | depth + 1 => .list (itemDocuments depth items)
  | .mapping _ entries =>
    match depth with
    | 0 => .unread .depth
    | depth + 1 => .mapping (entryDocuments depth entries)
  | .nothing => .nothing
  | .missing => .unread .fault

/-- The items of a list without the places. -/
def itemDocuments (depth : Nat) : List Tree → List Document
  | [] => []
  | item :: rest => document depth item :: itemDocuments depth rest

/-- The entries of a mapping without the places. -/
def entryDocuments (depth : Nat) : List (Tree × Tree) → List (Document × Document)
  | [] => []
  | (key, value) :: rest =>
    (document depth key, document depth value) :: entryDocuments depth rest

end

/-! ## Parts -/

/-- The way to the value of a key. Only the root has no way. -/
def valuePath (path : Option String) (key : Tree) : String :=
  let name :=
    match key with
    | scalar _ (.plain s) => s
    | scalar _ (.text s) => s
    | _ => "?"
  match path with
  | none => name
  | some path => path ++ "." ++ name

/-- How messages call a part, and the place where it starts. A key is called as its mapping. -/
def locate (path : Option String) (t : Tree) : Trail → String × Mark
  | [] => (path.getD ".", t.mark)
  | step :: rest =>
    match t, step with
    | .list _ items, .item i =>
      locate (some (path.getD "." ++ "[" ++ toString i ++ "]")) (items.getD i .missing) rest
    | .mapping _ entries, .key i => locate path (entries.getD i (.missing, .missing)).1 rest
    | .mapping _ entries, .value i =>
      let (key, value) := entries.getD i (.missing, .missing)
      locate (some (valuePath path key)) value rest
    | _, _ => (path.getD ".", t.mark)

end Tree

end SchemaPlan.Yaml
