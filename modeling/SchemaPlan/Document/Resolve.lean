import SchemaPlan.Document.Decode

/-!
# Typed documents

* `Document.resolve`: the document in which every plain scalar has the type it looks like. There has
  to be one, of at most 64 bits if it is an integer, and no part may be unread.
-/

namespace SchemaPlan.Document

/-- A scalar with the type it looks like, in a place where something is wanted. -/
def resolveScalar (wanted : String) : Scalar → Except DecodeError Document
  | .plain s =>
    match Scalar.ofPlain s with
    | .huge n => .error (.here ((Document.scalar (.huge n)).mismatch wanted))
    | typed => .ok (.scalar typed)
  | s => .ok (.scalar s)

mutual

/-- The document in which every plain scalar has the type it looks like. -/
def resolve : Document → Except DecodeError Document
  | .scalar s => resolveScalar "any value" s
  | .list items => (resolveItems 0 items).map .list
  | .tuple items => (resolveItems 0 items).map .tuple
  | .mapping entries => (resolveEntries 0 entries).map .mapping
  | .nothing => .ok .nothing
  | .unread cause => .error (.here (.unread cause))

/-- The items of a list from the `i`-th one on, with their plain scalars typed. -/
def resolveItems (i : Nat) : List Document → Except DecodeError (List Document)
  | [] => .ok []
  | item :: rest => do
    let item ← within (.item i) (resolve item)
    return item :: (← resolveItems (i + 1) rest)

/-- The entries of a mapping from the `i`-th one on, with their plain scalars typed. -/
def resolveEntries (i : Nat) :
    List (Document × Document) → Except DecodeError (List (Document × Document))
  | [] => .ok []
  | (key, value) :: rest => do
    let key ← within (.key i) (resolve key)
    let value ← within (.value i) (resolve value)
    return (key, value) :: (← resolveEntries (i + 1) rest)

end

end SchemaPlan.Document
