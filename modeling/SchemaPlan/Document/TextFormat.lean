import SchemaPlan.Document.Catalog
import SchemaPlan.Text.Blank

/-!
# Text formats

What files hold: documents as texts. A format is a reader and a writer of such texts; all that is
done with files works for any format.

* `Reading`: the document that a text holds, and how far it could be read.
* `TextFormat.decode`: a value from a text.
-/

namespace SchemaPlan

/-- What is read from a text. -/
structure Reading where
  document : Document
  /-- What is wrong with the text, where its document breaks off or after it. -/
  fault : Option String := none
  /-- How messages call a part of the document, and its place in the text. -/
  locate : Trail → String × Mark := fun _ => (".", .start)

/-- A way to write documents as texts. -/
structure TextFormat where
  read : String → Reading
  write : Document → String

/-- Why a text does not hold what is wanted. -/
inductive TextError
  | malformed (message : String)
  | unfit (cause : Misfit) (message : String)
  deriving DecidableEq, Repr

/-- The wording of a text that cannot be read. -/
def TextError.message : TextError → String
  | malformed message => message
  | unfit _ message => message

/-- An error in the document of a text, as one of the text. -/
def Reading.explain (r : Reading) (e : DecodeError) : TextError :=
  match e.misfit, r.fault with
  | .unread .fault, some fault => .malformed fault
  | m, _ =>
    let (path, mark) := (e.trail.map r.locate).getD (".", .start)
    .unfit m (m.wording path mark)

namespace TextFormat

/-- The value that a text describes. A misfit of its document comes before a fault after it. -/
def decode {α : Type} (format : TextFormat) (decoder : Decoder α) (text : String) :
    Except TextError α :=
  let r := format.read text
  match decoder r.document, r.fault with
  | .error e, _ => .error (r.explain e)
  | .ok _, some fault => .error (.malformed fault)
  | .ok x, none => .ok x

/-- The value that a text describes; `fallback` for a text of nothing but blanks. -/
def decodeOr {α : Type} (format : TextFormat) (decoder : Decoder α) (fallback : α)
    (text : String) : Except TextError α :=
  if isBlankText text then .ok fallback else format.decode decoder text

/-- The snapshot that a text describes. A blank text describes one without entities. -/
def snapshot (format : TextFormat) (text : String) : Except TextError Snapshot :=
  format.decodeOr Snapshot.decode .empty text

/-- The catalog that a text records. A blank text records one without rows. -/
def catalog (format : TextFormat) (text : String) : Except TextError Catalog :=
  format.decodeOr Catalog.decode {} text

end TextFormat

end SchemaPlan
