import SchemaPlan.Document.Decode

/-!
# Reading records

A record is a mapping of named fields.

* `Gathered`: what comes of reading some parts of a record. Of several failures the one that comes
  first in the document stays.
* `Fields.required`, `Fields.withDefault`, `Fields.optional`: the value of a field.
* `Document.record`: a reader of records from a reader of their fields.
-/

namespace SchemaPlan

/-! ## Failures in their order -/

/-- What comes of reading parts of a record. A failure has its position among the keys and values of
the record; one that shows only at the end of the record has none. -/
inductive Gathered (α : Type)
  | ok (x : α)
  | failed (position : Option Nat) (cause : DecodeError)

namespace Gathered

/-- A failure at the position `p` does not come after one at `q`. -/
def precedes : Option Nat → Option Nat → Bool
  | some p, some q => p ≤ q
  | none, some _ => false
  | _, none => true

/-- Both outcomes together: if both are failures, the first one. -/
def apply {α β : Type} : Gathered (α → β) → Gathered α → Gathered β
  | ok f, ok x => ok (f x)
  | ok _, failed p e => failed p e
  | failed p e, ok _ => failed p e
  | failed p e, failed q e' => if precedes p q then failed p e else failed q e'

instance : Applicative Gathered where
  pure := ok
  seq f x := apply f (x ())

/-- The outcome of the part at a position. -/
def ofExcept {α : Type} (position : Nat) : Except DecodeError α → Gathered α
  | .ok x => ok x
  | .error e => failed (some position) e

/-- The value, or the first failure. -/
def toExcept {α : Type} : Gathered α → Except DecodeError α
  | ok x => .ok x
  | failed _ e => .error e

@[simp]
theorem map_ok {α β : Type} (f : α → β) (x : α) : f <$> ok x = ok (f x) := rfl

@[simp]
theorem ok_seq_ok {α β : Type} (f : α → β) (x : α) : ok f <*> ok x = ok (f x) := rfl

@[simp]
theorem ok_seqLeft_ok {α β : Type} (x : α) (y : β) : ok x <* ok y = ok x := rfl

end Gathered

/-! ## Fields -/

/-- A field of a record in a document. -/
structure Field where
  name : String
  value : Document
  /-- The step from the record to the value. -/
  step : Step
  /-- The position of the value among the keys and values of the record. -/
  position : Nat

/-- The fields of a record that were read. -/
abbrev Fields := List Field

namespace Fields

/-- The field of a name, if the record has it. -/
def get? (fs : Fields) (name : String) : Option Field := fs.find? (·.name = name)

/-- Read the value of a field. A misfit is told with the way to the field. -/
def read {α : Type} (decode : Decoder α) (f : Field) : Gathered α :=
  .ofExcept f.position (Document.within f.step (decode f.value))

/-- A field that has to be there. -/
def required {α : Type} (fs : Fields) (name : String) (decode : Decoder α) : Gathered α :=
  match fs.get? name with
  | none => .failed none (.here (.missingField name))
  | some f => read decode f

/-- A field that stands for `fallback` when it is not there. -/
def withDefault {α : Type} (fs : Fields) (name : String) (decode : Decoder α) (fallback : α) :
    Gathered α :=
  match fs.get? name with
  | none => .ok fallback
  | some f => read decode f

/-- A field that may be absent, by not being there or by saying so. -/
def optional {α : Type} (fs : Fields) (name : String) (decode : Decoder α) : Gathered (Option α) :=
  fs.withDefault name (Document.optionOf decode) none

end Fields

namespace Document

/-- How records of a kind are read. -/
structure RecordShape where
  /-- What messages call the record. -/
  wanted : String
  /-- The names of the fields. -/
  names : List String
  /-- Fields of other names are refused. -/
  isClosed : Bool := true

/-- The name that a key gives to its field. -/
abbrev KeyReader := Document → Except DecodeError String

/-- The fields among the entries of a mapping from the `i`-th one on, after those with the names
`seen`, up to the first key that cannot be one of the record. A second entry for a name cannot, and
neither can another name if the record is closed. -/
def collectFields (shape : RecordShape) (nameOf : KeyReader) (seen : List String) (i : Nat) :
    List (Document × Document) → Fields × Gathered Unit
  | [] => ([], .ok ())
  | (key, value) :: rest =>
    match within (.key i) (nameOf key) with
    | .error e => ([], .failed (some (2 * i)) e)
    | .ok name =>
      if name ∈ shape.names then
        if name ∈ seen then ([], .failed (some (2 * i)) (.here (.repeatedField name)))
        else
          let (fields, keys) := collectFields shape nameOf (name :: seen) (i + 1) rest
          (⟨name, value, .value i, 2 * i + 1⟩ :: fields, keys)
      else if shape.isClosed then
        ([], .failed (some (2 * i)) ⟨.unknownField name shape.names, some [.key i]⟩)
      else collectFields shape nameOf seen (i + 1) rest

/-- The values of a list as the fields of a record, in the order of the names. -/
def positionalFields (shape : RecordShape) (items : List Document) : Fields × Gathered Unit :=
  ((shape.names.zip items.zipIdx).map fun field =>
      ⟨field.1, field.2.1, .item field.2.2, 2 * field.2.2 + 1⟩,
    if items.length ≤ shape.names.length then .ok ()
    else .failed none (.here (.wrongLength items.length shape.wanted)))

/-- The record whose fields are given. -/
def build {α : Type} (read : Fields → Gathered α) (given : Fields × Gathered Unit) :
    Except DecodeError α :=
  (read given.1 <* given.2).toExcept

/-- A reader of records from a reader of their fields. -/
def record {α : Type} (shape : RecordShape) (read : Fields → Gathered α) : Decoder α
  | .tuple items => build read (positionalFields shape items)
  | d => do
    build read (collectFields shape (textAs "field identifier") [] 0 (← d.entries shape.wanted))

end Document

end SchemaPlan
