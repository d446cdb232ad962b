import SchemaPlan.Document.Misfit
import SchemaPlan.Keyed

/-!
# Reading documents

Readers of documents for values, lists and maps. Of several misfits the first one in the document
is told.

* `Document.text`, `Document.natural`, `Document.listOf`, `Document.optionOf`, `Document.mapOf`:
  the readers.
-/

namespace SchemaPlan

/-- A reader of documents. -/
abbrev Decoder (α : Type) := Document → Except DecodeError α

namespace Document

/-- The outcome for a document of the outcome for one of its parts. -/
def within {α : Type} (step : Step) (r : Except DecodeError α) : Except DecodeError α :=
  r.mapError (·.within step)

/-! ## Scalars -/

/-- A text, under the name that messages give it. A plain scalar of any look is its own text. -/
def textAs (wanted : String) : Decoder String
  | .scalar (.text s) => .ok s
  | .scalar (.plain s) => .ok s
  | d => .error (.here (d.mismatch wanted))

/-- Any text. -/
def text : Decoder String := textAs "a string"

/-- A number if it is below `bound`. -/
def checkBound (bound : Nat) (wanted : String) (n : Nat) : Except DecodeError Nat :=
  if n < bound then .ok n else .error (.here (.wrongValue (integerText n) wanted))

/-- A natural number of at most 64 bits that is below `bound`. A quoted number is none. -/
def natural (bound : Nat) (wanted : String) : Decoder Nat
  | .scalar (.natural n) => checkBound bound wanted n
  | .scalar (.plain s) =>
    match Plain.unsignedOf? (Nat.pow 2 64) s.toList with
    | some n => checkBound bound wanted n
    | none => .error (.here ((Document.scalar (.plain s)).mismatch wanted))
  | d => .error (.here (d.mismatch wanted))

/-- The document says that a value is absent. -/
def isAbsent : Document → Bool
  | .scalar .null => true
  | .scalar (.plain s) => s.isEmpty || Plain.nullWords.contains s
  | .nothing => true
  | _ => false

/-- A value or its absence. -/
def optionOf {α : Type} (decode : Decoder α) : Decoder (Option α) := fun d =>
  if d.isAbsent then .ok none else (decode d).map some

/-! ## Lists and maps -/

/-- The items of a list. A plain scalar without characters is a list without items. -/
def items : Document → Except DecodeError (List Document)
  | .list items => .ok items
  | .tuple items => .ok items
  | .scalar (.plain "") => .ok []
  | .nothing => .ok []
  | d => .error (.here (d.mismatch "a sequence"))

/-- The values of the items of a list from the `i`-th one on. -/
def decodeItems {α : Type} (decode : Decoder α) (i : Nat) :
    List Document → Except DecodeError (List α)
  | [] => .ok []
  | d :: rest => do
    let x ← within (.item i) (decode d)
    return x :: (← decodeItems decode (i + 1) rest)

/-- A list of values. -/
def listOf {α : Type} (decode : Decoder α) : Decoder (List α) := fun d => do
  decodeItems decode 0 (← d.items)

/-- The entries of a mapping. A plain scalar without characters is a mapping without entries. -/
def entries (wanted : String) : Document → Except DecodeError (List (Document × Document))
  | .mapping entries => .ok entries
  | .scalar (.plain "") => .ok []
  | .nothing => .ok []
  | d => .error (.here (d.mismatch wanted))

/-- The keys and values of the entries of a map from the `i`-th one on. -/
def decodeEntries {α : Type} (decode : Decoder α) (i : Nat) :
    List (Document × Document) → Except DecodeError (List (String × α))
  | [] => .ok []
  | (key, value) :: rest => do
    let key ← within (.key i) key.text
    let value ← within (.value i) (decode value)
    return (key, value) :: (← decodeEntries decode (i + 1) rest)

/-- A map from texts. Of several entries with one key the last one stays. -/
def mapOf {α : Type} (decode : Decoder α) : Decoder (Keyed α) := fun d => do
  return .ofList (← decodeEntries decode 0 (← d.entries "a map"))

end Document

end SchemaPlan
