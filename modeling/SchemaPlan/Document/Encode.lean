import SchemaPlan.Document.Basic
import SchemaPlan.Keyed

/-!
# Writing documents

Entries of the mappings that models are written as. An absent field has no entry.
-/

namespace SchemaPlan.Document

/-- One entry of a mapping. -/
def entry (name : String) (d : Document) : List (Document × Document) := [(ofText name, d)]

/-- One entry whose value is a text. -/
def textEntry (name value : String) : List (Document × Document) := entry name (ofText value)

/-- The entry of a text that may be absent. -/
def optionEntry (name : String) (value : Option String) : List (Document × Document) :=
  match value with
  | none => []
  | some value => textEntry name value

/-- The entry of a list, written even if the list is empty. -/
def listEntry {α : Type} (name : String) (encode : α → Document) (values : List α) :
    List (Document × Document) :=
  entry name (.list (values.map encode))

/-- The entry of a list that is left out when it is empty. -/
def shownList {α : Type} (name : String) (encode : α → Document) (values : List α) :
    List (Document × Document) :=
  if values.isEmpty then [] else listEntry name encode values

/-- The entry of a map that is left out when it is empty. -/
def shownMap (name : String) (values : Keyed String) : List (Document × Document) :=
  if values.isEmpty then []
  else entry name (.mapping (values.pairs.map fun p => (ofText p.1, ofText p.2)))

end SchemaPlan.Document
