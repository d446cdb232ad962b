import SchemaPlan.Document.Plain

/-!
# Documents

A document is a tree of scalars, lists and mappings, as JSON and YAML texts describe it.

* `Scalar.plain`: an unquoted scalar, whose type depends on what is wanted of it.
* `Scalar.ofPlain`: the type that such a scalar looks like.
* `Document.unread`: a part of a text that is not in the document, because the text has a fault
  there or because it lies too deep. It is missed only where it is wanted.
-/

namespace SchemaPlan

/-! ## Scalars -/

/-- A leaf of a document. -/
inductive Scalar
  /-- An unquoted text of a notation that types such texts by their look. -/
  | plain (text : String)
  | text (s : String)
  | null
  | bool (b : Bool)
  /-- A natural number of at most 64 bits. -/
  | natural (n : Nat)
  /-- The absolute value of an integer of at most 64 bits that is written with a minus sign. -/
  | negative (n : Nat)
  /-- An integer of more than 64 bits. No field takes one. -/
  | huge (n : Int)
  /-- A number that is no integer, as it is written. No field takes one. -/
  | fraction (text : String)
  deriving DecidableEq, Repr

/-- The type a plain scalar looks like. An integer too large for 128 bits is a fraction or a text
as its digits have it. -/
def Scalar.ofPlain (s : String) : Scalar :=
  let cs := s.toList
  if s.isEmpty || Plain.nullWords.contains s then .null
  else
    match Plain.bool? s, Plain.unsignedOf? (Nat.pow 2 64) cs,
      Plain.negativeOf? (Nat.pow 2 63) cs, Plain.integerOf? 128 cs with
    | some b, _, _, _ => .bool b
    | none, some n, _, _ => .natural n
    | none, none, some n, _ => .negative n
    | none, none, none, some n => .huge n
    | none, none, none, none =>
      if !Plain.hasLeadingZero cs && Plain.isFraction s then .fraction s else .text s

/-! ## Documents -/

/-- Why a part of a text is not in the document. -/
inductive Unread
  /-- The text has a fault there. -/
  | fault
  /-- The part lies too deep. -/
  | depth
  deriving DecidableEq, Repr

/-- A document: what is left of a text when its layout is forgotten. -/
inductive Document
  | scalar (s : Scalar)
  | list (items : List Document)
  /-- A list that may also stand for a record, as the values of its fields in their order. -/
  | tuple (items : List Document)
  | mapping (entries : List (Document × Document))
  /-- The content of a text that holds no document. -/
  | nothing
  /-- A part of a text that was not read. -/
  | unread (cause : Unread)
  deriving Repr

instance : Inhabited Document := ⟨.nothing⟩

namespace Document

/-- A text as a document. -/
def ofText (s : String) : Document := .scalar (.text s)

/-- A number as a document. -/
def ofNat (n : Nat) : Document := .scalar (.natural n)

end Document

end SchemaPlan
