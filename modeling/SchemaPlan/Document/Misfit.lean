import SchemaPlan.Document.Basic
import SchemaPlan.Schema.Collection
import SchemaPlan.Text.Mark
import SchemaPlan.Text.Quoted

/-!
# Misfits

The ways in which a document is not what is wanted of it, and the part of it that is to blame.

* `Misfit`: what is wrong, with its wording.
* `Trail`: the way from a document to one of its parts.
* `DecodeError`: a misfit and the part it was found in.
-/

namespace SchemaPlan

/-! ## What is wrong -/

/-- What is wrong with a part of a document. -/
inductive Misfit
  | wrongType (found wanted : String)
  | wrongValue (found wanted : String)
  | wrongLength (length : Nat) (wanted : String)
  | missingField (name : String)
  | unknownField (name : String) (known : List String)
  | repeatedField (name : String)
  | unknownVariant (name : String) (known : List String)
  | duplicateName (cause : DuplicateName)
  /-- A value is wanted of a text that holds no document. -/
  | noValue
  /-- What is wanted was not read. -/
  | unread (cause : Unread)
  deriving DecidableEq, Repr

/-- A name in the quotes of messages. -/
def ticked (name : String) : String := "`" ++ name ++ "`"

/-- A choice between names in messages. -/
def oneOf : List String → String
  | [] => "nothing"
  | [name] => ticked name
  | [first, second] => ticked first ++ " or " ++ ticked second
  | names => "one of " ++ ", ".intercalate (names.map ticked)

/-- The wording of a misfit. -/
def Misfit.message : Misfit → String
  | wrongType found wanted => "invalid type: " ++ found ++ ", expected " ++ wanted
  | wrongValue found wanted => "invalid value: " ++ found ++ ", expected " ++ wanted
  | wrongLength length wanted =>
    "invalid length " ++ toString length ++ ", expected " ++ wanted
  | missingField name => "missing field " ++ ticked name
  | unknownField name known => "unknown field " ++ ticked name ++ ", expected " ++ oneOf known
  | repeatedField name => "duplicate field " ++ ticked name
  | unknownVariant name known =>
    "unknown variant " ++ ticked name ++ ", expected " ++ oneOf known
  | duplicateName cause => cause.message
  | noValue => "EOF while parsing a value"
  | unread .fault => "the text breaks off"
  | unread .depth => "recursion limit exceeded"

/-- What is wrong and where: after the way to the part, and before its place in the text. The root
of a document has the way `.`, which is not told. -/
def Misfit.wording (m : Misfit) (path : String) (mark : Mark) : String :=
  match m with
  | noValue => m.message
  | unread _ => m.message ++ mark.wording
  | _ => (if path = "." then "" else path ++ ": ") ++ m.message ++ mark.wording

/-! ## What was found instead -/

/-- A number in messages. -/
def integerText (n : Int) : String := "integer " ++ ticked (toString n)

/-- A scalar whose type is known, in words. -/
def Scalar.typedText : Scalar → String
  | plain s => "string " ++ quoted s
  | text s => "string " ++ quoted s
  | null => "unit value"
  | bool b => "boolean " ++ ticked (toString b)
  | natural n => integerText n
  | negative n => integerText (-n)
  | huge n => integerText n ++ if 0 ≤ n then " as u128" else " as i128"
  | fraction s => "floating point " ++ ticked (Plain.fractionText s)

/-- A scalar, in words. A plain one is what it looks like. -/
def Scalar.description : Scalar → String
  | plain s => (ofPlain s).typedText
  | s => s.typedText

/-- The document is of another type than the wanted one. -/
def Document.mismatch (wanted : String) : Document → Misfit
  | .scalar s => .wrongType s.description wanted
  | .list _ => .wrongType "sequence" wanted
  | .tuple _ => .wrongType "sequence" wanted
  | .mapping _ => .wrongType "map" wanted
  | .nothing => .noValue
  | .unread cause => .unread cause

/-! ## Where it was found -/

/-- A step from a document to one of its parts. -/
inductive Step
  | item (index : Nat)
  | key (index : Nat)
  | value (index : Nat)
  deriving DecidableEq, Repr

/-- The way from a document to one of its parts. -/
abbrev Trail := List Step

/-- What is wrong with a document, and the way to the part with which it is wrong. Without a way no
part of the document is to blame, but the part of a larger one that the document is. -/
structure DecodeError where
  misfit : Misfit
  trail : Option Trail := none
  deriving DecidableEq, Repr

namespace DecodeError

/-- A misfit of the document itself. -/
def here (m : Misfit) : DecodeError := ⟨m, some []⟩

/-- The error of a document for a larger one of which it is a part. -/
def within (step : Step) (e : DecodeError) : DecodeError :=
  { e with trail := some ((e.trail.map (step :: ·)).getD []) }

end DecodeError

end SchemaPlan
