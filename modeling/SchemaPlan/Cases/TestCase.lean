import SchemaPlan.Document.TextFormat

/-!
# Test cases

A test case gives two snapshots as texts and what is expected of the plans between them. A file
holds test cases by their names.
-/

namespace SchemaPlan

open Document

/-- Two snapshots and the expected outcome. What is absent is not expected. -/
structure TestCase where
  /-- The live schema. -/
  current : String := ""
  /-- The wanted schema. -/
  desired : String := ""
  /-- The script from the live schema to the wanted one. -/
  up : Option String := none
  /-- The script back. -/
  down : Option String := none
  /-- The report of the plan from the live schema to the wanted one. -/
  plan : Option String := none
  /-- The message with which the case has to fail. -/
  error : Option String := none
  /-- Why the case is left out. -/
  skip : Option String := none
  deriving DecidableEq, Repr

/-- A test case as it is read: every field may be left out. -/
def TestCase.decode : Decoder TestCase :=
  record {
    wanted := "struct TestCase"
    names := ["current", "desired", "up", "down", "plan", "error", "skip"] } fun fs =>
    TestCase.mk <$> fs.withDefault "current" text "" <*> fs.withDefault "desired" text "" <*>
      fs.optional "up" text <*> fs.optional "down" text <*> fs.optional "plan" text <*>
      fs.optional "error" text <*> fs.optional "skip" text

/-- Test cases under their names. -/
abbrev TestCases := Keyed TestCase

/-- The test cases in a text. -/
def TextFormat.testCases (format : TextFormat) (text : String) : Except TextError TestCases :=
  format.decode (mapOf TestCase.decode) text

end SchemaPlan
