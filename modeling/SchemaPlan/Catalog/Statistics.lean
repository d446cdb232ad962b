import SchemaPlan.Keyed

/-!
# Statistics of an introspection

A tally, by engine name, of what an introspection took into its snapshot and what it left out.
Every row counts as skipped when it is seen; taking it moves one count over.
-/

namespace SchemaPlan

/-- A table whose engine is supported but cannot be read. -/
structure UnreadableTable where
  database : String
  name : String
  engine : String
  reason : String
  deriving DecidableEq, Repr

/-- The tally of an introspection. -/
structure Statistics where
  dumpedCounts : Keyed Nat := .empty
  skippedCounts : Keyed Nat := .empty
  failures : List UnreadableTable := []
  deriving DecidableEq

namespace Statistics

/-- Nothing counted yet. -/
def empty : Statistics := {}

instance : Inhabited Statistics := ⟨empty⟩

/-- One more row of an engine was seen. -/
def recordSeen (s : Statistics) (engine : String) : Statistics :=
  { s with skippedCounts := s.skippedCounts.alter engine (·.getD 0 + 1) }

/-- One row of an engine was taken. -/
def recordDumped (s : Statistics) (engine : String) : Statistics :=
  { s with
    dumpedCounts := s.dumpedCounts.alter engine (·.getD 0 + 1)
    skippedCounts :=
      match s.skippedCounts.get? engine with
      | none => s.skippedCounts
      | some count => s.skippedCounts.insert engine (count - 1) }

/-- One row could not be read. -/
def recordFailure (s : Statistics) (failure : UnreadableTable) : Statistics :=
  { s with failures := s.failures ++ [failure] }

/-- How many rows of an engine were taken. -/
def dumped (s : Statistics) (engine : String) : Nat := (s.dumpedCounts.get? engine).getD 0

/-- How many rows of an engine were left out. -/
def skipped (s : Statistics) (engine : String) : Nat := (s.skippedCounts.get? engine).getD 0

/-- The sum over all engines. -/
def total (counts : Keyed Nat) : Nat := counts.values.foldr (· + ·) 0

/-- How many rows were taken. -/
def totalDumped (s : Statistics) : Nat := total s.dumpedCounts

/-- How many rows were left out. -/
def totalSkipped (s : Statistics) : Nat := total s.skippedCounts

/-- The engines that were counted at all, by name. -/
def nonZero (counts : Keyed Nat) : List (String × Nat) := counts.pairs.filter (0 < ·.2)

/-- The engines of which rows were taken, by name, with their numbers. -/
def dumpedEngines (s : Statistics) : List (String × Nat) := nonZero s.dumpedCounts

/-- The engines of which rows were left out, by name, with their numbers. -/
def skippedEngines (s : Statistics) : List (String × Nat) := nonZero s.skippedCounts

/-- One line for each engine. -/
def countLines (counts : List (String × Nat)) : String :=
  String.join (counts.map fun p => "  " ++ p.1 ++ ": " ++ toString p.2 ++ "\n")

/-- The line about a table that cannot be read. -/
def failureLine (f : UnreadableTable) : String :=
  "  " ++ f.database ++ "." ++ f.name ++ " (" ++ f.engine ++ "): " ++ f.reason ++ "\n"

/-- The statistics as they are shown after an introspection. -/
def text (s : Statistics) : String :=
  "Dumped: " ++ toString s.totalDumped ++ "\n" ++ countLines s.dumpedEngines ++
    "Skipped: " ++ toString s.totalSkipped ++ "\n" ++ countLines s.skippedEngines ++
    if s.failures.isEmpty then ""
    else "Failed:\n" ++ String.join (s.failures.map failureLine)

end Statistics

end SchemaPlan
