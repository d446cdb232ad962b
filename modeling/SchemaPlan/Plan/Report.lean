import SchemaPlan.Plan.Action

/-!
# Reports

The text of a plan for its readers: one numbered line for each action.
-/

namespace SchemaPlan.Plan

/-- The line of the action that comes after `before` others. -/
def reportLine (before : Nat) (action : Action) : String :=
  toString (before + 1) ++ ". [" ++ action.change.type ++ "] " ++ action.reason ++ "\n"

/-- The lines of the actions of a plan. -/
def reportLines (plan : Plan) : List String :=
  plan.zipIdx.map fun entry => reportLine entry.2 entry.1

/-- A plan as it is shown. -/
def report (plan : Plan) : String :=
  "--- Execution Plan ---\n" ++
    if plan.isEmpty then "No changes detected. The schema is up-to-date.\n"
    else String.join plan.reportLines ++ "----------------------\n"

end SchemaPlan.Plan
