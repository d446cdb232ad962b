import SchemaPlan.Cases.TestCase
import SchemaPlan.Plan.Diff
import SchemaPlan.Plan.Report
import SchemaPlan.Plan.Statement

/-!
# Verdicts on test cases

Running a test case without a server: the plans in both directions are made and compared with what
is expected.

* `CaseFailure`: the ways in which a case fails, with their wording.
* `TestCase.outcome`: the first of them that applies.
* `TestCase.verdict`: the outcome against the expected error.

Texts are compared without the blanks at their ends.
-/

namespace SchemaPlan

/-- The two snapshots of a test case. -/
inductive CaseSide
  | current
  | desired
  deriving DecidableEq, Repr

/-- The name of a side in messages. -/
def CaseSide.text : CaseSide → String
  | current => "current"
  | desired => "desired"

/-- The direction of a plan: to the wanted schema, or back. -/
inductive Direction
  | up
  | down
  deriving DecidableEq, Repr

/-- The name of a direction in messages. -/
def Direction.text : Direction → String
  | up => "up"
  | down => "down"

/-- Why a test case fails: the first of its checks that does. -/
inductive CaseFailure
  /-- A script is expected in one direction only. -/
  | unpaired
  | snapshot (side : CaseSide) (cause : TextError)
  | plan (expected actual : String)
  | invalid (cause : InvalidChange)
  | script (direction : Direction) (expected actual : String)
  /-- An error was expected and none came. -/
  | noError (expected : String)
  /-- Another error than the expected one came. -/
  | otherError (expected actual : String)
  deriving DecidableEq, Repr

/-- The wording of a failed check. -/
def CaseFailure.message : CaseFailure → String
  | unpaired => "\x60up\x60 and \x60down\x60 must either both be set or both be omitted"
  | snapshot side cause => "invalid " ++ side.text ++ " snapshot: " ++ cause.message
  | plan expected actual =>
    "plan mismatch; expected:\n" ++ expected ++ "\nactual:\n" ++ trimText actual
  | invalid cause => cause.message
  | script direction expected actual =>
    direction.text ++ " SQL mismatch; expected:\n" ++ expected ++ "\nactual:\n" ++ trimText actual
  | noError expected => "expected error: " ++ expected ++ ", but got no error"
  | otherError expected actual => "expected error: " ++ expected ++ ", but got: " ++ actual

/-- What becomes of a test case. -/
inductive Verdict
  | passed
  | skipped (reason : String)
  | failed (cause : CaseFailure)
  deriving DecidableEq, Repr

/-- An expectation is met: there is none, or it is the actual text up to blanks at the ends. -/
def meets (expected : Option String) (actual : String) : Bool :=
  expected.all fun expected => trimText expected == trimText actual

/-- Fail with `cause` unless `ok` holds. -/
def CaseFailure.require (ok : Bool) (cause : CaseFailure) : Except CaseFailure Unit :=
  if ok then .ok () else .error cause

/-- Fail unless the statements of a plan meet the expectation of its script. They are made even if
there is none. -/
def Plan.checkScript (direction : Direction) (expected : Option String) (plan : Plan) :
    Except CaseFailure Unit := do
  let statements ← plan.statements.mapError .invalid
  CaseFailure.require (meets expected (SchemaPlan.script statements))
    (.script direction (expected.getD "") (SchemaPlan.script statements))

namespace TestCase

/-- The first failure of a case, apart from what is said about errors. -/
def outcome (format : TextFormat) (t : TestCase) : Except CaseFailure Unit := do
  CaseFailure.require (t.up.isSome == t.down.isSome) .unpaired
  let current ← (format.snapshot t.current).mapError (.snapshot .current)
  let desired ← (format.snapshot t.desired).mapError (.snapshot .desired)
  let forward := Plan.diff desired current
  CaseFailure.require (meets t.plan forward.report) (.plan (t.plan.getD "") forward.report)
  forward.checkScript .up t.up
  (Plan.diff current desired).checkScript .down t.down

/-- The verdict on a case. A case with an expected error passes when it fails with that error. -/
def verdict (format : TextFormat) (t : TestCase) : Verdict :=
  match t.skip, t.error, t.outcome format with
  | some reason, _, _ => .skipped reason
  | none, none, .ok () => .passed
  | none, none, .error cause => .failed cause
  | none, some expected, .ok () => .failed (.noError expected)
  | none, some expected, .error cause =>
    if trimText cause.message = trimText expected then .passed
    else .failed (.otherError expected cause.message)

end TestCase

end SchemaPlan
