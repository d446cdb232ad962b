import Mathlib.Tactic.SplitIfs
import SchemaPlan.Cases.Verdict
import SchemaPlan.Yaml.Format

/-!
# What verdicts mean

The checks of a test case, each by itself, and the verdict as what the first failed one makes of it.

* `CaseCheck`, `CaseCheck.order`: what is checked, in which order; `TestCase.failure?`: the failure
  of one check, whatever comes of the others.
* `TestCase.outcome_eq`: the outcome of a case is the first failure.
* `TestCase.swapped`: a case the other way round; `TestCase.failure?_swapped`: its failures.
* **`TestCase.verdict_exact`**: when a case passes, and that it passes both ways round.
-/

namespace SchemaPlan

/-! ## Checks -/

/-- The side a snapshot is compared with. -/
def CaseSide.other : CaseSide → CaseSide
  | current => desired
  | desired => current

/-- The way back. -/
def Direction.other : Direction → Direction
  | up => down
  | down => up

/-- What is checked of a case. -/
inductive CaseCheck
  /-- Scripts are expected in both directions, or in neither. -/
  | pairing
  /-- A text describes a snapshot. -/
  | snapshot (side : CaseSide)
  /-- The plan to the wanted schema is reported as expected. -/
  | plan
  /-- The changes of a plan have statements. -/
  | statements (direction : Direction)
  /-- The statements of a plan are the expected ones. -/
  | script (direction : Direction)
  deriving DecidableEq, Repr

namespace CaseCheck

/-- The order of the checks. -/
def order : List CaseCheck :=
  [pairing, snapshot .current, snapshot .desired, plan, statements .up, script .up,
    statements .down, script .down]

theorem mem_order (check : CaseCheck) : check ∈ order := by
  cases check with
  | pairing | plan => decide
  | snapshot side => cases side <;> decide
  | statements direction | script direction => cases direction <;> decide

/-- The check that does for a case the other way round what this one does for the case. -/
def other : CaseCheck → CaseCheck
  | pairing => pairing
  | snapshot side => snapshot side.other
  | plan => plan
  | statements direction => statements direction.other
  | script direction => script direction.other

end CaseCheck

/-! ## Failures of plans -/

namespace Plan

variable {plan : Plan} {expected : Option String} {direction : Direction}

/-- A report is expected, and it is another one. -/
def reportFailure? (expected : Option String) (plan : Plan) : Option CaseFailure :=
  expected.bind fun text =>
    if trimText text = trimText plan.report then none else some (.plan text plan.report)

/-- A change has no statement. -/
def statementsFailure? (plan : Plan) : Option CaseFailure :=
  match plan.statements with
  | .error cause => some (.invalid cause)
  | .ok _ => none

/-- A script is expected, and the statements are other ones. -/
def scriptFailure? (direction : Direction) (expected : Option String) (plan : Plan) :
    Option CaseFailure :=
  match plan.statements, expected with
  | .ok statements, some text =>
    if trimText text = trimText (SchemaPlan.script statements) then none
    else some (.script direction text (SchemaPlan.script statements))
  | _, _ => none

end Plan

/-! ## Failures of cases -/

/-- Fail with a failure, if there is one. -/
def CaseFailure.raise : Option CaseFailure → Except CaseFailure Unit
  | none => .ok ()
  | some cause => .error cause

theorem CaseFailure.raise_or (first rest : Option CaseFailure) :
    raise (first.or rest) = raise first >>= fun _ => raise rest := by
  cases first <;> rfl

theorem CaseFailure.raise_findSome?_cons (failure? : CaseCheck → Option CaseFailure)
    (check : CaseCheck) (checks : List CaseCheck) :
    raise ((check :: checks).findSome? failure?) =
      raise (failure? check) >>= fun _ => raise (checks.findSome? failure?) := by
  rw [← raise_or, List.findSome?_cons]
  cases failure? check <;> rfl

theorem CaseFailure.bind_raise_none (run : Except CaseFailure Unit) :
    (run >>= fun _ => raise none) = run := by
  cases run <;> rfl

namespace TestCase

variable {format : TextFormat} {t : TestCase}

/-- The text of the snapshot on a side. -/
def sideText (t : TestCase) : CaseSide → String
  | .current => t.current
  | .desired => t.desired

/-- The script that a test case expects in a direction, if it expects one. -/
def expectedScript (t : TestCase) : Direction → Option String
  | .up => t.up
  | .down => t.down

/-- The snapshot of a side. A text of nothing but blanks describes one without entities. -/
def snapshotOf (format : TextFormat) (t : TestCase) (side : CaseSide) :
    Except TextError Snapshot :=
  if isBlankText (t.sideText side) then .ok .empty
  else format.decode Snapshot.decode (t.sideText side)

/-- The plan in a direction, if both texts describe snapshots. -/
def planIn? (format : TextFormat) (t : TestCase) (direction : Direction) : Option Plan :=
  match t.snapshotOf format .current, t.snapshotOf format .desired with
  | .ok current, .ok desired =>
    match direction with
    | .up => some (Plan.diff desired current)
    | .down => some (Plan.diff current desired)
  | _, _ => none

/-- The failure of a check, if it fails. A plan is checked only if there is one. -/
def failure? (format : TextFormat) (t : TestCase) : CaseCheck → Option CaseFailure
  | .pairing => if t.up.isSome = t.down.isSome then none else some .unpaired
  | .snapshot side =>
    match t.snapshotOf format side with
    | .error cause => some (.snapshot side cause)
    | .ok _ => none
  | .plan => (t.planIn? format .up).bind (Plan.reportFailure? t.plan)
  | .statements direction => (t.planIn? format direction).bind Plan.statementsFailure?
  | .script direction =>
    (t.planIn? format direction).bind (Plan.scriptFailure? direction (t.expectedScript direction))

theorem require_meets_report (expected : Option String) (plan : Plan) :
    CaseFailure.require (meets expected plan.report) (.plan (expected.getD "") plan.report) =
      CaseFailure.raise (Plan.reportFailure? expected plan) := by
  cases expected with
  | none => rfl
  | some text =>
    simp only [CaseFailure.require, meets, Plan.reportFailure?, Option.all_some, beq_iff_eq,
      Option.getD_some, Option.bind_some]
    split_ifs <;> rfl

theorem checkScript_eq (direction : Direction) (expected : Option String) (plan : Plan) :
    plan.checkScript direction expected = CaseFailure.raise
      (plan.statementsFailure?.or (plan.scriptFailure? direction expected)) := by
  unfold Plan.checkScript Plan.statementsFailure? Plan.scriptFailure?
  cases plan.statements with
  | error cause => rfl
  | ok statements =>
    change CaseFailure.require _ _ = _
    cases expected with
    | none => rfl
    | some text =>
      simp only [CaseFailure.require, meets, Option.all_some, beq_iff_eq, Option.getD_some,
        Option.none_or]
      split_ifs <;> rfl

theorem require_paired (format : TextFormat) (t : TestCase) :
    CaseFailure.require (t.up.isSome == t.down.isSome) .unpaired =
      CaseFailure.raise (t.failure? format .pairing) := by
  simp only [CaseFailure.require, failure?, beq_iff_eq]
  split_ifs <;> rfl

theorem planIn?_of_snapshots {current desired : Snapshot}
    (hcurrent : t.snapshotOf format .current = .ok current)
    (hdesired : t.snapshotOf format .desired = .ok desired) :
    t.planIn? format .up = some (Plan.diff desired current) ∧
      t.planIn? format .down = some (Plan.diff current desired) := by
  simp only [planIn?, hcurrent, hdesired, and_self]

/-- The first failure of the checks in their order. -/
def firstFailure? (format : TextFormat) (t : TestCase) : Option CaseFailure :=
  CaseCheck.order.findSome? (t.failure? format)

/-- **The outcome of a case is the first failure of its checks.** -/
theorem outcome_eq (format : TextFormat) (t : TestCase) :
    t.outcome format = CaseFailure.raise (t.firstFailure? format) := by
  simp only [firstFailure?, CaseCheck.order, CaseFailure.raise_findSome?_cons, List.findSome?_nil,
    CaseFailure.bind_raise_none]
  rw [outcome, require_paired format]
  refine bind_congr fun _ => ?_
  change ((t.snapshotOf format .current).mapError _ >>= fun current =>
    (t.snapshotOf format .desired).mapError _ >>= fun desired => _) = _
  cases hcurrent : t.snapshotOf format .current with
  | error cause =>
    simp only [failure?, hcurrent]
    rfl
  | ok current =>
    cases hdesired : t.snapshotOf format .desired with
    | error cause =>
      simp only [failure?, hcurrent, hdesired]
      rfl
    | ok desired =>
      obtain ⟨hup, hdown⟩ := planIn?_of_snapshots hcurrent hdesired
      simp only [failure?, hcurrent, hdesired, hup, hdown, Option.bind_some, expectedScript]
      change (CaseFailure.require _ _ >>= fun _ => Plan.checkScript .up t.up _ >>= fun _ =>
        Plan.checkScript .down t.down _) = _
      simp only [require_meets_report, checkScript_eq, CaseFailure.raise_or, bind_assoc]
      rfl

theorem firstFailure?_eq_none_iff :
    t.firstFailure? format = none ↔ ∀ check, t.failure? format check = none := by
  rw [firstFailure?, List.findSome?_eq_none_iff]
  exact forall_congr' fun check => imp_iff_right check.mem_order

theorem firstFailure?_eq_some_iff {cause : CaseFailure} :
    t.firstFailure? format = some cause ↔ ∃ before check after,
      CaseCheck.order = before ++ check :: after ∧ t.failure? format check = some cause ∧
        ∀ other ∈ before, t.failure? format other = none :=
  List.findSome?_eq_some_iff

/-! ## Verdicts -/

/-- A case passes without an expected error if nothing fails, and with one if its first failure has
that message. -/
theorem verdict_eq_passed_iff (hskip : t.skip = none) : t.verdict format = .passed ↔
    match t.error with
    | none => t.firstFailure? format = none
    | some expected => ∃ cause, t.firstFailure? format = some cause ∧
        trimText cause.message = trimText expected := by
  rw [verdict, hskip, outcome_eq]
  cases t.error with
  | none => cases t.firstFailure? format <;> simp [CaseFailure.raise]
  | some expected =>
    cases t.firstFailure? format with
    | none => simp [CaseFailure.raise]
    | some cause =>
      simp only [CaseFailure.raise, Option.some.injEq, exists_eq_left']
      split_ifs with hmessage <;> simp [hmessage]

/-! ### The other way round -/

/-- The case with its two sides exchanged, and its two scripts with them. -/
def swapped (t : TestCase) : TestCase :=
  { t with current := t.desired, desired := t.current, up := t.down, down := t.up }

theorem snapshotOf_swapped (side : CaseSide) :
    t.swapped.snapshotOf format side = t.snapshotOf format side.other := by
  cases side <;> rfl

theorem expectedScript_swapped (direction : Direction) :
    t.swapped.expectedScript direction = t.expectedScript direction.other := by
  cases direction <;> rfl

/-- Both plans are the same, each in the other direction. -/
theorem planIn?_swapped (direction : Direction) :
    t.swapped.planIn? format direction = t.planIn? format direction.other := by
  unfold planIn?
  rw [snapshotOf_swapped, snapshotOf_swapped, CaseSide.other, CaseSide.other]
  cases t.snapshotOf format .current <;> cases t.snapshotOf format .desired <;>
    cases direction <;> rfl

theorem scriptFailure?_eq_none_iff {direction : Direction} {expected : Option String}
    {plan : Plan} : plan.scriptFailure? direction expected = none ↔
      ∀ statements text, plan.statements = .ok statements → expected = some text →
        trimText text = trimText (script statements) := by
  unfold Plan.scriptFailure?
  cases plan.statements <;> cases expected <;> simp

theorem failure?_swapped (hplan : t.plan = none) (check : CaseCheck) :
    t.swapped.failure? format check = none ↔ t.failure? format check.other = none := by
  cases check with
  | pairing => simp [failure?, swapped, CaseCheck.other, eq_comm]
  | snapshot side =>
    simp only [failure?, snapshotOf_swapped, CaseCheck.other]
    cases t.snapshotOf format side.other <;> simp
  | plan =>
    -- no report is expected either way
    have hnone (c : TestCase) (h : c.plan = none) : c.failure? format .plan = none := by
      simp only [failure?, h]
      cases c.planIn? format .up <;> rfl
    exact iff_of_true (hnone t.swapped hplan) (hnone t hplan)
  | statements direction => rw [failure?, planIn?_swapped, CaseCheck.other, failure?]
  | script direction =>
    simp only [failure?, planIn?_swapped, expectedScript_swapped, CaseCheck.other,
      Option.bind_eq_none_iff, scriptFailure?_eq_none_iff]

/-- **The verdict on a case is exact.** Without an expected error it passes exactly if no check
fails. With one it passes exactly if some check fails and the first failure has that message, up to
blanks at the ends. If neither a report nor an error is expected, it passes the other way round as
well. -/
theorem verdict_exact (format : TextFormat) (hskip : t.skip = none) :
    (t.error = none →
      (t.verdict format = .passed ↔ ∀ check, t.failure? format check = none)) ∧
    (∀ expected, t.error = some expected →
      (t.verdict format = .passed ↔ ∃ before check after cause,
        CaseCheck.order = before ++ check :: after ∧
        (∀ other ∈ before, t.failure? format other = none) ∧
        t.failure? format check = some cause ∧ trimText cause.message = trimText expected)) ∧
    (t.plan = none → t.error = none → t.verdict format = .passed →
      t.swapped.verdict format = .passed) := by
  refine ⟨fun herror => ?_, fun expected herror => ?_, fun hplan herror hpassed => ?_⟩
  · rw [verdict_eq_passed_iff hskip, herror]
    exact firstFailure?_eq_none_iff
  · rw [verdict_eq_passed_iff hskip, herror]
    simp only [firstFailure?_eq_some_iff]
    constructor
    · rintro ⟨cause, ⟨before, check, after, horder, hcause, hbefore⟩, hmessage⟩
      exact ⟨before, check, after, cause, horder, hbefore, hcause, hmessage⟩
    · rintro ⟨before, check, after, cause, horder, hbefore, hcause, hmessage⟩
      exact ⟨cause, ⟨before, check, after, horder, hcause, hbefore⟩, hmessage⟩
  · have herror' : t.swapped.error = none := herror
    rw [verdict_eq_passed_iff hskip, herror] at hpassed
    rw [verdict_eq_passed_iff (show t.swapped.skip = none from hskip), herror']
    refine firstFailure?_eq_none_iff.mpr fun check => ?_
    exact (failure?_swapped hplan check).mpr (firstFailure?_eq_none_iff.mp hpassed check.other)

/-- A table is created, or dropped the other way round; and a table without columns is what a case
expects to fail. -/
theorem verdict_exact_events :
    let events : TestCase :=
      { desired := "tables:\n- name: events\n  engine:\n    kind: Log\n  columns:\n" ++
          "  - name: id\n    type: Int8\n"
        up := some "CREATE TABLE default.events (\n  \x60id\x60 Int8\n) ENGINE = Log();"
        down := some "DROP TABLE events;\n" }
    let empty : TestCase :=
      { desired := "tables:\n- name: empty\n  engine:\n    kind: Log\n"
        error := some " invalid payload for CREATE_TABLE on \x60empty\x60: table has no columns\n" }
    (events.skip = none ∧ events.verdict Yaml.format = .passed ∧
      events.swapped.verdict Yaml.format = .passed) ∧
    empty.skip = none ∧ empty.verdict Yaml.format = .passed := by
  intro events empty
  have hpassed : events.verdict Yaml.format = .passed := by decide +kernel
  refine ⟨⟨rfl, hpassed, (verdict_exact Yaml.format rfl).2.2 rfl rfl hpassed⟩, rfl, ?_⟩
  refine ((verdict_exact Yaml.format rfl).2.1 _ rfl).mpr
    ⟨[.pairing, .snapshot .current, .snapshot .desired, .plan], .statements .up, _,
      .invalid ⟨.createTable { name := "empty", engine := .log }, .noColumns⟩, rfl, ?_, ?_, ?_⟩
  all_goals decide +kernel

end TestCase

end SchemaPlan
