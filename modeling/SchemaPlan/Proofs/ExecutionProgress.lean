import SchemaPlan.Plan.Execution

/-!
# Progress of an execution

What is sent to a server when a plan is carried out, and what a failure says about it. The calls
are written down beside the state of the server, with the answers it gave.

* `Server.observed`: a server with a record of its calls; `Server.executePlan_observed`: being
  observed changes nothing.
* `Plan.firstInvalid?`, `Plan.statements_eq`: the first invalid change of a plan.
* `Execution`, `Server.executeFrom_observed`: the two ways in which statements are executed.
* `Server.TakesAll`, `Server.executeAll_of_takesAll`: a server that takes every statement.
* **`Server.executePlan_progress`**: nothing is sent, all is sent, or a prefix, and how to go on.
-/

namespace SchemaPlan

/-- A statement that was sent, and the answer to it. -/
abbrev Call := String × Except String Unit

/-- The statements that were taken. -/
def takenStatements (calls : List Call) : List String := (calls.filter (·.2.isOk)).map (·.1)

/-- The calls of statements that are all taken. -/
def allTaken (statements : List String) : List Call := statements.map (·, .ok ())

@[simp] theorem takenStatements_append (calls more : List Call) :
    takenStatements (calls ++ more) = takenStatements calls ++ takenStatements more := by
  rw [takenStatements, List.filter_append, List.map_append]
  rfl

@[simp] theorem takenStatements_allTaken (statements : List String) :
    takenStatements (allTaken statements) = statements := by
  induction statements with
  | nil => rfl
  | cons statement rest ih => exact congrArg (statement :: ·) ih

theorem takenStatements_refused (statement cause : String) :
    takenStatements [(statement, .error cause)] = [] := rfl

/-! ## Invalid changes -/

/-- The first change of a plan that has no statement. -/
def Plan.firstInvalid? (plan : Plan) : Option InvalidChange :=
  plan.findSome? fun action => action.change.defect?.map fun defect => ⟨action.change, defect⟩

/-- The statements of a plan are one for each action, in order, unless a change is invalid. -/
theorem Plan.statements_eq (plan : Plan) : plan.statements =
    match plan.firstInvalid? with
    | some cause => .error cause
    | none => .ok (plan.map (·.change.text)) := by
  rw [statements]
  induction plan with
  | nil => rfl
  | cons action rest ih =>
    rw [List.mapM_cons, ih, firstInvalid?, firstInvalid?, List.findSome?_cons, Change.statement]
    cases action.change.defect? with
    | some defect => rfl
    | none =>
      simp only [Option.map_none]
      generalize List.findSome? _ rest = first
      cases first <;> rfl

namespace Server

variable {σ : Type}

/-- The server with a record of the calls it gets. -/
def observed (server : Server σ) : Server (σ × List Call) where
  execute s statement :=
    let (answer, next) := server.execute s.1 statement
    (answer, next, s.2 ++ [(statement, answer)])

variable {server : Server σ} {executed : Nat} {state next : σ} {calls : List Call}
  {statement cause : String} {rest : List String}

theorem execute_observed {answer : Except String Unit}
    (h : server.execute state statement = (answer, next)) :
    server.observed.execute (state, calls) statement =
      (answer, next, calls ++ [(statement, answer)]) := by
  simp only [observed, h]

/-! ## Runs of statements -/

theorem executeFrom_of_taken (h : server.execute state statement = (.ok (), next)) :
    server.executeFrom executed state (statement :: rest) =
      server.executeFrom (executed + 1) next rest := by
  rw [executeFrom, h]

theorem executeFrom_of_refused (h : server.execute state statement = (.error cause, next)) :
    server.executeFrom executed state (statement :: rest) =
      (.error ⟨statement, executed, cause⟩, next) := by
  rw [executeFrom, h]

/-- How the statements of a run were executed: what came out after `executed` others, and the
calls. -/
inductive Execution (executed : Nat) (statements : List String) :
    Except StatementFailure Nat → List Call → Prop
  /-- Each statement was sent once, in order, and taken. -/
  | complete : Execution executed statements (.ok (executed + statements.length))
      (allTaken statements)
  /-- All statements before some place were taken, the one there was refused, and no other was
  sent. -/
  | failed {done rest : List String} {statement cause : String}
      (split : statements = done ++ statement :: rest) :
      Execution executed statements (.error ⟨statement, executed + done.length, cause⟩)
        (allTaken done ++ [(statement, .error cause)])

theorem Execution.cons {result : Except StatementFailure Nat}
    (h : Execution (executed + 1) rest result calls) :
    Execution executed (statement :: rest) result ((statement, .ok ()) :: calls) := by
  cases h with
  | complete =>
    have hlength : executed + 1 + rest.length = executed + (statement :: rest).length := by
      rw [List.length_cons]
      omega
    rw [hlength]
    exact .complete
  | @failed done after refused cause hsplit =>
    have hlength : executed + 1 + done.length = executed + (statement :: done).length := by
      rw [List.length_cons]
      omega
    rw [hlength]
    exact .failed (congrArg (statement :: ·) hsplit)

/-- **A run of statements**, observed: it does what the run of the server does, and it is complete
or ends with the first refusal. -/
theorem executeFrom_observed (server : Server σ) (executed : Nat) (state : σ) (calls : List Call)
    (statements : List String) :
    ∃ result final sent, server.executeFrom executed state statements = (result, final) ∧
      server.observed.executeFrom executed (state, calls) statements =
        (result, final, calls ++ sent) ∧
      Execution executed statements result sent := by
  induction statements generalizing executed state calls with
  | nil =>
    refine ⟨.ok executed, state, [], rfl, ?_, .complete⟩
    rw [List.append_nil]
    rfl
  | cons statement rest ih =>
    rcases hanswer : server.execute state statement with ⟨cause | ⟨⟩, next⟩
    · exact ⟨_, _, _, executeFrom_of_refused hanswer,
        executeFrom_of_refused (execute_observed hanswer), .failed (List.nil_append _).symm⟩
    · obtain ⟨result, final, sent, hrun, hobserved, hexecution⟩ :=
        ih (executed + 1) next (calls ++ [(statement, .ok ())])
      refine ⟨result, final, (statement, .ok ()) :: sent, ?_, ?_, hexecution.cons⟩
      · rw [executeFrom_of_taken hanswer, hrun]
      · rw [executeFrom_of_taken (execute_observed hanswer), hobserved, List.append_assoc]
        rfl

/-! ## Going on after a failure -/

/-- A server that takes every statement in every state. -/
def TakesAll (server : Server σ) : Prop :=
  ∀ state statement, (server.execute state statement).1 = .ok ()

theorem executeFrom_of_takesAll (h : server.TakesAll) (executed : Nat) (state : σ)
    (calls : List Call) (statements : List String) :
    ∃ final, server.observed.executeFrom executed (state, calls) statements =
      (.ok (executed + statements.length), final, calls ++ allTaken statements) := by
  induction statements generalizing executed state calls with
  | nil =>
    refine ⟨state, ?_⟩
    rw [allTaken, List.map_nil, List.append_nil]
    rfl
  | cons statement rest ih =>
    obtain ⟨next, hnext⟩ : ∃ next, server.execute state statement = (.ok (), next) :=
      ⟨_, Prod.ext (h state statement) rfl⟩
    obtain ⟨final, hrest⟩ := ih (executed + 1) next (calls ++ [(statement, .ok ())])
    have hlength : executed + 1 + rest.length = executed + (statement :: rest).length := by
      rw [List.length_cons]
      omega
    refine ⟨final, ?_⟩
    rw [executeFrom_of_taken (execute_observed hnext), hrest, hlength, List.append_assoc]
    rfl

theorem executeAll_of_takesAll (h : server.TakesAll) (state : σ) (calls : List Call)
    (statements : List String) :
    ∃ final, server.observed.executeAll (state, calls) statements =
      (.ok statements.length, final, calls ++ allTaken statements) := by
  obtain ⟨final, hrun⟩ := executeFrom_of_takesAll h 0 state calls statements
  rw [Nat.zero_add] at hrun
  exact ⟨final, hrun⟩

/-- After the given calls, sending what is left to a server that takes every statement leaves the
same log of taken statements as sending all of them to it at once. -/
def Resumes (calls : List Call) (left all : List String) : Prop :=
  ∀ (τ : Type) (healed : Server τ) (t u : τ), healed.TakesAll →
    ∃ t' u' resumed uninterrupted,
      healed.observed.executeAll (t, calls) left = (.ok left.length, t', resumed) ∧
      healed.observed.executeAll (u, []) all = (.ok all.length, u', uninterrupted) ∧
      takenStatements resumed = takenStatements uninterrupted

theorem resumes_of_failed (done rest : List String) (statement cause : String) :
    Resumes (allTaken done ++ [(statement, .error cause)]) (statement :: rest)
      (done ++ statement :: rest) := by
  intro τ healed t u h
  obtain ⟨t', hresumed⟩ := executeAll_of_takesAll h t
    (allTaken done ++ [(statement, .error cause)]) (statement :: rest)
  obtain ⟨u', huninterrupted⟩ := executeAll_of_takesAll h u [] (done ++ statement :: rest)
  refine ⟨t', u', _, _, hresumed, huninterrupted, ?_⟩
  rw [takenStatements_append, takenStatements_append, takenStatements_refused, List.append_nil,
    takenStatements_allTaken, takenStatements_allTaken, List.nil_append, takenStatements_allTaken]

/-! ## Plans -/

/-- **A plan is carried out up to the first failure, and a failure says how far.** If a change is
invalid, the first such change is reported and nothing is sent. Otherwise there is one statement
for each action, in order, and either all of them were sent once each and taken, or those before
some place were taken, the one there was refused, and no other was sent. The failure then names
that statement, how many were taken, and the answer of the server, and the statements from there on
may be sent again. -/
theorem executePlan_progress (server : Server σ) (state : σ) (plan : Plan) :
    ∃ result final calls,
      server.executePlan state plan = (result, final) ∧
      server.observed.executePlan (state, []) plan = (result, final, calls) ∧
      match plan.firstInvalid? with
      | some cause => result = .error (.invalid cause) ∧ final = state ∧ calls = []
      | none =>
        ∃ statements, plan.statements = .ok statements ∧
          statements = plan.map (·.change.text) ∧
          (result = .ok statements.length ∧ calls = allTaken statements ∨
          ∃ done statement rest cause, statements = done ++ statement :: rest ∧
            calls = allTaken done ++ [(statement, .error cause)] ∧
            (∃ failure : StatementFailure, result = .error (.failed failure) ∧
              failure.index = done.length ∧ failure.executed = done.length ∧
              failure.statement = statement ∧ failure.cause = cause) ∧
            Resumes calls (statement :: rest) statements) := by
  have hstatements := plan.statements_eq
  simp only [executePlan, hstatements]
  cases plan.firstInvalid? with
  | some cause => exact ⟨_, _, _, rfl, rfl, rfl, rfl, rfl⟩
  | none =>
    obtain ⟨result, final, sent, hrun, hobserved, hexecution⟩ :=
      server.executeFrom_observed 0 state [] (plan.map (·.change.text))
    rw [List.nil_append] at hobserved
    simp only [executeAll, hrun, hobserved]
    refine ⟨_, _, _, rfl, rfl, _, rfl, rfl, ?_⟩
    cases hexecution with
    | complete =>
      rw [Nat.zero_add]
      exact .inl ⟨rfl, rfl⟩
    | @failed done rest statement cause hsplit =>
      rw [Nat.zero_add, hsplit]
      exact .inr ⟨done, statement, rest, cause, rfl, rfl, ⟨_, rfl, rfl, rfl, rfl, rfl⟩,
        resumes_of_failed done rest statement cause⟩

end Server

end SchemaPlan
