import SchemaPlan.Plan.Statement

/-!
# Execution

Carrying a plan out on a server. A server takes one statement at a time and may refuse it; what it
remembers is a state of any type.

* `Server.executeAll`: statements in order up to the first one that is refused.
* `Server.executePlan`: the statements of a plan, none of them if any is invalid.
-/

namespace SchemaPlan

/-- A server with states `σ`. Each statement is taken or refused with a message, and leads to a
new state either way. -/
structure Server (σ : Type) where
  execute : σ → String → Except String Unit × σ

/-- A statement that was refused after `executed` others were taken. -/
structure StatementFailure where
  statement : String
  executed : Nat
  cause : String
  deriving DecidableEq, Repr

/-- The position of the refused statement: all before it were taken. -/
def StatementFailure.index (e : StatementFailure) : Nat := e.executed

/-- The wording of a statement that was refused. -/
def StatementFailure.message (e : StatementFailure) : String :=
  "execute statement[" ++ toString e.index ++ "] failed after " ++ toString e.executed ++
    " executed statement(s): " ++ e.cause ++ "; sql: " ++ e.statement

/-- Why a plan was not carried out. -/
inductive ExecutionError
  | invalid (cause : InvalidChange)
  | failed (cause : StatementFailure)
  deriving DecidableEq, Repr

/-- The wording of what ended an execution. -/
def ExecutionError.message : ExecutionError → String
  | invalid cause => cause.message
  | failed cause => cause.message

namespace Server

variable {σ : Type}

/-- Execute statements in order, after `executed` others, and stop at the first refusal. The
answer is how many were taken. -/
def executeFrom (server : Server σ) (executed : Nat) (state : σ) :
    List String → Except StatementFailure Nat × σ
  | [] => (.ok executed, state)
  | statement :: rest =>
    match server.execute state statement with
    | (.ok (), next) => server.executeFrom (executed + 1) next rest
    | (.error cause, next) => (.error ⟨statement, executed, cause⟩, next)

/-- Execute statements in order and stop at the first refusal. -/
def executeAll (server : Server σ) (state : σ) (statements : List String) :
    Except StatementFailure Nat × σ :=
  server.executeFrom 0 state statements

/-- Carry out a plan. All statements are made before the first one is sent. -/
def executePlan (server : Server σ) (state : σ) (plan : Plan) : Except ExecutionError Nat × σ :=
  match plan.statements with
  | .error cause => (.error (.invalid cause), state)
  | .ok statements =>
    let (result, final) := server.executeAll state statements
    (result.mapError .failed, final)

end Server

/-- A server that keeps every statement it takes and refuses those that `refuses` has a message
for. -/
def Server.recording (refuses : String → Option String) : Server (List String) where
  execute log statement :=
    match refuses statement with
    | some message => (.error message, log)
    | none => (.ok (), log ++ [statement])

end SchemaPlan
