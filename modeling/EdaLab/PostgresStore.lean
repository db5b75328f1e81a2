import EdaLab.Store
/-!
# PostgresStore — what the central store does differently

`PostgresStore` repeats the statements of `Store`; this module has the operations that are its own and the two
finalizers, whose `return False` leaves a `connection.transaction()` block normally and so commits what the first
statement did.
-/
namespace EdaLab

namespace PostgresStore

variable (db : Db) (now : Time)

/-- `SELECT … WHERE status='QUEUED' ORDER BY updated_at FOR UPDATE SKIP LOCKED LIMIT 1`. -/
def nextQueued (locked : List String) : Option RunRow :=
  (db.runs.rows.filter (fun r => decide (r.status = .queued) && decide (r.jobId ∉ locked))).argmin (·.updatedAt)

def claimNextRun (locked : List String) : Db × Option JobSpec :=
  match nextQueued db locked with
  | none           => (db, none)
  | some candidate =>
    ((db.updateRuns now candidate.jobId (fun _ => true) { status := some .running }).1, candidate.specPayload)

def countActiveExecutionRequests (hostId : String) : Nat :=
  db.executionRequests.countWhere (fun e => decide (e.hostId = hostId) && e.isActive)

/-- The guard of `release_terminal_execution_requests`. -/
def isUnwitnessedLeftover (e : ExecutionRequestRow) : Bool :=
  e.isActive && (db.executionWitnesses.get e.executionId).isNone &&
  db.attempts.rows.any (fun a => decide (a.key = (e.jobId, e.attemptNo)) && decide (a.status = .abandoned))

theorem unavailable_key (e : ExecutionRequestRow) :
    ExecutionRequestRow.executionId { e with status := .unavailable } = e.executionId := rfl

def releaseTerminalExecutionRequests : Db × Nat :=
  ({ db with
      executionRequests := db.executionRequests.updateWhere (isUnwitnessedLeftover db)
        (fun e => { e with status := .unavailable }) unavailable_key },
   db.executionRequests.countWhere (isUnwitnessedLeftover db))

def finalizeRecovery (jobId : String) (attemptNo : Nat) (token errorType error : String) : Db × Bool :=
  let (db₁, attempt) := (Store.abandonAttempt now jobId attemptNo token errorType error).exec db
  if attempt = false then (db₁, false)
  else
    let (db₂, run) := db₁.updateRuns now jobId Store.runIsRunning { status := some .failed, error := some (some error) }
    if run = false then (db₂, false)
    else (Store.retireRequests db₂ jobId attemptNo, true)

def finalizeAttemptAndRun (c : Completion) : Db × Bool :=
  let (db₁, attempt) := (Store.completeAttempt db now c).exec db
  if attempt = false then (db₁, false)
  else
    let (db₂, run) := db₁.updateRuns now c.jobId Store.runIsRunning c.fields
    (db₂, run)

end PostgresStore

end EdaLab
