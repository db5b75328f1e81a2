import EdaLab.Models
import Mathlib.Data.List.MinMax
import Mathlib.Data.List.Sort
/-!
# Store — the operations of the SQLite `Store`

Each public operation is a function of the database, of the one clock reading `now` it takes, and of its arguments.  A
reply of `true` is `rowcount == 1`.  Most fenced operations are one `UPDATE attempts SET … WHERE job_id AND attempt_no
AND …`; such a statement is an `AttemptUpdate` (its key, its guard, its assignment), and the operation is that statement
executed.  The two finalizers run a second statement on `runs` in the same transaction and roll back when either row
count is not one.
-/
namespace EdaLab

open Relational

/-! ## Guards -/

def AttemptRow.isRunning (a : AttemptRow) : Bool := decide (a.status = .running)

def AttemptRow.holdsLease (a : AttemptRow) (token : String) : Bool := decide (a.leaseToken = some token)

/-- `lease_expires_at >= now`. -/
def AttemptRow.leaseLive (a : AttemptRow) (now : Time) : Bool := a.leaseExpiresAt.any (fun e => decide (now ≤ e))

/-- `lease_expires_at < now`. -/
def AttemptRow.leaseExpired (a : AttemptRow) (now : Time) : Bool := a.leaseExpiresAt.any (fun e => decide (e < now))

/-- `recovery_token IS NULL OR recovery_expires_at < now`. -/
def AttemptRow.recoveryFree (a : AttemptRow) (now : Time) : Bool :=
  a.recoveryToken.isNone || a.recoveryExpiresAt.any (fun e => decide (e < now))

def AttemptRow.holdsRecovery (a : AttemptRow) (token : String) : Bool := decide (a.recoveryToken = some token)

/-- The assignments of a heartbeat. -/
def AttemptRow.renew (now ttl : Time) (a : AttemptRow) : AttemptRow :=
  { a with heartbeatAt := some now, leaseExpiresAt := some (now + ttl), updatedAt := now }

@[simp] theorem AttemptRow.renew_key (now ttl : Time) (a : AttemptRow) : (a.renew now ttl).key = a.key := rfl

/-- The assignments of `record_attempt` on a conflict, of `transition_attempt` and of a completion. -/
def AttemptRow.setOutcome (now : Time) (status : AttemptStatus) (errorType error artifactPath : Option String)
    (retryClass : Option RetryClass) (a : AttemptRow) : AttemptRow :=
  { a with
    status := status, errorType := errorType, error := error,
    artifactPath := artifactPath.orElse (fun _ => a.artifactPath), retryClass := retryClass, updatedAt := now }

@[simp] theorem AttemptRow.setOutcome_key (now : Time) (st : AttemptStatus) (et e ap : Option String)
    (rc : Option RetryClass) (a : AttemptRow) : (a.setOutcome now st et e ap rc).key = a.key := rfl

/-! ## One `UPDATE attempts` -/

structure AttemptUpdate where
  key   : String × Nat
  guard : AttemptRow → Bool
  write : AttemptRow → AttemptRow
  keeps : ∀ a, (write a).key = a.key

def AttemptUpdate.matches (u : AttemptUpdate) (a : AttemptRow) : Bool := decide (a.key = u.key) && u.guard a

/-- The statement executed: the new table and `rowcount == 1`. -/
def AttemptUpdate.exec (u : AttemptUpdate) (db : Db) : Db × Bool :=
  ({ db with attempts := db.attempts.updateWhere u.matches u.write u.keeps },
   decide (db.attempts.countWhere u.matches = 1))

/-- The keyword fields of `update_run` and of `run_fields`: an absent key is none. -/
structure RunFields where
  status           : Option RunStatus := none
  parseStatus      : Option ParseStatus := none
  checkStatus      : Option CheckStatus := none
  completeness     : Option Completeness := none
  semanticStatus   : Option Validity := none
  provenanceStatus : Option Validity := none
  trustStatus      : Option TrustStatus := none
  provenance       : Option Document := none
  artifactPath     : Option (Option String) := none
  error            : Option (Option String) := none
  deriving DecidableEq

/-- The assignments of an `UPDATE runs`, with `updated_at`. -/
def RunFields.write (f : RunFields) (now : Time) (r : RunRow) : RunRow :=
  { r with
    status           := f.status.getD r.status
    parseStatus      := f.parseStatus.getD r.parseStatus
    checkStatus      := f.checkStatus.getD r.checkStatus
    completeness     := f.completeness.getD r.completeness
    semanticStatus   := f.semanticStatus.getD r.semanticStatus
    provenanceStatus := f.provenanceStatus.getD r.provenanceStatus
    trustStatus      := f.trustStatus.getD r.trustStatus
    provenance       := f.provenance.getD r.provenance
    artifactPath     := f.artifactPath.getD r.artifactPath
    error            := f.error.getD r.error
    updatedAt        := now }

@[simp] theorem RunFields.write_jobId (f : RunFields) (now : Time) (r : RunRow) : (f.write now r).jobId = r.jobId := rfl

/-- `UPDATE runs SET fields WHERE job_id = jobId AND guard`: the new table and `rowcount == 1`. -/
def Db.updateRuns (db : Db) (now : Time) (jobId : String) (guard : RunRow → Bool) (fields : RunFields) : Db × Bool :=
  ({ db with
      runs := db.runs.updateWhere (fun r => decide (r.jobId = jobId) && guard r) (fields.write now)
        (fields.write_jobId now) },
   decide (db.runs.countWhere (fun r => decide (r.jobId = jobId) && guard r) = 1))

inductive StoreError
  | inFlightBudgetExhausted | integrityError | unsupported
  deriving DecidableEq

/-- `EXISTS (SELECT 1 FROM host_sessions s JOIN hosts h ON h.current_session_id = s.session_id WHERE s.session_id = …
AND p s)`. -/
def Db.currentSession (db : Db) (sessionId : String) (p : HostSessionRow → Bool) : Bool :=
  db.hostSessions.rows.any (fun s =>
    db.hosts.rows.any (fun h => decide (h.currentSessionId = s.sessionId)) && decide (s.sessionId = sessionId) && p s)

def ExecutionRequestRow.isActive (e : ExecutionRequestRow) : Bool :=
  decide (e.status = .queued ∨ e.status = .claimed ∨ e.status = .running)

def RunRow.inFlight (r : RunRow) : Bool := decide (r.status = .queued ∨ r.status = .running)

/-- The arguments of `finalize_attempt_and_run`. -/
structure Completion where
  jobId          : String
  attemptNo      : Nat
  token          : String
  attemptStatus  : AttemptStatus
  runStatus      : RunStatus
  errorType      : Option String := none
  error          : Option String := none
  artifactPath   : Option String := none
  retryClass     : Option RetryClass := none
  runFields      : RunFields := {}
  executionOwner : Option ExecutionOwner := none
  deriving DecidableEq

/-- The Run columns the completion assigns: `run_fields` without its status, the status, and `error` and
`artifact_path` where `run_fields` has none. -/
def Completion.fields (c : Completion) : RunFields :=
  { c.runFields with
    status       := some c.runStatus
    error        := c.runFields.error.orElse (fun _ => some c.error)
    artifactPath := c.runFields.artifactPath.orElse (fun _ => c.artifactPath.map some) }

namespace Store

variable (db : Db) (now : Time)

/-! ## Runs -/

def newRun (jobId designId ipFamily flowName : String) (specHash : Option String) (specPayload : Option JobSpec) :
    RunRow where
  jobId := jobId
  designId := designId
  ipFamily := ipFamily
  flowName := flowName
  status := .queued
  parseStatus := .notStarted
  checkStatus := .unknown
  completeness := .unknown
  semanticStatus := .unknown
  provenanceStatus := .unknown
  trustStatus := .unknown
  provenance := []
  artifactPath := none
  error := none
  specHash := specHash
  specPayload := specPayload
  updatedAt := now

/-- An insert that ignores a key that is taken, with `rowcount == 1`. -/
def insertRun (r : RunRow) : Db × Bool :=
  match db.runs.insertNew r with
  | some runs => ({ db with runs := runs }, true)
  | none      => (db, false)

/-- The count of Runs admission is bounded by. -/
def inFlight : Nat := db.runs.countWhere RunRow.inFlight

def createRun (jobId designId ipFamily flowName : String) (specHash : Option String) (maxInFlight : Option Nat)
    (specPayload : Option JobSpec) : Db × Except StoreError Bool :=
  let r := newRun now jobId designId ipFamily flowName specHash specPayload
  match maxInFlight with
  | none =>
    let (db', created) := insertRun db r
    (db', .ok created)
  | some budget =>
    if (db.runs.get jobId).isSome then (db, .ok false)
    else if budget ≤ inFlight db then (db, .error .inFlightBudgetExhausted)
    else
      let (db', created) := insertRun db r
      (db', .ok created)

def updateRun (jobId : String) (fields : RunFields) : Db :=
  if fields = {} then db else (db.updateRuns now jobId (fun _ => true) fields).1

def saveMetrics (jobId : String) (payload : Document) : Db :=
  { db with metrics := db.metrics.upsert ⟨jobId, payload⟩ (fun m => { m with payload := payload }) (fun _ => by rfl) }

/-! ## Attempts -/

def newAttempt (jobId : String) (attemptNo : Nat) (status : AttemptStatus) (errorType error artifactPath : Option String)
    (retryClass : Option RetryClass) : AttemptRow where
  jobId := jobId
  attemptNo := attemptNo
  status := status
  errorType := errorType
  error := error
  artifactPath := artifactPath
  retryClass := retryClass
  startedAt := now
  updatedAt := now

/-- The foreign key to `runs` refuses an Attempt of an unknown job. -/
def recordAttempt (jobId : String) (attemptNo : Nat) (status : AttemptStatus) (errorType error artifactPath :
    Option String) (retryClass : Option RetryClass) : Db × Except StoreError Unit :=
  if (db.runs.get jobId).isSome then
    ({ db with
        attempts := db.attempts.upsert
          (newAttempt now jobId attemptNo status errorType error artifactPath retryClass)
          (AttemptRow.setOutcome now status errorType error artifactPath retryClass)
          (AttemptRow.setOutcome_key now status errorType error artifactPath retryClass) }, .ok ())
  else (db, .error .integrityError)

def acquireAttemptLease (jobId : String) (attemptNo : Nat) (owner token : String) (ttl : Time) : AttemptUpdate where
  key := (jobId, attemptNo)
  guard a := a.isRunning && (a.leaseExpiresAt.isNone || a.leaseExpired now)
  write a := { a with
    leaseOwner := some owner, leaseToken := some token, heartbeatAt := some now,
    leaseExpiresAt := some (now + ttl), updatedAt := now }
  keeps _ := rfl

def heartbeatAttempt (jobId : String) (attemptNo : Nat) (token : String) (ttl : Time) : AttemptUpdate where
  key := (jobId, attemptNo)
  guard a := a.isRunning && a.holdsLease token && a.leaseLive now
  write a := a.renew now ttl
  keeps _ := rfl

def recordAttemptProcess (jobId : String) (attemptNo : Nat) (token : String) (pid : Nat) (startedAt : Time)
    (processIdentity : Option String) (processGroupId : Option Nat) (orphanDeadline : Option Time) : AttemptUpdate where
  key := (jobId, attemptNo)
  guard a := a.isRunning && a.holdsLease token
  write a := { a with
    processPid := some pid, processStartedAt := some startedAt, processIdentity := processIdentity,
    processGroupId := processGroupId, orphanDeadline := orphanDeadline, updatedAt := now }
  keeps _ := rfl

def recordAttemptExecution (jobId : String) (attemptNo : Nat) (token : String) (owner : ExecutionOwner)
    (executionId : String) : AttemptUpdate where
  key := (jobId, attemptNo)
  guard a := a.isRunning && a.holdsLease token &&
    db.currentSession owner.sessionId (fun s =>
      decide (s.hostId = owner.hostId) && decide (s.hostEpoch = owner.hostEpoch) && decide (now ≤ s.leaseExpiresAt))
  write a := { a with
    executionHostId := some owner.hostId, executionHostEpoch := some owner.hostEpoch,
    executionHostSession := some owner.sessionId, executionId := some executionId, updatedAt := now }
  keeps _ := rfl

def transitionAttempt (jobId : String) (attemptNo : Nat) (token : String) (status : AttemptStatus)
    (errorType error artifactPath : Option String) (retryClass : Option RetryClass) : AttemptUpdate where
  key := (jobId, attemptNo)
  guard a := a.isRunning && a.holdsLease token && a.leaseLive now && a.recoveryFree now
  write a := a.setOutcome now status errorType error artifactPath retryClass
  keeps _ := rfl

def claimRecovery (jobId : String) (attemptNo : Nat) (owner token : String) (ttl : Time) : AttemptUpdate where
  key := (jobId, attemptNo)
  guard a := a.isRunning && a.leaseExpired now && a.recoveryFree now
  write a := { a with
    recoveryOwner := some owner, recoveryToken := some token, recoveryExpiresAt := some (now + ttl), updatedAt := now }
  keeps _ := rfl

def releaseRecoveryClaim (jobId : String) (attemptNo : Nat) (token : String) : AttemptUpdate where
  key := (jobId, attemptNo)
  guard a := a.isRunning && a.holdsRecovery token
  write a := { a with recoveryOwner := none, recoveryToken := none, recoveryExpiresAt := none, updatedAt := now }
  keeps _ := rfl

/-! ## Finalizers -/

/-- The first statement of `finalize_recovery`. -/
def abandonAttempt (jobId : String) (attemptNo : Nat) (token errorType error : String) : AttemptUpdate where
  key := (jobId, attemptNo)
  guard a := a.isRunning && a.holdsRecovery token
  write a := { a with
    status := .abandoned, errorType := some errorType, error := some error, retryClass := some .recoveryRequired,
    updatedAt := now }
  keeps _ := rfl

/-- The last statement of `finalize_recovery`: the delivery of the Attempt stops counting. -/
def retireRequests (jobId : String) (attemptNo : Nat) : Db :=
  { db with
    executionRequests := db.executionRequests.updateWhere
      (fun e => decide (e.jobId = jobId) && decide (e.attemptNo = attemptNo) && e.isActive)
      (fun e => { e with status := .unavailable }) (fun _ => by rfl) }

def runIsRunning (r : RunRow) : Bool := decide (r.status = .running)

def finalizeRecovery (jobId : String) (attemptNo : Nat) (token errorType error : String) : Db × Bool :=
  let (db₁, attempt) := (abandonAttempt now jobId attemptNo token errorType error).exec db
  if attempt = false then (db, false)
  else
    let (db₂, run) := db₁.updateRuns now jobId runIsRunning { status := some .failed, error := some (some error) }
    if run = false then (db, false)
    else (retireRequests db₂ jobId attemptNo, true)

/-- `owner_clause`. -/
def ownerClause (owner : Option ExecutionOwner) (a : AttemptRow) : Bool :=
  match owner with
  | none   => true
  | some o =>
    decide (a.executionHostId = some o.hostId) && decide (a.executionHostEpoch = some o.hostEpoch) &&
    decide (a.executionHostSession = some o.sessionId) &&
    db.currentSession o.sessionId (fun s => decide (now ≤ s.leaseExpiresAt))

/-- The first statement of `finalize_attempt_and_run`. -/
def completeAttempt (c : Completion) : AttemptUpdate where
  key := (c.jobId, c.attemptNo)
  guard a := a.isRunning && a.holdsLease c.token && a.leaseLive now && a.recoveryFree now &&
    ownerClause db now c.executionOwner a
  write a := a.setOutcome now c.attemptStatus c.errorType c.error c.artifactPath c.retryClass
  keeps _ := rfl

def finalizeAttemptAndRun (c : Completion) : Db × Bool :=
  let (db₁, attempt) := (completeAttempt db now c).exec db
  if attempt = false then (db, false)
  else
    let (db₂, run) := db₁.updateRuns now c.jobId runIsRunning c.fields
    if run = false then (db, false) else (db₂, true)

/-! ## Host sessions -/

def startHostSession (owner : ExecutionOwner) (ttl : Time) : Db × Except StoreError Unit :=
  match db.hostSessions.insertNew ⟨owner.sessionId, owner.hostId, owner.hostEpoch, now, now + ttl⟩ with
  | none          => (db, .error .integrityError)
  | some sessions =>
    ({ db with
      hostSessions := sessions
      hosts := db.hosts.upsert ⟨owner.hostId, owner.hostEpoch, owner.sessionId, now⟩
        (fun h => { h with currentEpoch := owner.hostEpoch, currentSessionId := owner.sessionId, updatedAt := now })
        (fun _ => by rfl) }, .ok ())

/-- The guard of `heartbeat_host_session`. -/
def isCurrentSession (sessionId : String) (s : HostSessionRow) : Bool :=
  decide (s.sessionId = sessionId) && db.hosts.rows.any (fun h => decide (h.currentSessionId = s.sessionId))

def heartbeatHostSession (sessionId : String) (ttl : Time) : Db × Bool :=
  ({ db with
      hostSessions := db.hostSessions.updateWhere (isCurrentSession db sessionId)
        (fun s => { s with heartbeatAt := now, leaseExpiresAt := now + ttl }) (fun _ => by rfl) },
   decide (db.hostSessions.countWhere (isCurrentSession db sessionId) = 1))

/-- The guard of `heartbeat_queued_execution_attempts`. -/
def isQueuedDelivery (sessionId : String) (a : AttemptRow) : Bool :=
  a.isRunning && decide (a.executionHostSession = some sessionId) &&
  db.executionRequests.rows.any (fun e => decide (a.executionId = some e.executionId) && decide (e.status = .queued)) &&
  db.currentSession sessionId (fun s => decide (now ≤ s.leaseExpiresAt))

/-- Refresh only queued deliveries until a Supervisor owns their heartbeat. -/
def heartbeatQueuedExecutionAttempts (sessionId : String) (ttl : Time) : Db × Nat :=
  ({ db with
      attempts := db.attempts.updateWhere (isQueuedDelivery db now sessionId) (AttemptRow.renew now ttl)
        (AttemptRow.renew_key now ttl) },
   db.attempts.countWhere (isQueuedDelivery db now sessionId))

/-! ## Execution requests and witnesses -/

def enqueueExecutionRequest (executionId jobId : String) (attemptNo : Nat) (hostId : String) (payload : RequestPayload) :
    Db × Bool :=
  match db.executionRequests.insertNew
      { executionId := executionId, jobId := jobId, attemptNo := attemptNo, hostId := hostId, status := .queued,
        payload := payload, createdAt := now } with
  | some requests => ({ db with executionRequests := requests }, true)
  | none          => (db, false)

/-- `ORDER BY created_at LIMIT 1`, over the rows no other transaction holds. -/
def nextRequest (hostId : String) (locked : List String) : Option ExecutionRequestRow :=
  (db.executionRequests.rows.filter (fun e => decide (e.hostId = hostId) && decide (e.status = .queued) &&
    decide (e.executionId ∉ locked))).argmin (·.createdAt)

def claimExecutionRequest (hostId supervisorId : String) (locked : List String) : Db × Option ExecutionRequestRow :=
  match nextRequest db hostId locked with
  | none     => (db, none)
  | some row =>
    ({ db with
        executionRequests := db.executionRequests.updateWhere
          (fun e => decide (e.executionId = row.executionId) && decide (e.status = .queued))
          (fun e => { e with status := .claimed, supervisorId := some supervisorId, claimedAt := some now })
          (fun _ => by rfl) }, some row)

/-- The guard of `record_supervisor_process_started`. -/
def isClaimedBy (executionId supervisorId : String) (e : ExecutionRequestRow) : Bool :=
  decide (e.executionId = executionId) && decide (e.status = .claimed) && decide (e.supervisorId = some supervisorId)

def recordSupervisorProcessStarted (executionId supervisorId : String) (pid : Nat) : Db × Bool :=
  ({ db with
      executionRequests := db.executionRequests.updateWhere (isClaimedBy executionId supervisorId)
        (fun e => { e with status := .running, processPid := some pid, processStartedAt := some now }) (fun _ => by rfl) },
   decide (db.executionRequests.countWhere (isClaimedBy executionId supervisorId) = 1))

/-- The witness is inserted only for a request that exists, and only once. -/
def recordTerminationWitness (executionId : String) (kind : WitnessKind) (processExitCode : Option Int)
    (artifactPath : Option String) (detail : String) : Db × Bool :=
  match db.executionRequests.get executionId with
  | none   => (db, false)
  | some _ =>
    match db.executionWitnesses.insertNew ⟨executionId, kind, now, processExitCode, artifactPath, detail⟩ with
    | none           => (db, false)
    | some witnesses =>
      ({ db with
        executionWitnesses := witnesses
        executionRequests := db.executionRequests.updateWhere
          (fun e => decide (e.executionId = executionId) && decide (e.status = .claimed ∨ e.status = .running))
          (fun e => { e with status := .completed }) (fun _ => by rfl) }, true)

/-! ## Reads -/

/-- `SELECT * FROM attempts WHERE job_id = … ORDER BY attempt_no`. -/
def attemptsOf (jobId : String) : List AttemptRow :=
  (db.attempts.rows.filter (fun a => decide (a.jobId = jobId))).insertionSort (fun a b => a.attemptNo ≤ b.attemptNo)

def getRun (jobId : String) : Option RunView :=
  (db.runs.get jobId).map (fun r => ⟨r, (db.metrics.get jobId).map (·.payload), attemptsOf db jobId⟩)

/-- The ids `list_stale_running` selects before it reads each Run. -/
def staleRunning (cutoff : Time) : List String :=
  (db.runs.rows.filter (fun r => decide (r.status = .running) && decide (r.updatedAt ≤ cutoff))).map (·.jobId)

def listExpiredLeasedAttempts : List (String × Nat) :=
  ((db.attempts.rows.filter (fun a => a.isRunning && a.leaseToken.isSome && a.leaseExpired now)).map AttemptRow.key
    ).insertionSort (fun a b => a.1 < b.1 ∨ (a.1 = b.1 ∧ a.2 ≤ b.2))

def getTerminationWitness (executionId : Option String) : Option WitnessRow :=
  match executionId with
  | none   => none
  | some e => if e = "" then none else db.executionWitnesses.get e

end Store

end EdaLab
