import EdaLab.StoreOp
import EdaLab.Transaction
/-!
# SqliteStore — the mutators of `Store`, statement by statement

`Store` has what a call leaves when every statement is accepted.  Here a call is the program of its statements over the one
connection the calls share, with the transaction control of `sqlite3`: a statement that writes opens a transaction, and a
method with no handler leaves it open when the statement is refused.  A statement can be refused by the rows, and for what
the rows do not show (a NULL in a `NOT NULL` column, a value that cannot be bound, a lock of another process): `refused k`
says this of the call's `k`-th writing statement or row.
-/
namespace EdaLab

open Relational Transaction

structure MetricRow where
  jobId      : String
  metricName : String
  stage      : String
  corner     : String
  value      : ℚ
  unit       : String
  deriving DecidableEq

structure RevisionRow where
  revisionId     : String
  designId       : String
  sourceRevision : String
  libertyHash    : String
  sdcHash        : String
  toolVersion    : String
  parserVersion  : String
  deriving DecidableEq

structure Finding where
  runId        : String
  startpoint   : String
  endpoint     : String
  pathGroup    : String
  analysisType : String
  corner       : String
  slackNs      : ℚ
  deriving DecidableEq

structure FindingRow extends Finding where
  revisionId : String
  deriving DecidableEq

/-- The tables of `Store`.  Metric rows and findings are only added, so the `AUTOINCREMENT` id of a row is its place. -/
structure SqliteDb where
  central      : Db
  metricRows   : List MetricRow
  revisions    : Table RevisionRow.revisionId
  findings     : List FindingRow
  findingIndex : Bool

def SqliteDb.empty : SqliteDb := ⟨.empty, [], .empty, [], false⟩

inductive SqlError
  | integrityError | inFlightBudgetExhausted | unsupported
  | valueError      -- "unsupported termination witness"
  | inTransaction   -- "cannot start a transaction within a transaction"
  | refused
  deriving DecidableEq

abbrev Sql (α : Type) := Action SqlError SqliteDb α

inductive SqliteOp
  | store (op : StoreOp)
  | unsupportedWitness (executionId : String)
  | saveMetricRows (rows : List MetricRow)
  | createRevision (row : RevisionRow)
  | saveFindings (revisionId : String) (findings : List Finding)
  | createFindingQueryIndex
  deriving DecidableEq

/-- A call: what its clock reads and which of its statements are refused for what the rows do not show. -/
structure SqliteCall where
  now     : Time
  refused : Nat → Bool
  op      : SqliteOp

namespace SqliteStore

open Action

variable {α : Type} (now : Time) (refused : Nat → Bool)

/-! ## Statements -/

/-- A statement on the central tables that no row refuses. -/
def accepted (f : Db → Db × α) : Db → Except SqlError (Db × α) := fun db => .ok (f db)

/-- The `k`-th writing statement of a call. -/
def statement (k : Nat) (f : Db → Except SqlError (Db × α)) : SqliteDb → Except SqlError (SqliteDb × α) := fun s =>
  if refused k then .error .refused
  else
    match f s.central with
    | .ok (db, a) => .ok ({ s with central := db }, a)
    | .error e    => .error e

/-- `BEGIN IMMEDIATE`, then the body of the `try`. -/
def immediate (body : Sql α) : Sql α := do
  beginImmediate .inTransaction (if refused 0 then some .refused else none)
  rollingBack body

/-- One statement, `commit()`, no handler. -/
def single (f : Db → Except SqlError (Db × Reply)) : Sql Reply := do
  let reply ← execute (statement refused 0 f)
  commit
  ret reply

/-! ## Runs -/

/-- `INSERT INTO runs`. -/
def insertNewRun (r : RunRow) (db : Db) : Except SqlError (Db × Unit) :=
  match db.runs.insertNew r with
  | some runs => .ok ({ db with runs := runs }, ())
  | none      => .error .integrityError

def createRun (jobId designId ipFamily flowName : String) (specHash : Option String) (maxInFlight : Option Nat) :
    Sql Reply :=
  let r := Store.newRun now jobId designId ipFamily flowName specHash none
  match maxInFlight with
  | none        => single refused (accepted fun db => Reply.ofFlag (Store.insertRun db r))
  | some budget => immediate refused do
    let existing ← select fun s => .ok (s.central.runs.get jobId).isSome
    if existing then do
      commit
      ret (.flag false)
    else do
      let inFlight ← select fun s => .ok (Store.inFlight s.central)
      if budget ≤ inFlight then raise .inFlightBudgetExhausted
      else do
        execute (statement refused 1 (insertNewRun r))
        commit
        ret (.flag true)

/-- No allowed field, no statement. -/
def updateRun (jobId : String) (fields : RunFields) : Sql Reply :=
  if fields = {} then ret .unit
  else single refused (accepted fun db => ((db.updateRuns now jobId (fun _ => true) fields).1, .unit))

/-- The foreign key of `metrics`. -/
def upsertMetrics (jobId : String) (payload : Document) (db : Db) : Except SqlError (Db × Reply) :=
  if (db.runs.get jobId).isSome then .ok (Store.saveMetrics db jobId payload, .unit) else .error .integrityError

def saveMetrics (jobId : String) (payload : Document) : Sql Reply := single refused (upsertMetrics jobId payload)

/-! ## Attempts -/

/-- The foreign key of `attempts`. -/
def upsertAttempt (jobId : String) (attemptNo : Nat) (status : AttemptStatus) (errorType error artifactPath : Option String)
    (retryClass : Option RetryClass) (db : Db) : Except SqlError (Db × Reply) :=
  match Store.recordAttempt db now jobId attemptNo status errorType error artifactPath retryClass with
  | (db', .ok _)   => .ok (db', .unit)
  | (_, .error _) => .error .integrityError

def recordAttempt (jobId : String) (attemptNo : Nat) (status : AttemptStatus) (errorType error artifactPath : Option String)
    (retryClass : Option RetryClass) : Sql Reply :=
  single refused (upsertAttempt now jobId attemptNo status errorType error artifactPath retryClass)

/-- The methods that are one `UPDATE attempts`. -/
def updateAttempt (u : Db → AttemptUpdate) : Sql Reply :=
  single refused (accepted fun db => Reply.ofFlag ((u db).exec db))

/-! ## Finalizers -/

def finalizeRecovery (jobId : String) (attemptNo : Nat) (token errorType error : String) : Sql Reply := immediate refused do
  let attempt ← execute (statement refused 1
    (accepted (Store.abandonAttempt now jobId attemptNo token errorType error).exec))
  if attempt = false then do
    rollback
    ret (.flag false)
  else do
    let run ← execute (statement refused 2 (accepted fun db =>
      db.updateRuns now jobId Store.runIsRunning { status := some .failed, error := some (some error) }))
    if run = false then do
      rollback
      ret (.flag false)
    else do
      execute (statement refused 3 (accepted fun db => (Store.retireRequests db jobId attemptNo, ())))
      commit
      ret (.flag true)

def finalizeAttemptAndRun (c : Completion) : Sql Reply := immediate refused do
  let attempt ← execute (statement refused 1 (accepted fun db => (Store.completeAttempt db now c).exec db))
  if attempt = false then do
    rollback
    ret (.flag false)
  else do
    let run ← execute (statement refused 2 (accepted fun db => db.updateRuns now c.jobId Store.runIsRunning c.fields))
    if run = false then do
      rollback
      ret (.flag false)
    else do
      commit
      ret (.flag true)

/-! ## Host sessions -/

/-- `INSERT INTO host_sessions`. -/
def insertHostSession (owner : ExecutionOwner) (ttl : Time) (db : Db) : Except SqlError (Db × Unit) :=
  match db.hostSessions.insertNew ⟨owner.sessionId, owner.hostId, owner.hostEpoch, now, now + ttl⟩ with
  | some sessions => .ok ({ db with hostSessions := sessions }, ())
  | none          => .error .integrityError

theorem ownedHost_key (owner : ExecutionOwner) (h : HostRow) : HostRow.hostId { h with
    currentEpoch := owner.hostEpoch, currentSessionId := owner.sessionId, updatedAt := now } = h.hostId := rfl

/-- `INSERT INTO hosts … ON CONFLICT(host_id) DO UPDATE`. -/
def upsertHost (owner : ExecutionOwner) (db : Db) : Db × Unit :=
  ({ db with
      hosts := db.hosts.upsert ⟨owner.hostId, owner.hostEpoch, owner.sessionId, now⟩
        (fun h => { h with currentEpoch := owner.hostEpoch, currentSessionId := owner.sessionId, updatedAt := now })
        (ownedHost_key now owner) }, ())

def startHostSession (owner : ExecutionOwner) (ttl : Time) : Sql Reply := immediate refused do
  execute (statement refused 1 (insertHostSession now owner ttl))
  execute (statement refused 2 (accepted (upsertHost now owner)))
  commit
  ret .unit

/-! ## Execution requests and witnesses -/

theorem claimed_key (supervisorId : String) (e : ExecutionRequestRow) : ExecutionRequestRow.executionId { e with
    status := .claimed, supervisorId := some supervisorId, claimedAt := some now } = e.executionId := rfl

/-- The `UPDATE` of `claim_execution_request`, with `rowcount == 1`. -/
def claimRequest (supervisorId executionId : String) (db : Db) : Db × Bool :=
  ({ db with
      executionRequests := db.executionRequests.updateWhere
        (fun e => decide (e.executionId = executionId) && decide (e.status = .queued))
        (fun e => { e with status := .claimed, supervisorId := some supervisorId, claimedAt := some now })
        (claimed_key now supervisorId) },
   decide (db.executionRequests.countWhere
     (fun e => decide (e.executionId = executionId) && decide (e.status = .queued)) = 1))

def claimExecutionRequest (hostId supervisorId : String) : Sql Reply := immediate refused do
  let row ← select fun s => .ok (Store.nextRequest s.central hostId [])
  match row with
  | none     => do
    commit
    ret (.request none)
  | some row => do
    let claimed ← execute (statement refused 1 (accepted (claimRequest now supervisorId row.executionId)))
    if claimed = false then do
      rollback
      ret (.request none)
    else do
      commit
      ret (.request (some row))

/-- `INSERT INTO execution_witnesses … SELECT … FROM execution_requests … ON CONFLICT DO NOTHING`. -/
def insertWitness (executionId : String) (kind : WitnessKind) (processExitCode : Option Int) (artifactPath : Option String)
    (detail : String) (db : Db) : Db × Bool :=
  match db.executionRequests.get executionId with
  | none   => (db, false)
  | some _ =>
    match db.executionWitnesses.insertNew ⟨executionId, kind, now, processExitCode, artifactPath, detail⟩ with
    | none           => (db, false)
    | some witnesses => ({ db with executionWitnesses := witnesses }, true)

theorem completed_key (e : ExecutionRequestRow) :
    ExecutionRequestRow.executionId { e with status := .completed } = e.executionId := rfl

/-- The second statement of `record_termination_witness`. -/
def completeRequest (executionId : String) (db : Db) : Db × Unit :=
  ({ db with
      executionRequests := db.executionRequests.updateWhere
        (fun e => decide (e.executionId = executionId) && decide (e.status = .claimed ∨ e.status = .running))
        (fun e => { e with status := .completed }) completed_key }, ())

def recordTerminationWitness (executionId : String) (kind : WitnessKind) (processExitCode : Option Int)
    (artifactPath : Option String) (detail : String) : Sql Reply := do
  let inserted ← execute (statement refused 0 (accepted
    (insertWitness now executionId kind processExitCode artifactPath detail)))
  if inserted then do
    execute (statement refused 1 (accepted (completeRequest executionId)))
    commit
    ret (.flag true)
  else do
    commit
    ret (.flag false)

/-! ## Metric rows, revisions and findings -/

/-- A row of `save_metric_rows` with its place in the batch; the foreign key of `metric_rows`. -/
def insertMetricRow (r : MetricRow × Nat) (s : SqliteDb) : Except SqlError SqliteDb :=
  if refused r.2 then .error .refused
  else if (s.central.runs.get r.1.jobId).isSome then .ok { s with metricRows := s.metricRows ++ [r.1] }
  else .error .integrityError

def saveMetricRows (rows : List MetricRow) : Sql Reply := do
  executeMany (insertMetricRow refused) rows.zipIdx
  commit
  ret .unit

def insertRevision (row : RevisionRow) (s : SqliteDb) : Except SqlError (SqliteDb × Unit) :=
  if refused 0 then .error .refused
  else
    match s.revisions.insertNew row with
    | some revisions => .ok ({ s with revisions := revisions }, ())
    | none           => .error .integrityError

def createRevision (row : RevisionRow) : Sql Reply := do
  execute (insertRevision refused row)
  commit
  ret .unit

/-- A row of `save_findings`; the foreign key of `findings`. -/
def insertFinding (r : FindingRow × Nat) (s : SqliteDb) : Except SqlError SqliteDb :=
  if refused r.2 then .error .refused
  else if (s.revisions.get r.1.revisionId).isSome then .ok { s with findings := s.findings ++ [r.1] }
  else .error .integrityError

def saveFindings (revisionId : String) (findings : List Finding) : Sql Reply := rollingBack do
  executeMany (insertFinding refused) (findings.map (fun f => ⟨f, revisionId⟩)).zipIdx
  commit
  ret .unit

def createFindingQueryIndex : Sql Reply := do
  define fun s => if refused 0 then .error .refused else .ok { s with findingIndex := true }
  commit
  ret .unit

/-! ## Calls -/

/-- A read. -/
def read (op : StoreOp) : Sql Reply := select fun s => .ok (op.reply .sqlite now s.central)

def storeOp : StoreOp → Sql Reply
  | .createRun j d i f h m _ => createRun now refused j d i f h m
  | .updateRun j fields => updateRun now refused j fields
  | .saveMetrics j payload => saveMetrics refused j payload
  | .recordAttempt j n st et e ap rc => recordAttempt now refused j n st et e ap rc
  | .acquireAttemptLease j n owner token ttl =>
    updateAttempt refused fun _ => Store.acquireAttemptLease now j n owner token ttl
  | .heartbeatAttempt j n token ttl => updateAttempt refused fun _ => Store.heartbeatAttempt now j n token ttl
  | .recordAttemptProcess j n token pid at_ identity group deadline =>
    updateAttempt refused fun _ => Store.recordAttemptProcess now j n token pid at_ identity group deadline
  | .recordAttemptExecution j n token owner e =>
    updateAttempt refused fun db => Store.recordAttemptExecution db now j n token owner e
  | .transitionAttempt j n token st et e ap rc =>
    updateAttempt refused fun _ => Store.transitionAttempt now j n token st et e ap rc
  | .claimRecovery j n owner token ttl => updateAttempt refused fun _ => Store.claimRecovery now j n owner token ttl
  | .releaseRecoveryClaim j n token => updateAttempt refused fun _ => Store.releaseRecoveryClaim now j n token
  | .finalizeRecovery j n token et e => finalizeRecovery now refused j n token et e
  | .finalizeAttemptAndRun c => finalizeAttemptAndRun now refused c
  | .startHostSession owner ttl => startHostSession now refused owner ttl
  | .heartbeatHostSession s ttl =>
    single refused (accepted fun db => Reply.ofFlag (Store.heartbeatHostSession db now s ttl))
  | .heartbeatQueuedExecutionAttempts s ttl =>
    single refused (accepted fun db => Reply.ofCount (Store.heartbeatQueuedExecutionAttempts db now s ttl))
  | .enqueueExecutionRequest e j n h p =>
    single refused (accepted fun db => Reply.ofFlag (Store.enqueueExecutionRequest db now e j n h p))
  | .claimExecutionRequest h s _ => claimExecutionRequest now refused h s
  | .recordSupervisorProcessStarted e s pid =>
    single refused (accepted fun db => Reply.ofFlag (Store.recordSupervisorProcessStarted db now e s pid))
  | .recordTerminationWitness e kind code ap detail => recordTerminationWitness now refused e kind code ap detail
  -- the methods of the central store only
  | .claimNextRun _ | .releaseTerminalExecutionRequests | .countActiveExecutionRequests _ => raise .unsupported
  | .getRun j => read now (.getRun j)
  | .staleRunning cutoff => read now (.staleRunning cutoff)
  | .listExpiredLeasedAttempts => read now .listExpiredLeasedAttempts
  | .getTerminationWitness e => read now (.getTerminationWitness e)

/-- One call of the store's one connection. -/
def run (c : SqliteCall) : Sql Reply :=
  match c.op with
  | .store op               => storeOp c.now c.refused op
  | .unsupportedWitness _   => raise .valueError
  | .saveMetricRows rows    => saveMetricRows c.refused rows
  | .createRevision row     => createRevision c.refused row
  | .saveFindings r fs      => saveFindings c.refused r fs
  | .createFindingQueryIndex => createFindingQueryIndex c.refused

end SqliteStore

end EdaLab
