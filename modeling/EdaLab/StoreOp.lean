import EdaLab.PostgresStore
import EdaLab.Trace
/-!
# StoreOp — store calls as data

A call is a `StoreOp`, its execution is `StoreOp.exec` on either backend at one clock reading, and what it returns is a
`Reply`.  Everything the services do to the shared state is such a call, so the results about sequences of calls hold of
whatever the services, workers, supervisors and recoverers interleave.
-/
namespace EdaLab

inductive Backend
  | sqlite | postgres
  deriving DecidableEq

/-- The `spec_payload` column is PostgreSQL's. -/
def Backend.payload : Backend → Option JobSpec → Option JobSpec
  | .sqlite, _   => none
  | .postgres, p => p

/-- `SKIP LOCKED` is PostgreSQL's; SQLite's `BEGIN IMMEDIATE` admits one writer. -/
def Backend.locked : Backend → List String → List String
  | .sqlite, _   => []
  | .postgres, l => l

inductive StoreOp
  | createRun (jobId designId ipFamily flowName : String) (specHash : Option String) (maxInFlight : Option Nat)
      (specPayload : Option JobSpec)
  | updateRun (jobId : String) (fields : RunFields)
  | saveMetrics (jobId : String) (payload : Document)
  | recordAttempt (jobId : String) (attemptNo : Nat) (status : AttemptStatus) (errorType error artifactPath :
      Option String) (retryClass : Option RetryClass)
  | acquireAttemptLease (jobId : String) (attemptNo : Nat) (owner token : String) (ttl : Time)
  | heartbeatAttempt (jobId : String) (attemptNo : Nat) (token : String) (ttl : Time)
  | recordAttemptProcess (jobId : String) (attemptNo : Nat) (token : String) (pid : Nat) (startedAt : Time)
      (processIdentity : Option String) (processGroupId : Option Nat) (orphanDeadline : Option Time)
  | recordAttemptExecution (jobId : String) (attemptNo : Nat) (token : String) (owner : ExecutionOwner)
      (executionId : String)
  | transitionAttempt (jobId : String) (attemptNo : Nat) (token : String) (status : AttemptStatus)
      (errorType error artifactPath : Option String) (retryClass : Option RetryClass)
  | claimRecovery (jobId : String) (attemptNo : Nat) (owner token : String) (ttl : Time)
  | releaseRecoveryClaim (jobId : String) (attemptNo : Nat) (token : String)
  | finalizeRecovery (jobId : String) (attemptNo : Nat) (token errorType error : String)
  | finalizeAttemptAndRun (c : Completion)
  | startHostSession (owner : ExecutionOwner) (ttl : Time)
  | heartbeatHostSession (sessionId : String) (ttl : Time)
  | heartbeatQueuedExecutionAttempts (sessionId : String) (ttl : Time)
  | enqueueExecutionRequest (executionId jobId : String) (attemptNo : Nat) (hostId : String) (payload : RequestPayload)
  | claimExecutionRequest (hostId supervisorId : String) (locked : List String)
  | recordSupervisorProcessStarted (executionId supervisorId : String) (pid : Nat)
  | recordTerminationWitness (executionId : String) (kind : WitnessKind) (processExitCode : Option Int)
      (artifactPath : Option String) (detail : String)
  | claimNextRun (locked : List String)
  | releaseTerminalExecutionRequests
  | countActiveExecutionRequests (hostId : String)
  | getRun (jobId : String)
  | staleRunning (cutoff : Time)
  | listExpiredLeasedAttempts
  | getTerminationWitness (executionId : Option String)
  deriving DecidableEq

inductive Reply
  | unit
  | flag (b : Bool)
  | rowcount (n : Nat)
  | run (r : Option RunView)
  | jobIds (js : List String)
  | attempts (ks : List (String × Nat))
  | witness (w : Option WitnessRow)
  | payload (p : Option JobSpec)
  | request (r : Option ExecutionRequestRow)
  | raised (e : StoreError)
  deriving DecidableEq

def Reply.ofFlag (x : Db × Bool) : Db × Reply := (x.1, .flag x.2)

def Reply.ofCount (x : Db × Nat) : Db × Reply := (x.1, .rowcount x.2)

def Reply.ofExcept (x : Db × Except StoreError Unit) : Db × Reply :=
  (x.1, match x.2 with
    | .ok _    => .unit
    | .error e => .raised e)

def Reply.ofCreate (x : Db × Except StoreError Bool) : Db × Reply :=
  (x.1, match x.2 with
    | .ok created => .flag created
    | .error e    => .raised e)

/-- One store call, on a backend, at one clock reading. -/
def StoreOp.exec (b : Backend) (now : Time) (db : Db) : StoreOp → Db × Reply
  | .createRun j d i f h m p =>
    Reply.ofCreate (Store.createRun db now j d i f h m (b.payload p))
  | .updateRun j fields => (Store.updateRun db now j fields, .unit)
  | .saveMetrics j payload => (Store.saveMetrics db j payload, .unit)
  | .recordAttempt j n st et e ap rc => Reply.ofExcept (Store.recordAttempt db now j n st et e ap rc)
  | .acquireAttemptLease j n owner token ttl =>
    Reply.ofFlag ((Store.acquireAttemptLease now j n owner token ttl).exec db)
  | .heartbeatAttempt j n token ttl => Reply.ofFlag ((Store.heartbeatAttempt now j n token ttl).exec db)
  | .recordAttemptProcess j n token pid at_ identity group deadline =>
    Reply.ofFlag ((Store.recordAttemptProcess now j n token pid at_ identity group deadline).exec db)
  | .recordAttemptExecution j n token owner e =>
    Reply.ofFlag ((Store.recordAttemptExecution db now j n token owner e).exec db)
  | .transitionAttempt j n token st et e ap rc =>
    Reply.ofFlag ((Store.transitionAttempt now j n token st et e ap rc).exec db)
  | .claimRecovery j n owner token ttl => Reply.ofFlag ((Store.claimRecovery now j n owner token ttl).exec db)
  | .releaseRecoveryClaim j n token => Reply.ofFlag ((Store.releaseRecoveryClaim now j n token).exec db)
  | .finalizeRecovery j n token et e =>
    Reply.ofFlag (match b with
      | .sqlite   => Store.finalizeRecovery db now j n token et e
      | .postgres => PostgresStore.finalizeRecovery db now j n token et e)
  | .finalizeAttemptAndRun c =>
    Reply.ofFlag (match b with
      | .sqlite   => Store.finalizeAttemptAndRun db now c
      | .postgres => PostgresStore.finalizeAttemptAndRun db now c)
  | .startHostSession owner ttl => Reply.ofExcept (Store.startHostSession db now owner ttl)
  | .heartbeatHostSession s ttl => Reply.ofFlag (Store.heartbeatHostSession db now s ttl)
  | .heartbeatQueuedExecutionAttempts s ttl => Reply.ofCount (Store.heartbeatQueuedExecutionAttempts db now s ttl)
  | .enqueueExecutionRequest e j n h p => Reply.ofFlag (Store.enqueueExecutionRequest db now e j n h p)
  | .claimExecutionRequest h s locked =>
    let (db', row) := Store.claimExecutionRequest db now h s (b.locked locked)
    (db', .request row)
  | .recordSupervisorProcessStarted e s pid => Reply.ofFlag (Store.recordSupervisorProcessStarted db now e s pid)
  | .recordTerminationWitness e kind code ap detail =>
    Reply.ofFlag (Store.recordTerminationWitness db now e kind code ap detail)
  | .claimNextRun locked =>
    match b with
    | .sqlite   => (db, .raised .unsupported)
    | .postgres =>
      let (db', p) := PostgresStore.claimNextRun db now locked
      (db', .payload p)
  | .releaseTerminalExecutionRequests =>
    match b with
    | .sqlite   => (db, .raised .unsupported)
    | .postgres => Reply.ofCount (PostgresStore.releaseTerminalExecutionRequests db)
  | .countActiveExecutionRequests h =>
    match b with
    | .sqlite   => (db, .raised .unsupported)
    | .postgres => (db, .rowcount (PostgresStore.countActiveExecutionRequests db h))
  | .getRun j => (db, .run (Store.getRun db j))
  | .staleRunning cutoff => (db, .jobIds (Store.staleRunning db cutoff))
  | .listExpiredLeasedAttempts => (db, .attempts (Store.listExpiredLeasedAttempts db now))
  | .getTerminationWitness e => (db, .witness (Store.getTerminationWitness db e))

/-- The database a call leaves. -/
def StoreOp.after (b : Backend) (now : Time) (op : StoreOp) (db : Db) : Db := (op.exec b now db).1

/-- What a call returns. -/
def StoreOp.reply (b : Backend) (now : Time) (op : StoreOp) (db : Db) : Reply := (op.exec b now db).2

/-- A call made at a clock reading. -/
structure Call where
  now : Time
  op  : StoreOp

/-- Calls one after the other, whatever their clocks read. -/
def Call.step (b : Backend) (db : Db) (c : Call) : Option Db := some (c.op.after b c.now db)

/-- A database and the last clock reading it was called at. -/
structure Clocked where
  clock : Time
  db    : Db

/-- Calls one after the other under a clock that never goes back. -/
def Call.tick (b : Backend) (s : Clocked) (c : Call) : Option Clocked :=
  if s.clock ≤ c.now then some ⟨c.now, c.op.after b c.now s.db⟩ else none

end EdaLab
