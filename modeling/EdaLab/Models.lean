import EdaLab.Table
import Mathlib.Algebra.Order.Field.Rat
/-!
# Models — job specs, adapter results and the rows of the central database

The columns are those of the two schemas (`Store.__init__`, `PostgresStore._migrate`), under the schemas' words.  The
tables of metric rows, revisions and findings stand with the operations on them, in `SqliteStore` and `Violations`.  A
nullable column is an `Option`, so a guard that compares NULL is `Option.any`, which is false on `none` as SQL's is not
true.  Times are the seconds the clock reads, as exact rationals.
-/
namespace EdaLab

open Relational

abbrev Time := ℚ

/-- A Python number as the callers pass it: `1` and `1.0` are different spellings. -/
inductive PyNumber
  | int (i : Int)
  | float (q : ℚ)
  deriving DecidableEq

structure JobSpec where
  jobId           : String
  designId        : String
  ipFamily        : String
  flowName        : String
  corner          : String
  worstSlack      : PyNumber
  unit            : String
  durationSeconds : PyNumber := .float (1 / 50)
  deriving DecidableEq

inductive RunStatus
  | queued | running | succeeded | failed | timedOut | cancelled
  deriving DecidableEq

/-- A closed Run: no operation is meant to move it again. -/
def RunStatus.isTerminal : RunStatus → Bool
  | .queued | .running => false
  | _                  => true

inductive AttemptStatus
  | running | retryableFailure | succeeded | failed | cancelled | abandoned
  deriving DecidableEq

inductive RetryClass
  | notClassified | retryable | nonRetryable | notApplicable | recoveryRequired
  deriving DecidableEq

inductive ParseStatus
  | notStarted | ok | invalid
  deriving DecidableEq

inductive CheckStatus
  | unknown | pass | fail
  deriving DecidableEq

inductive Completeness
  | unknown | incomplete | complete
  deriving DecidableEq

/-- `semantic_status` and `provenance_status`. -/
inductive Validity
  | unknown | valid | invalid
  deriving DecidableEq

inductive TrustStatus
  | unknown | trusted | invalid
  deriving DecidableEq

/-! ## Dictionaries

Provenance and metrics are Python dictionaries with text keys, which the store keeps as JSON. -/

/-- A value of a dictionary.  Of what is no plain scalar only its JSON text on either store counts: `none` where `json.dumps`
or the column's type refuses it. -/
inductive PyObject
  | null
  | int (i : Int)
  | float (q : ℚ)
  | str (s : String)
  | object (sqlite postgres : Option String)
  deriving DecidableEq

abbrev Document := List (String × PyObject)

/-- `d[k] = v`: a key that is there keeps its place. -/
def Document.set : Document → String → PyObject → Document
  | [], k, v      => [(k, v)]
  | (j, w) :: d, k, v => if j = k then (k, v) :: d else (j, w) :: Document.set d k v

/-- `{**a, **b}`. -/
def Document.merge (a b : Document) : Document := b.foldl (fun d p => d.set p.1 p.2) a

structure ParseResult where
  parseStatus      : ParseStatus
  checkStatus      : CheckStatus
  metrics          : Document
  errors           : List String
  completeness     : Completeness := .unknown
  provenance       : Option Document := none
  semanticStatus   : Validity := .unknown
  provenanceStatus : Validity := .unknown
  deriving DecidableEq

structure AdapterRunResult where
  artifactPath        : String
  processExitCode     : Option Int
  executionProvenance : Option Document := none
  deriving DecidableEq

/-- A fenced Host Agent session, not a remotely observable PID. -/
structure ExecutionOwner where
  hostId    : String
  hostEpoch : String
  sessionId : String
  deriving DecidableEq

/-! ## Rows -/

structure RunRow where
  jobId            : String
  designId         : String
  ipFamily         : String
  flowName         : String
  status           : RunStatus
  parseStatus      : ParseStatus
  checkStatus      : CheckStatus
  completeness     : Completeness
  semanticStatus   : Validity
  provenanceStatus : Validity
  trustStatus      : TrustStatus
  provenance       : Document
  artifactPath     : Option String
  error            : Option String
  specHash         : Option String
  specPayload      : Option JobSpec
  updatedAt        : Time
  deriving DecidableEq

structure AttemptRow where
  jobId                : String
  attemptNo            : Nat
  status               : AttemptStatus
  errorType            : Option String
  error                : Option String
  artifactPath         : Option String
  retryClass           : Option RetryClass
  startedAt            : Time
  updatedAt            : Time
  leaseOwner           : Option String := none
  leaseToken           : Option String := none
  leaseExpiresAt       : Option Time := none
  heartbeatAt          : Option Time := none
  processPid           : Option Nat := none
  processStartedAt     : Option Time := none
  processIdentity      : Option String := none
  processGroupId       : Option Nat := none
  orphanDeadline       : Option Time := none
  executionHostId      : Option String := none
  executionHostEpoch   : Option String := none
  executionHostSession : Option String := none
  executionId          : Option String := none
  recoveryOwner        : Option String := none
  recoveryToken        : Option String := none
  recoveryExpiresAt    : Option Time := none
  deriving DecidableEq

/-- `PRIMARY KEY(job_id, attempt_no)`. -/
def AttemptRow.key (a : AttemptRow) : String × Nat := (a.jobId, a.attemptNo)

structure HostSessionRow where
  sessionId      : String
  hostId         : String
  hostEpoch      : String
  heartbeatAt    : Time
  leaseExpiresAt : Time
  deriving DecidableEq

structure HostRow where
  hostId           : String
  currentEpoch     : String
  currentSessionId : String
  updatedAt        : Time
  deriving DecidableEq

inductive RequestStatus
  | queued | claimed | running | completed | unavailable
  deriving DecidableEq

/-- What the worker hands to the supervisor with a request. -/
structure RequestPayload where
  spec           : JobSpec
  leaseToken     : String
  executionOwner : ExecutionOwner
  deriving DecidableEq

structure ExecutionRequestRow where
  executionId      : String
  jobId            : String
  attemptNo        : Nat
  hostId           : String
  status           : RequestStatus
  payload          : RequestPayload
  createdAt        : Time
  supervisorId     : Option String := none
  claimedAt        : Option Time := none
  processPid       : Option Nat := none
  processStartedAt : Option Time := none
  deriving DecidableEq

inductive WitnessKind
  | processExited | runtimeTerminated
  deriving DecidableEq

structure WitnessRow where
  executionId     : String
  kind            : WitnessKind
  observedAt      : Time
  processExitCode : Option Int
  artifactPath    : Option String
  detail          : String
  deriving DecidableEq

structure MetricsRow where
  jobId   : String
  payload : Document
  deriving DecidableEq

/-- The central database. -/
structure Db where
  runs               : Table RunRow.jobId
  attempts           : Table AttemptRow.key
  hostSessions       : Table HostSessionRow.sessionId
  hosts              : Table HostRow.hostId
  executionRequests  : Table ExecutionRequestRow.executionId
  executionWitnesses : Table WitnessRow.executionId
  metrics            : Table MetricsRow.jobId

def Db.empty : Db := ⟨.empty, .empty, .empty, .empty, .empty, .empty, .empty⟩

/-- What `get_run` returns: the Run, its metrics and its Attempts in order. -/
structure RunView where
  run      : RunRow
  metrics  : Option Document
  attempts : List AttemptRow
  deriving DecidableEq

end EdaLab
