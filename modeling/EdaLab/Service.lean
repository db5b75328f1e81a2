import EdaLab.StoreOp
/-!
# Service — `JobService`, one call at a time

A method of the service is a machine: a program counter (`…Pc`) that holds its local variables, the store call it makes
there (`op`), where the reply takes it (`resume`), and its steps that call no store (`advance`).  Between two of them
anything else may run.  `time.sleep` and `JobService.lock` only remove interleavings and are left out, and so are the
resource slots and the progress publisher, which later modules put beside these machines.
-/
namespace EdaLab

inductive ExecutionMode
  | local | external | supervised
  deriving DecidableEq

/-- The constructor's arguments; it refuses recovery and orphan durations that are not positive. -/
structure Service where
  workerId : String
  executionMode : ExecutionMode
  maxAttempts : Nat
  leaseSeconds : Time
  recoveryLeaseSeconds : Time
  orphanGraceSeconds : Time
  maxInFlight : Option Nat
  recoveryLeaseSeconds_pos : 0 < recoveryLeaseSeconds
  orphanGraceSeconds_pos : 0 < orphanGraceSeconds

/-- `bool(s)` for an optional string. -/
def truthy (s : Option String) : Bool := s.any (fun x => decide (x ≠ ""))

/-- What a step that calls no store does outside its machine. -/
inductive Effect
  | none
  /-- `heartbeat_thread.start()` and the entry of `adapter.run`. -/
  | adapterRun
  /-- A child process starts and the adapter's observers are called. -/
  | child (pid group : Nat) (identity : Option String)
  /-- `execute_claimed`. -/
  | execute (spec : JobSpec)
  /-- `future.cancel()` where it is `True`. -/
  | cancelFuture (jobId : String)
  /-- `set_execution_owner`. -/
  | own (owner : ExecutionOwner)
  deriving DecidableEq

/-! ## Adapters -/

inductive AdapterError
  | cancelled (message : String)
  | timeout (message : String)
  | connection (message : String)
  | other (message : String)
  deriving DecidableEq

/-- What `adapter.run` returns: a result, or the bare path of an artifact. -/
inductive AdapterResult
  | path (artifact : String)
  | result (r : AdapterRunResult)

/-- What `adapter.run` returned, and what will become of it: the report `parse_report` reads at the artifact's path, or the
text of what is raised there or by a store that refuses the values of the completion and writes nothing. -/
structure AdapterReturn where
  result : AdapterResult
  parsed : Except String ParseResult

namespace AdapterReturn

def artifact (r : AdapterReturn) : String :=
  match r.result with
  | .path artifact => artifact
  | .result x      => x.artifactPath

/-- A bare path cannot prove execution success. -/
def processExitCode (r : AdapterReturn) : Option Int :=
  match r.result with
  | .path _   => none
  | .result x => x.processExitCode

def executionProvenance (r : AdapterReturn) : Option Document :=
  match r.result with
  | .path _   => none
  | .result x => x.executionProvenance

end AdapterReturn

/-- What happens outside a machine: the executor, the adapter, the operating system. -/
inductive Input
  | go
  | child (pid group : Nat) (identity : Option String)
  | returned (r : AdapterReturn)
  | raised (e : AdapterError)
  /-- Whether `ps` answered. -/
  | ps (answered : Bool)
  /-- `ps` raised what `_process_identity` does not catch. -/
  | psRaised
  /-- Whether the signal could be sent. -/
  | signal (permitted : Bool)

/-! ## Trust -/

def trustStatus (result : ParseResult) (processExitCode : Option Int) : TrustStatus :=
  if result.parseStatus = .invalid ∨ result.semanticStatus = .invalid then .invalid
  else match processExitCode with
    | none      => .unknown
    | some code =>
      if code ≠ 0 then .invalid
      else if result.provenanceStatus ≠ .valid then .unknown
      else if result.parseStatus = .ok ∧ result.semanticStatus = .valid then .trusted
      else .unknown

def validationFields (result : ParseResult) (processExitCode : Option Int) (executionProvenance : Option Document) :
    RunFields where
  parseStatus := some result.parseStatus
  checkStatus := some result.checkStatus
  completeness := some result.completeness
  semanticStatus := some result.semanticStatus
  provenanceStatus := some result.provenanceStatus
  trustStatus := some (trustStatus result processExitCode)
  provenance := some (((executionProvenance.getD []).merge (result.provenance.getD [])).set
    "observed_process_exit_code" (processExitCode.elim .null .int))

/-! ## `_execute` -/

/-- Where a finalization stands: in the `try` body, with the metrics to save after it, or in a handler. -/
inductive Scope
  | body (metrics : Document)
  | handler
  deriving DecidableEq

/-- A started child: its process id, and which process of that id it is. -/
structure Child where
  pid   : Nat
  birth : Nat
  deriving DecidableEq

/-- What `_record_adapter_process` reads before it writes. -/
structure Observation where
  child          : Child
  startedAt      : Time
  identity       : Option String
  processGroupId : Option Nat
  orphanDeadline : Time
  deriving DecidableEq

inductive ExecPc
  | pending
  | start
  | record (n : Nat)
  | acquire (n : Nat) (token : String)
  | register (n : Nat) (token executionId : String) (owner : ExecutionOwner)
  | enqueue (n : Nat) (token executionId : String) (owner : ExecutionOwner)
  | launch (n : Nat) (token : String)
  | adapter (n : Nat) (token : String)
  | spawned (n : Nat) (token : String) (child : Child)
  | observe (n : Nat) (token : String) (o : Observation)
  | collect (n : Nat) (token : String) (r : AdapterReturn)
  | finalize (c : Completion) (scope : Scope)
  | transition (n : Nat) (token errorType error : String)
  | metrics (token : String) (payload : Document)
  | returned
  | raised
  | cancelled

namespace ExecPc

/-- `future.done()`. -/
def done : ExecPc → Bool
  | returned | raised | cancelled => true
  | _                             => false

/-- The token the heartbeat thread of the current Attempt runs for. -/
def beating : ExecPc → Option String
  | adapter _ t | spawned _ t _ | observe _ t _ | collect _ t _ | transition _ t _ _ | metrics t _ => some t
  | finalize c _ => some c.token
  | _ => none

end ExecPc

section Execute

variable (svc : Service) (spec : JobSpec)

/-- `except Exception`. -/
def executionError (n : Nat) (token message : String) : ExecPc :=
  .finalize
    { jobId := spec.jobId, attemptNo := n, token := token, attemptStatus := .failed, runStatus := .failed,
      errorType := some "execution_error", error := some message, retryClass := some .nonRetryable } .handler

/-- `except AdapterCancelledError`, `except (TimeoutError, ConnectionError)` and the rest. -/
def adapterRaised (n : Nat) (token : String) : AdapterError → ExecPc
  | .cancelled m =>
    .finalize
      { jobId := spec.jobId, attemptNo := n, token := token, attemptStatus := .cancelled, runStatus := .cancelled,
        errorType := some "cancelled", error := some m, retryClass := some .nonRetryable,
        runFields := { trustStatus := some .invalid } } .handler
  | .timeout m =>
    if n < svc.maxAttempts then .transition n token "timeout" m
    else .finalize
      { jobId := spec.jobId, attemptNo := n, token := token, attemptStatus := .retryableFailure,
        runStatus := .timedOut, errorType := some "timeout",
        error := some ("timeout: exhausted after " ++ toString n ++ " attempts"), retryClass := some .retryable,
        runFields := { trustStatus := some .invalid } } .handler
  | .connection m =>
    if n < svc.maxAttempts then .transition n token "transport_error" m
    else .finalize
      { jobId := spec.jobId, attemptNo := n, token := token, attemptStatus := .retryableFailure,
        runStatus := .failed, errorType := some "transport_error",
        error := some ("transport_error: exhausted after " ++ toString n ++ " attempts"),
        retryClass := some .retryable, runFields := { trustStatus := some .invalid } } .handler
  | .other m => executionError spec n token m

/-- A `FAILED` completion of the `try` body. -/
def failedResult (n : Nat) (token artifact errorType error : String) (fields : RunFields) : Completion where
  jobId := spec.jobId
  attemptNo := n
  token := token
  attemptStatus := .failed
  runStatus := .failed
  errorType := some errorType
  error := some error
  artifactPath := some artifact
  retryClass := some .nonRetryable
  runFields := fields

/-- The result handling after the lease has been confirmed. -/
def collectResult (n : Nat) (token : String) (r : AdapterReturn) : ExecPc :=
  match r.parsed with
  | .error message => executionError spec n token message
  | .ok result =>
    let fields := validationFields result r.processExitCode r.executionProvenance
    if result.parseStatus = .invalid then
      .finalize (failedResult spec n token r.artifact "parse_invalid" ("; ".intercalate result.errors) fields) (.body [])
    else if result.semanticStatus = .invalid then
      .finalize (failedResult spec n token r.artifact "semantic_invalid" ("; ".intercalate result.errors) fields)
        (.body result.metrics)
    else match r.processExitCode with
      | none =>
        .finalize (failedResult spec n token r.artifact "execution_outcome_unknown"
          "execution_outcome_unknown: adapter returned artifact without process exit code" fields) (.body result.metrics)
      | some code =>
        if code ≠ 0 then
          .finalize (failedResult spec n token r.artifact "tool_exit" ("tool_exit: exit code " ++ toString code) fields)
            (.body result.metrics)
        else
          .finalize
            { jobId := spec.jobId, attemptNo := n, token := token, attemptStatus := .succeeded, runStatus := .succeeded,
              artifactPath := some r.artifact, retryClass := some .notApplicable, runFields := fields }
            (.body result.metrics)

namespace ExecPc

/-- The store call `_execute` is at; `owner` is `self.execution_owner`. -/
def op (owner : Option ExecutionOwner) : ExecPc → Option StoreOp
  | start              => some (.updateRun spec.jobId { status := some .running })
  | record n           => some (.recordAttempt spec.jobId n .running none none none (some .notClassified))
  | acquire n t        => some (.acquireAttemptLease spec.jobId n svc.workerId t svc.leaseSeconds)
  | register n t e o   => some (.recordAttemptExecution spec.jobId n t o e)
  | enqueue n t e o    => some (.enqueueExecutionRequest e spec.jobId n o.hostId ⟨spec, t, o⟩)
  | observe n t o      =>
    some (.recordAttemptProcess spec.jobId n t o.child.pid o.startedAt o.identity o.processGroupId (some o.orphanDeadline))
  | collect n t _      => some (.heartbeatAttempt spec.jobId n t svc.leaseSeconds)
  | finalize c _       => some (.finalizeAttemptAndRun { c with executionOwner := owner })
  | transition n t k m =>
    some (.transitionAttempt spec.jobId n t .retryableFailure (some k) (some m) none (some .retryable))
  | metrics _ payload  => some (.saveMetrics spec.jobId payload)
  | _                  => none

/-- After an accepted lease: register the Host Agent's ownership, or go on without one. -/
def afterAcquire (owner : Option ExecutionOwner) (n : Nat) (token executionId : String) : ExecPc :=
  match owner with
  | some o => register n token executionId o
  | none   =>
    if svc.executionMode = .supervised then
      executionError spec n token "supervised execution requires a Host Agent owner"
    else launch n token

/-- Where the reply takes `_execute`; `fresh` is the `uuid4` it may draw there. -/
def resume (owner : Option ExecutionOwner) (fresh : String) (reply : Reply) : ExecPc → ExecPc
  | start => if 1 ≤ svc.maxAttempts then record 1 else returned
  | record n =>
    match reply with
    | .unit => acquire n fresh
    -- the handler's fence compares a NULL token and matches no row
    | _     => raised
  | acquire n t =>
    if reply = .flag true then afterAcquire svc spec owner n t fresh
    else executionError spec n t "attempt lease acquisition failed"
  | register n t e o =>
    if reply = .flag true then (if svc.executionMode = .supervised then enqueue n t e o else launch n t)
    else executionError spec n t "attempt execution owner registration failed"
  | enqueue n t _ _ =>
    if reply = .flag true then returned else executionError spec n t "execution request enqueue failed"
  | observe n t _ => adapter n t
  | collect n t r =>
    if reply = .flag true then collectResult spec n t r
    else executionError spec n t "attempt lease was lost before result collection"
  | finalize c (.body payload) =>
    if reply = .flag true then (if payload = [] then returned else metrics c.token payload)
    else executionError spec c.attemptNo c.token "attempt and run terminal write lost its lease fence"
  | finalize _ .handler => if reply = .flag true then returned else raised
  | transition n _ _ _ => if reply = .flag true then record (n + 1) else raised
  | metrics _ _ => returned
  | pc => pc

/-- The steps of `_execute` that call no store; `observed` is the group and `ps` line of the child as it stands, `births`
the next process's number. -/
def advance (clock : Time) (observed : Nat → Option (Nat × Option String)) (births : Nat) (inp : Input) :
    ExecPc → Option (ExecPc × Effect)
  | pending =>
    match inp with
    | .go => some (start, .none)
    | _   => none
  | launch n t =>
    match inp with
    | .go => some (adapter n t, .adapterRun)
    | _   => none
  | adapter n t =>
    match inp with
    | .child pid group identity => some (spawned n t ⟨pid, births⟩, .child pid group identity)
    | .returned r               => some (collect n t r, .none)
    | .raised e                 => some (adapterRaised svc spec n t e, .none)
    | _                         => none
  | spawned n t c =>
    match inp with
    | .ps answered =>
      some (observe n t
        { child := c, startedAt := clock,
          identity := if answered then (observed c.pid).bind (·.2) else none,
          processGroupId := (observed c.pid).map (·.1),
          orphanDeadline := clock + svc.orphanGraceSeconds }, .none)
    | _ => none
  | _ => none

end ExecPc

end Execute

/-! ## `submit` and `cancel` -/

inductive SubmitPc
  | lookup
  | limit
  | create
  | reread
  | dispatch
  | readback
  | returned (run : Option RunView)
  | conflict
  | backpressure
  | raised

namespace SubmitPc

variable (svc : Service) (specHash : JobSpec → String) (spec : JobSpec)

def op : SubmitPc → Option StoreOp
  | lookup   => some (.getRun spec.jobId)
  | create   =>
    some (.createRun spec.jobId spec.designId spec.ipFamily spec.flowName (some (specHash spec)) svc.maxInFlight
      (some spec))
  | reread   => some (.getRun spec.jobId)
  | readback => some (.getRun spec.jobId)
  | _        => none

/-- An existing Run is the submitter's where the hashes agree. -/
def existing (v : RunView) : SubmitPc :=
  if v.run.specHash ≠ some (specHash spec) then conflict else returned (some v)

def resume (reply : Reply) : SubmitPc → SubmitPc
  | lookup =>
    match reply with
    | .run (some v) => existing specHash spec v
    | _             => limit
  | create =>
    match reply with
    | .flag true  => if svc.executionMode = .local then dispatch else readback
    | .flag false => reread
    | _           => backpressure
  | reread =>
    match reply with
    | .run (some v) => existing specHash spec v
    | _             => raised
  | readback =>
    match reply with
    | .run v => returned v
    | _      => raised
  | pc => pc

/-- `inFlight` counts the futures of this service that are not done. -/
def advance (inFlight : Nat) : SubmitPc → Option (SubmitPc × Effect)
  | limit    =>
    match svc.maxInFlight with
    | none        => some (create, .none)
    | some budget => if budget ≤ inFlight then some (backpressure, .none) else some (create, .none)
  | dispatch => some (readback, .execute spec)
  | _        => none

end SubmitPc

/-- What `cancel` finds in `self.futures`: `future.cancel()` is `True` on one that has not started or was cancelled. -/
inductive FutureState
  | absent | cancellable | running | done
  deriving DecidableEq

inductive CancelPc
  | lookup
  | write
  | returned (cancelled : Bool)

namespace CancelPc

variable (jobId : String)

def op : CancelPc → Option StoreOp
  | write =>
    some (.updateRun jobId
      { status := some .cancelled, trustStatus := some .invalid, error := some (some "cancelled before execution") })
  | _ => none

def resume : CancelPc → CancelPc
  | write => returned true
  | pc    => pc

/-- The adapter's own answer is the input. -/
def advance (future : FutureState) (inp : Input) : CancelPc → Option (CancelPc × Effect)
  | lookup =>
    match future, inp with
    | .absent, _            => some (returned false, .none)
    | .cancellable, _       => some (write, .cancelFuture jobId)
    | _, .signal permitted  => some (returned permitted, .none)
    | _, _                  => none
  | _ => none

end CancelPc

end EdaLab
