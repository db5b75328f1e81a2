import EdaLab.Recovery
/-!
# Worker — `PostgresWorker`, `HostAgent`, the heartbeat threads and `ExecutionSupervisor`

`drain` is a recovery scan, the release of terminal deliveries and the claim loop; `HostAgent.drain` puts a session
heartbeat and the refresh of its queued deliveries before it, once.
-/
namespace EdaLab

/-! ## `PostgresWorker.drain` -/

structure Drain where
  maxJobs     : Option Nat
  concurrency : Nat
  active      : List (Nat × String) := []
  completed   : List String := []
  deriving DecidableEq

inductive DrainPc
  | enter
  | recovering (r : RecoverPc)
  | releaseTerminal
  | loop
  | capacity
  | slots
  | wait
  | claim
  | dispatch (spec : JobSpec)
  | collect (rest : List (Nat × String))
  | returned
  | raised
  deriving DecidableEq

/-- How a future ended. -/
inductive FutureResult
  | value | error
  deriving DecidableEq

namespace DrainPc

variable (svc : Service)

def op (owner : Option ExecutionOwner) (locked : List String) : DrainPc → Option StoreOp
  | recovering r    => r.op svc
  | releaseTerminal => some .releaseTerminalExecutionRequests
  | capacity        => owner.map (fun o => .countActiveExecutionRequests o.hostId)
  | claim           => some (.claimNextRun locked)
  | _               => none

/-- After a step of the scan: on with the drain once it has returned. -/
def ofRecover : RecoverPc → DrainPc
  | .returned _ => releaseTerminal
  | .raised     => raised
  | r           => recovering r

def resume (child : Option Child) (reply : Reply) (d : Drain) : DrainPc → DrainPc
  | recovering r    => ofRecover (r.resume child reply)
  | releaseTerminal => loop
  | capacity =>
    match svc.maxInFlight, reply with
    | some budget, .rowcount n => if budget ≤ n then collect d.active else slots
    | _, _                     => raised
  | claim =>
    match reply with
    | .payload (some spec) => dispatch spec
    | _                    => collect d.active
  | pc => pc

/-- The steps of the drain that call no store; `result` is how a future of this service ended, if it has, and `self` the
thread the executor gives the next execution. -/
def advance (owner : Option ExecutionOwner) (live : String → Bool) (clock : Time)
    (observed : Nat → Option (Nat × Option String)) (result : Nat → Option FutureResult) (child : Nat) (fresh : String)
    (inp : Input) (d : Drain) : DrainPc → Option (Drain × DrainPc × Effect)
  | enter =>
    some (d, if d.concurrency < 1 then raised else recovering (.enter svc.leaseSeconds), .none)
  | recovering r => (r.advance owner live clock observed fresh inp).map (fun r => (d, ofRecover r, .none))
  | loop =>
    if d.maxJobs.all (fun m => decide (d.completed.length + d.active.length < m)) then
      some (d, if svc.executionMode = .supervised ∧ owner.isSome then capacity else slots, .none)
    else some (d, collect d.active, .none)
  | slots => some (d, if d.concurrency ≤ d.active.length then wait else claim, .none)
  | wait =>
    if d.active.any (fun f => (result f.1).isSome) then
      some ({ d with
        active := d.active.filter (fun f => (result f.1).isNone)
        completed := d.completed ++ (d.active.filter (fun f => (result f.1).isSome)).map (·.2) }, loop, .none)
    else none
  | dispatch spec => some ({ d with active := d.active ++ [(child, spec.jobId)] }, loop, .execute spec)
  | collect [] => some (d, returned, .none)
  | collect (f :: rest) =>
    match result f.1 with
    | some .value => some ({ d with completed := d.completed ++ [f.2] }, collect rest, .none)
    | some .error => some (d, raised, .none)
    | none        => none
  | _ => none

end DrainPc

/-! ## `HostAgent.drain` -/

inductive AgentPc
  | enter
  | start
  | own
  | session
  | refresh
  | drain (pc : DrainPc)
  | raised
  deriving DecidableEq

namespace AgentPc

variable (svc : Service) (self : ExecutionOwner)

def op (owner : Option ExecutionOwner) (locked : List String) : AgentPc → Option StoreOp
  | start    => some (.startHostSession self svc.leaseSeconds)
  | session  => some (.heartbeatHostSession self.sessionId svc.leaseSeconds)
  | refresh  => some (.heartbeatQueuedExecutionAttempts self.sessionId svc.leaseSeconds)
  | drain pc => pc.op svc owner locked
  | _        => none

def resume (child : Option Child) (reply : Reply) (d : Drain) : AgentPc → AgentPc
  | start    => if reply = .unit then own else raised
  | session  => if reply = .flag true then refresh else raised
  | refresh  => drain .enter
  | drain pc => drain (pc.resume svc child reply d)
  | pc       => pc

/-- `started` once the service has this owner. -/
def advance (owner : Option ExecutionOwner) (live : String → Bool) (clock : Time)
    (observed : Nat → Option (Nat × Option String)) (result : Nat → Option FutureResult) (child : Nat) (fresh : String)
    (inp : Input) (d : Drain) : AgentPc → Option (Drain × AgentPc × Effect)
  | enter => some (d, if owner = some self then session else start, .none)
  | own   =>
    if owner.all (fun o => decide (o = self)) && (decide (self.hostId ≠ "") && decide (self.hostEpoch ≠ "") &&
        decide (self.sessionId ≠ "")) then some (d, session, .own self)
    else some (d, raised, .none)
  | drain pc =>
    (pc.advance svc owner live clock observed result child fresh inp d).map (fun x => (x.1, drain x.2.1, x.2.2))
  | _ => none

end AgentPc

/-! ## Heartbeat threads -/

/-- `_heartbeat_loop` of the service and of the supervisor: the latter's session comes with the request. -/
structure Beat where
  parent       : Nat
  jobId        : String
  attemptNo    : Nat
  token        : String
  leaseSeconds : Time
  deriving DecidableEq

inductive BeatPc
  | wait
  | session (sessionId : String)
  | attempt
  | stopped
  deriving DecidableEq

namespace BeatPc

variable (b : Beat)

def op : BeatPc → Option StoreOp
  | session s => some (.heartbeatHostSession s b.leaseSeconds)
  | attempt   => some (.heartbeatAttempt b.jobId b.attemptNo b.token b.leaseSeconds)
  | _         => none

def resume (reply : Reply) : BeatPc → BeatPc
  | session _ => if reply = .flag true then attempt else stopped
  | attempt   => if reply = .flag true then wait else stopped
  | pc        => pc

/-- `beating` is that the stop event is not set. -/
def advance (beating : Bool) (owner : Option String) : BeatPc → Option BeatPc
  | wait =>
    if beating then
      match owner with
      | some s => some (session s)
      | none   => some attempt
    else some stopped
  | _ => none

end BeatPc

/-! ## `ExecutionSupervisor.run_once` -/

structure Supervisor where
  hostId       : String
  supervisorId : String
  leaseSeconds : Time
  deriving DecidableEq

structure Witness where
  kind            : WitnessKind
  processExitCode : Option Int
  artifactPath    : Option String
  detail          : String
  deriving DecidableEq

inductive SupervisorPc
  | claim
  | ready (req : ExecutionRequestRow)
  | running (req : ExecutionRequestRow)
  | started (req : ExecutionRequestRow) (pid : Nat)
  | witness (req : ExecutionRequestRow) (w : Witness) (result : Option AdapterReturn)
  | finalize (req : ExecutionRequestRow) (c : Completion)
  | returned (executionId : Option String)
  | raised

namespace SupervisorPc

variable (sup : Supervisor)

/-- The Attempt the supervisor's heartbeat thread runs for. -/
def beating : SupervisorPc → Option String
  | running req | started req _ | witness req _ _ | finalize req _ => some req.payload.leaseToken
  | _ => none

def op (locked : List String) : SupervisorPc → Option StoreOp
  | claim           => some (.claimExecutionRequest sup.hostId sup.supervisorId locked)
  | started req pid => some (.recordSupervisorProcessStarted req.executionId sup.supervisorId pid)
  | witness req w _ =>
    some (.recordTerminationWitness req.executionId w.kind w.processExitCode w.artifactPath w.detail)
  | finalize _ c    => some (.finalizeAttemptAndRun c)
  | _               => none

def adapterFailed (req : ExecutionRequestRow) (message : String) : SupervisorPc :=
  witness req ⟨.runtimeTerminated, none, none, "supervisor observed execution error: " ++ message⟩ none

/-- The completion of an adapter's return. -/
def completion (req : ExecutionRequestRow) (r : AdapterReturn) (parsed : ParseResult) : Completion :=
  if parsed.parseStatus = .ok ∧ parsed.semanticStatus = .valid ∧ r.processExitCode = some 0 then
    { jobId := req.jobId, attemptNo := req.attemptNo, token := req.payload.leaseToken, attemptStatus := .succeeded,
      runStatus := .succeeded, artifactPath := some r.artifact, retryClass := some .notApplicable,
      runFields := validationFields parsed r.processExitCode r.executionProvenance,
      executionOwner := some req.payload.executionOwner }
  else
    { jobId := req.jobId, attemptNo := req.attemptNo, token := req.payload.leaseToken, attemptStatus := .failed,
      runStatus := .failed, errorType := some "supervisor_validation_failed",
      error := some "supervisor rejected execution result", artifactPath := some r.artifact,
      retryClass := some .nonRetryable, runFields := validationFields parsed r.processExitCode r.executionProvenance,
      executionOwner := some req.payload.executionOwner }

def resume (reply : Reply) : SupervisorPc → SupervisorPc
  | claim =>
    match reply with
    | .request (some req) => ready req
    | _                   => returned none
  | started req _ =>
    if reply = .flag true then running req else adapterFailed req "supervisor could not record child start"
  | witness req _ result =>
    match result with
    | none   => raised
    | some r =>
      match r.parsed with
      | .ok parsed => finalize req (completion req r parsed)
      | .error _   => raised
  | finalize req _ => if reply = .flag true then returned (some req.executionId) else raised
  | pc => pc

def advance (inp : Input) : SupervisorPc → Option (SupervisorPc × Effect)
  | ready req =>
    match inp with
    | .go => some (running req, .adapterRun)
    | _   => none
  | running req =>
    match inp with
    | .child pid group identity => some (started req pid, .child pid group identity)
    | .returned r               =>
      match r.result with
      -- a bare path has no `process_exit_code` to read
      | .path _   => some (raised, .none)
      | .result x =>
        some (witness req ⟨.processExited, x.processExitCode, some x.artifactPath, "supervisor observed adapter return"⟩
          (some r), .none)
    | .raised (.cancelled m)  => some (adapterFailed req m, .none)
    | .raised (.timeout m)    => some (adapterFailed req m, .none)
    | .raised (.connection m) => some (adapterFailed req m, .none)
    | .raised (.other m)      => some (adapterFailed req m, .none)
    | _                       => none
  | _ => none

end SupervisorPc

end EdaLab
