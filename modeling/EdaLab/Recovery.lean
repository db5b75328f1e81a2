import EdaLab.Service
/-!
# Recovery — `recover_stale_runs`, one call at a time

The scan reads the expired leases, the stale ids and each of their Runs first, and decides about an Attempt from that
snapshot; the claim, the probe of the child and the finalization come later.
-/
namespace EdaLab

/-- The result lists. -/
structure RecoveryReport where
  recovered                  : List String := []
  skippedLive                : List String := []
  skippedLiveChild           : List String := []
  skippedActiveLease         : List String := []
  skippedRecoveryClaim       : List String := []
  orphanTerminationRequested : List String := []
  deferredRemoteExecution    : List String := []
  deriving DecidableEq

/-- What `get_run` returned, and the child its last Attempt had on record (the columns name the process id only). -/
structure Snapshot where
  view  : RunView
  child : Option Child
  deriving DecidableEq

def Snapshot.jobId (x : Snapshot) : String := x.view.run.jobId

/-- The loop: the expired leases, the Runs still to visit, the lists so far. -/
structure Scan where
  expired : List (String × Nat)
  rest    : List Snapshot
  report  : RecoveryReport := {}
  deriving DecidableEq

/-- Which list a released claim puts the Run in. -/
inductive ReleaseReason
  | liveChild | terminationRequested
  deriving DecidableEq

inductive RecoverPc
  | enter (staleAfterSeconds : Time)
  | expired (cutoff : Time)
  | stale (cutoff : Time) (expired : List (String × Nat))
  | read (expired : List (String × Nat)) (ids : List String) (runs : List Snapshot)
  | scan (sc : Scan)
  | failNoAttempt (sc : Scan) (run : Snapshot)
  | gate (sc : Scan) (run : Snapshot) (a : AttemptRow)
  | lease (sc : Scan) (run : Snapshot) (a : AttemptRow)
  | claim (sc : Scan) (run : Snapshot) (a : AttemptRow) (token : String)
  | probe (sc : Scan) (run : Snapshot) (a : AttemptRow) (token : String) (pid : Nat)
  | inspect (sc : Scan) (run : Snapshot) (a : AttemptRow) (token : String) (pid : Nat)
  | kill (sc : Scan) (run : Snapshot) (a : AttemptRow) (token : String) (pid : Nat)
  | release (sc : Scan) (run : Snapshot) (a : AttemptRow) (token : String) (why : ReleaseReason)
  | witness (sc : Scan) (run : Snapshot) (a : AttemptRow) (token : String)
  | finalize (sc : Scan) (run : Snapshot) (a : AttemptRow) (token errorType error : String)
  | returned (report : RecoveryReport)
  | raised
  deriving DecidableEq

namespace RecoverPc

def noAttemptError : String := "recovery: stale RUNNING record without an Attempt"

/-- `orphan_deadline_identity_unknown`. -/
def finalizeOrphan (sc : Scan) (run : Snapshot) (a : AttemptRow) (token : String) : RecoverPc :=
  finalize sc run a token "orphan_deadline_identity_unknown"
    "recovery: orphan deadline expired without a safely terminable child identity"

section

variable (svc : Service)

def op : RecoverPc → Option StoreOp
  | expired _                  => some .listExpiredLeasedAttempts
  | stale cutoff _             => some (.staleRunning cutoff)
  | read _ (id :: _) _         => some (.getRun id)
  | failNoAttempt _ run        =>
    some (.updateRun run.jobId { status := some .failed, error := some (some noAttemptError) })
  | gate _ _ a                 => some (.getTerminationWitness a.executionId)
  | claim _ run a t            =>
    some (.claimRecovery run.jobId a.attemptNo svc.workerId t svc.recoveryLeaseSeconds)
  | release _ run a t _        => some (.releaseRecoveryClaim run.jobId a.attemptNo t)
  | witness _ _ a _            => some (.getTerminationWitness a.executionId)
  | finalize _ run a t k m     => some (.finalizeRecovery run.jobId a.attemptNo t k m)
  | _                          => none

end

/-- Where the reply takes the scan; `child` is the child on record for the last Attempt of the Run just read. -/
def resume (child : Option Child) (reply : Reply) : RecoverPc → RecoverPc
  | expired cutoff =>
    match reply with
    | .attempts ks => stale cutoff ks
    | _            => raised
  | stale _ es =>
    match reply with
    | .jobIds ids => read es ids []
    | _           => raised
  | read es (_ :: ids) runs =>
    match reply with
    | .run (some v) => read es ids (runs ++ [⟨v, child⟩])
    | _             => read es ids runs
  | failNoAttempt sc run =>
    scan { sc with report := { sc.report with recovered := sc.report.recovered ++ [run.jobId] } }
  | gate sc run a =>
    match reply with
    | .witness (some _) => lease sc run a
    | _                 => scan { sc with report := { sc.report with
        deferredRemoteExecution := sc.report.deferredRemoteExecution ++ [run.jobId] } }
  | claim sc run a t =>
    if reply = .flag true then
      match a.processPid with
      | some pid => probe sc run a t pid
      | none     => witness sc run a t
    else scan { sc with report := { sc.report with
      skippedRecoveryClaim := sc.report.skippedRecoveryClaim ++ [run.jobId] } }
  | release sc run _ _ .liveChild =>
    scan { sc with report := { sc.report with skippedLiveChild := sc.report.skippedLiveChild ++ [run.jobId] } }
  | release sc run _ _ .terminationRequested =>
    scan { sc with report := { sc.report with
      orphanTerminationRequested := sc.report.orphanTerminationRequested ++ [run.jobId] } }
  | witness sc run a t =>
    match reply with
    | .witness (some _) =>
      finalize sc run a t "supervisor_terminated"
        "recovery: supervised execution ended without an accepted completion"
    | _ => finalize sc run a t "worker_unavailable" "recovery: stale RUNNING record without live worker"
  | finalize sc run _ _ _ _ =>
    if reply = .flag true then
      scan { sc with report := { sc.report with recovered := sc.report.recovered ++ [run.jobId] } }
    else scan { sc with report := { sc.report with
      skippedRecoveryClaim := sc.report.skippedRecoveryClaim ++ [run.jobId] } }
  | pc => pc

/-- The Attempt is of a Host Agent session that is not this service's. -/
def foreign (owner : Option ExecutionOwner) (a : AttemptRow) : Bool :=
  truthy a.executionHostSession && owner.all (fun o => decide (a.executionHostSession ≠ some o.sessionId))

/-- The body of the loop down to its first store call; `live` is "the future is there and not done". -/
def visit (owner : Option ExecutionOwner) (live : String → Bool) (sc : Scan) (run : Snapshot) : RecoverPc :=
  if live run.jobId then
    scan { sc with report := { sc.report with skippedLive := sc.report.skippedLive ++ [run.jobId] } }
  else match run.view.attempts.getLast? with
    | none   => failNoAttempt sc run
    | some a => if foreign owner a then gate sc run a else lease sc run a

/-- The steps of the scan that call no store; `observed` is the group and `ps` line of a process. -/
def advance (owner : Option ExecutionOwner) (live : String → Bool) (clock : Time)
    (observed : Nat → Option (Nat × Option String)) (fresh : String) (inp : Input) : RecoverPc → Option RecoverPc
  | enter staleAfter  => some (expired (clock - staleAfter))
  | read es [] runs   => some (scan { expired := es, rest := runs })
  | scan sc           =>
    match sc.rest with
    | []          => some (returned sc.report)
    | run :: rest => some (visit owner live { sc with rest := rest } run)
  | lease sc run a    =>
    if truthy a.leaseToken && decide ((run.jobId, a.attemptNo) ∉ sc.expired) then
      some (scan { sc with report := { sc.report with
        skippedActiveLease := sc.report.skippedActiveLease ++ [run.jobId] } })
    else some (claim sc run a fresh)
  -- `os.kill(pid, 0)`: no such process, not permitted (which nothing catches), or there
  | probe sc run a t pid =>
    match observed pid, inp with
    | none, _                 => some (witness sc run a t)
    | some _, .signal true    => some (inspect sc run a t pid)
    | some _, .signal false   => some raised
    | some _, _               => none
  | inspect sc run a t pid =>
    match inp with
    | .ps answered =>
      let identity := if answered then (observed pid).bind (·.2) else none
      let identityMatches := decide (a.processIdentity = none ∨ a.processIdentity = identity)
      let deadlineExpired := a.orphanDeadline.any (fun d => decide (d ≤ clock))
      if !deadlineExpired then some (release sc run a t .liveChild)
      else if identityMatches && decide (a.processGroupId = some pid) then some (kill sc run a t pid)
      else some (finalizeOrphan sc run a t)
    | .psRaised => some raised
    | _         => none
  | kill sc run a t _ =>
    match inp with
    | .signal true  => some (release sc run a t .terminationRequested)
    | .signal false => some (finalizeOrphan sc run a t)
    | _             => none
  | _ => none

end RecoverPc

end EdaLab
