import EdaLab.Worker
import Mathlib.Logic.Function.Basic
/-!
# System — any number of parties on one store

A thread is a party inside one call.  A step of the system is a store call of one thread, a step of one that calls no
store, the start of a party's call, the clock, or the operating system; so a run is an interleaving at the granularity of
single store operations, and a process that died is one whose threads take no further step.
-/
namespace EdaLab

inductive Thread
  | none
  | submit (svc : Nat) (spec : JobSpec) (pc : SubmitPc)
  | cancel (svc : Nat) (jobId : String) (pc : CancelPc)
  | exec (svc : Nat) (spec : JobSpec) (pc : ExecPc)
  | beat (b : Beat) (pc : BeatPc)
  | recover (svc : Nat) (pc : RecoverPc)
  | drain (svc : Nat) (d : Drain) (pc : DrainPc)
  | agent (svc : Nat) (self : ExecutionOwner) (d : Drain) (pc : AgentPc)
  | supervisor (sup : Supervisor) (pc : SupervisorPc)

def Thread.isNone : Thread → Bool
  | .none => true
  | _     => false

/-- A party at the start of a call. -/
def Thread.isEntry : Thread → Bool
  | .submit _ _ .lookup       => true
  | .cancel _ _ .lookup       => true
  | .recover _ (.enter _)     => true
  | .drain _ d .enter         => decide (d.active = []) && decide (d.completed = [])
  | .agent _ _ d .enter       => decide (d.active = []) && decide (d.completed = [])
  | .supervisor _ .claim      => true
  | _                         => false

/-- A process of the host; `birth` tells the processes of one id apart. -/
structure Process where
  birth    : Nat
  group    : Nat
  identity : Option String
  deriving DecidableEq

structure AdapterRun where
  jobId      : String
  attemptNo  : Nat
  supervised : Bool
  deriving DecidableEq

/-- What has happened: the Runs that a service kept to execute itself, the Runs and the requests handed out, the entries of
`adapter.run`. -/
structure History where
  kept        : List String := []
  claims      : List String := []
  requests    : List String := []
  adapterRuns : List AdapterRun := []
  deriving DecidableEq

structure Sys where
  clock     : Time
  db        : Db
  threads   : Nat → Thread
  owners    : Nat → Option ExecutionOwner
  futures   : Nat → List (String × Nat)
  processes : Nat → Option Process
  births    : Nat
  tokens    : List String
  /-- The child behind the process columns of an Attempt. -/
  recorded  : String × Nat → Option Child
  history   : History

def Sys.init : Sys where
  clock := 0
  db := Db.empty
  threads _ := .none
  owners _ := none
  futures _ := []
  processes _ := none
  births := 0
  tokens := []
  recorded _ := none
  history := {}

structure Config where
  backend  : Backend
  service  : Nat → Service
  specHash : JobSpec → String

namespace Sys

variable (s : Sys)

def execPc (k : Nat) : Option ExecPc :=
  match s.threads k with
  | .exec _ _ pc => some pc
  | _            => none

/-- `self.futures.get(job_id)`. -/
def future (svc : Nat) (jobId : String) : Option Nat := (s.futures svc).lookup jobId

/-- `future is not None and not future.done()`. -/
def live (svc : Nat) (jobId : String) : Bool :=
  (s.future svc jobId).any (fun k => (s.execPc k).any (fun pc => !pc.done))

def futureState (svc : Nat) (jobId : String) : FutureState :=
  match (s.future svc jobId).bind s.execPc with
  | none            => .absent
  | some .pending   => .cancellable
  | some .cancelled => .cancellable
  | some pc         => if pc.done then .done else .running

def inFlight (svc : Nat) : Nat := (s.futures svc).countP (fun f => (s.execPc f.2).any (fun pc => !pc.done))

def result (k : Nat) : Option FutureResult :=
  match s.execPc k with
  | some .returned  => some .value
  | some .raised    => some .error
  | some .cancelled => some .error
  | _               => none

def observed (pid : Nat) : Option (Nat × Option String) := (s.processes pid).map (fun p => (p.group, p.identity))

/-- The child is alive: the process of its id is the one that was started then. -/
def alive (c : Child) : Prop := ∃ p, s.processes c.pid = some p ∧ p.birth = c.birth

def beating (b : Beat) : Bool :=
  match s.threads b.parent with
  | .exec _ _ pc      => decide (pc.beating = some b.token)
  | .supervisor _ pc  => decide (pc.beating = some b.token)
  | _                 => false

/-- The session a heartbeat thread renews: the service's, or the request's. -/
def beatOwner (b : Beat) : Option String :=
  match s.threads b.parent with
  | .exec svc _ _ => (s.owners svc).map (·.sessionId)
  | .supervisor _ (.running req)     => some req.payload.executionOwner.sessionId
  | .supervisor _ (.started req _)   => some req.payload.executionOwner.sessionId
  | .supervisor _ (.witness req _ _) => some req.payload.executionOwner.sessionId
  | .supervisor _ (.finalize req _)  => some req.payload.executionOwner.sessionId
  | _ => none

/-- The child on record for the last Attempt of the Run a reply holds. -/
def lastChild : Reply → Option Child
  | .run (some v) => v.attempts.getLast?.bind (fun a => s.recorded a.key)
  | _             => none

end Sys

namespace Thread

variable (cfg : Config) (s : Sys)

/-- The store call a thread is at. -/
def op (locked : List String) : Thread → Option StoreOp
  | .submit svc spec pc     => pc.op (cfg.service svc) cfg.specHash spec
  | .cancel _ j pc          => pc.op j
  | .exec svc spec pc       => pc.op (cfg.service svc) spec (s.owners svc)
  | .beat b pc              => pc.op b
  | .recover svc pc         => pc.op (cfg.service svc)
  | .drain svc _ pc         => pc.op (cfg.service svc) (s.owners svc) locked
  | .agent svc self _ pc    => pc.op (cfg.service svc) self (s.owners svc) locked
  | .supervisor sup pc      => pc.op sup locked
  | .none                   => Option.none

def resume (fresh : String) (reply : Reply) : Thread → Thread
  | .submit svc spec pc     => .submit svc spec (pc.resume (cfg.service svc) cfg.specHash spec reply)
  | .cancel svc j pc        => .cancel svc j pc.resume
  | .exec svc spec pc       => .exec svc spec (pc.resume (cfg.service svc) spec (s.owners svc) fresh reply)
  | .beat b pc              => .beat b (pc.resume reply)
  | .recover svc pc         => .recover svc (pc.resume (s.lastChild reply) reply)
  | .drain svc d pc         => .drain svc d (pc.resume (cfg.service svc) (s.lastChild reply) reply d)
  | .agent svc self d pc    => .agent svc self d (pc.resume (cfg.service svc) (s.lastChild reply) reply d)
  | .supervisor sup pc      => .supervisor sup (pc.resume reply)
  | .none                   => .none

/-- A step that calls no store; `k` is the thread it may start. -/
def advance (k : Nat) (fresh : String) (inp : Input) : Thread → Option (Thread × Effect)
  | .submit svc spec pc =>
    (pc.advance (cfg.service svc) spec (s.inFlight svc)).map (fun x => (.submit svc spec x.1, x.2))
  | .cancel svc j pc => (pc.advance j (s.futureState svc j) inp).map (fun x => (.cancel svc j x.1, x.2))
  | .exec svc spec pc =>
    (pc.advance (cfg.service svc) spec s.clock s.observed s.births inp).map (fun x => (.exec svc spec x.1, x.2))
  | .beat b pc => (pc.advance (s.beating b) (s.beatOwner b)).map (fun x => (.beat b x, .none))
  | .recover svc pc =>
    (pc.advance (s.owners svc) (s.live svc) s.clock s.observed fresh inp).map (fun x => (.recover svc x, .none))
  | .drain svc d pc =>
    (pc.advance (cfg.service svc) (s.owners svc) (s.live svc) s.clock s.observed s.result k fresh inp d).map
      (fun x => (.drain svc x.1 x.2.1, x.2.2))
  | .agent svc self d pc =>
    (pc.advance (cfg.service svc) self (s.owners svc) (s.live svc) s.clock s.observed s.result k fresh inp d).map
      (fun x => (.agent svc self x.1 x.2.1, x.2.2))
  | .supervisor sup pc => (pc.advance inp).map (fun x => (.supervisor sup x.1, x.2))
  | .none => Option.none

/-- The heartbeat thread a thread that enters `adapter.run` has started, and the entry. -/
def adapterEntry (i : Nat) : Thread → Option (Beat × AdapterRun)
  | .exec svc spec (.adapter n t) =>
    some (⟨i, spec.jobId, n, t, (cfg.service svc).leaseSeconds⟩, ⟨spec.jobId, n, false⟩)
  | .supervisor sup (.running req) =>
    some (⟨i, req.jobId, req.attemptNo, req.payload.leaseToken, sup.leaseSeconds⟩, ⟨req.jobId, req.attemptNo, true⟩)
  | _ => Option.none

def service : Thread → Option Nat
  | .submit svc _ _  => some svc
  | .cancel svc _ _  => some svc
  | .exec svc _ _    => some svc
  | .recover svc _   => some svc
  | .drain svc _ _   => some svc
  | .agent svc _ _ _ => some svc
  | _                => Option.none

/-- The claim of a worker that this thread is at, if it is at one. -/
def isClaim : Thread → Bool
  | .drain _ _ .claim            => true
  | .agent _ _ _ (.drain .claim) => true
  | _                            => false

end Thread

inductive Act
  | tick (now : Time)
  | start (i : Nat) (th : Thread)
  | call (i : Nat) (fresh : String) (locked : List String)
  | advance (i k : Nat) (fresh : String) (inp : Input)
  | spawn (pid group : Nat) (identity : Option String)
  | exit (pid : Nat)

namespace Sys

variable (cfg : Config) (s : Sys)

/-- A `uuid4` is not empty and was not drawn before. -/
def isFresh (fresh : String) : Bool := decide (fresh ≠ "") && decide (fresh ∉ s.tokens)

/-- What a store call leaves on record. -/
def recordedAfter (th : Thread) (reply : Reply) : String × Nat → Option Child :=
  match th with
  | .exec _ spec (.observe n _ o) =>
    if reply = .flag true then Function.update s.recorded (spec.jobId, n) (some o.child) else s.recorded
  | _ => s.recorded

def historyAfter (th : Thread) (locked : List String) (reply : Reply) : History :=
  match th, reply with
  | .supervisor _ .claim, .request (some req) =>
    { s.history with requests := s.history.requests ++ [req.executionId] }
  | .submit svc spec .create, .flag true =>
    if (cfg.service svc).executionMode = .local then { s.history with kept := s.history.kept ++ [spec.jobId] } else s.history
  | _, .payload _ =>
    { s.history with claims := s.history.claims ++ ((PostgresStore.nextQueued s.db locked).map (·.jobId)).toList }
  | _, _ => s.history

/-- A store call of thread `i`. -/
def call (i : Nat) (fresh : String) (locked : List String) : Option Sys :=
  match (s.threads i).op cfg s locked with
  | none    => none
  | some op =>
    if s.isFresh fresh then
      some { s with
        db := op.after cfg.backend s.clock s.db
        threads := Function.update s.threads i
          ((s.threads i).resume cfg s fresh (op.reply cfg.backend s.clock s.db))
        tokens := fresh :: s.tokens
        recorded := s.recordedAfter (s.threads i) (op.reply cfg.backend s.clock s.db)
        history := s.historyAfter cfg (s.threads i) locked (op.reply cfg.backend s.clock s.db) }
    else none

/-- The thread `i` moved on to `th`. -/
def put (i : Nat) (fresh : String) (th : Thread) : Sys :=
  { s with threads := Function.update s.threads i th, tokens := fresh :: s.tokens }

/-- The executor takes an execution of the service as thread `k`. -/
def execute (svc k : Nat) (spec : JobSpec) : Sys :=
  { s with
    threads := Function.update s.threads k (.exec svc spec .pending)
    futures := Function.update s.futures svc
      ((spec.jobId, k) :: (s.futures svc).filter (fun f => decide (f.1 ≠ spec.jobId))) }

def cancelFuture (svc : Nat) (jobId : String) : Sys :=
  match s.future svc jobId with
  | none   => s
  | some k =>
    match s.threads k with
    | .exec v spec .pending => { s with threads := Function.update s.threads k (.exec v spec .cancelled) }
    | _                     => s

/-- What the step did outside its machine. -/
def apply (i k : Nat) (th : Thread) : Effect → Option Sys
  | .none => some s
  | .adapterRun =>
    match th.adapterEntry cfg i with
    | none          => none
    | some (b, run) =>
      if (s.threads k).isNone then
        some { s with
          threads := Function.update s.threads k (.beat b .wait)
          history := { s.history with adapterRuns := s.history.adapterRuns ++ [run] } }
      else none
  | .child pid group identity =>
    if (s.processes pid).isNone then
      some { s with
        processes := Function.update s.processes pid (some ⟨s.births, group, identity⟩)
        births := s.births + 1 }
    else none
  | .execute spec =>
    match th.service with
    | none     => none
    | some svc => if (s.threads k).isNone then some (s.execute svc k spec) else none
  | .cancelFuture jobId => th.service.map (fun svc => s.cancelFuture svc jobId)
  | .own owner => th.service.map (fun svc => { s with owners := Function.update s.owners svc (some owner) })

/-- A step of thread `i` that calls no store. -/
def proceed (i k : Nat) (fresh : String) (inp : Input) : Option Sys :=
  match (s.threads i).advance cfg s k fresh inp with
  | none           => none
  | some (th, eff) => if s.isFresh fresh then (s.put i fresh th).apply cfg i k th eff else none

def step : Act → Option Sys
  | .tick now => if s.clock ≤ now then some { s with clock := now } else none
  | .start i th =>
    if (s.threads i).isNone && th.isEntry then some { s with threads := Function.update s.threads i th } else none
  | .call i fresh locked => s.call cfg i fresh locked
  | .advance i k fresh inp => s.proceed cfg i k fresh inp
  | .spawn pid group identity =>
    if (s.processes pid).isNone then
      some { s with
        processes := Function.update s.processes pid (some ⟨s.births, group, identity⟩)
        births := s.births + 1 }
    else none
  | .exit pid => some { s with processes := Function.update s.processes pid none }

end Sys

end EdaLab
