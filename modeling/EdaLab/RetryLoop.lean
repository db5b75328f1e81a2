import EdaLab.Execution
import EdaLab.Submission
import EdaLab.Trust
/-!
# RetryLoop — the Attempts of one execution

`_execute` from its first statement on, among any other parties: how often it calls the adapter, what its Attempts and its
Run end as, and what becomes of the resource slots it takes (`retry_loop_outcome`).
-/
namespace EdaLab

/-! ## Outcomes -/

/-- How a call of `adapter.run` ends: a result, with what is read at its artifact path, or an exception. -/
inductive Outcome
  | result (r : AdapterResult) (report : Except String ByteArray)
  | raised (e : AdapterError)

namespace Outcome

variable (py : Interpreter)

/-- The result, with what `parse_report` makes of its artifact. -/
def returned (r : AdapterResult) (report : Except String ByteArray) : AdapterReturn :=
  ⟨r, report.bind (fun payload => (parseReport py payload).mapError PyError.text)⟩

def input : Outcome → Input
  | result r report => .returned (returned py r report)
  | raised e        => .raised e

/-- `except (TimeoutError, ConnectionError)`. -/
def isRetryable : Outcome → Bool
  | raised (.timeout _)    => true
  | raised (.connection _) => true
  | _                      => false

/-- Exit 0, parse `OK` and semantic `VALID`. -/
def isTrusted : Outcome → Bool
  | result r report =>
    match (returned py r report).parsed with
    | .ok p    =>
      decide ((returned py r report).processExitCode = some 0 ∧ p.parseStatus = .ok ∧ p.semanticStatus = .valid)
    | .error _ => false
  | raised _ => false

/-- What a Run ends as whose last outcome this is. -/
def runStatus : Outcome → RunStatus
  | raised (.timeout _)   => .timedOut
  | raised (.cancelled _) => .cancelled
  | x                     => if x.isTrusted py then .succeeded else .failed

end Outcome

/-- The first index in `1..N` with an outcome that is not retried, or `N` if there is none. -/
def callCount (N : Nat) (o : Nat → Outcome) : Nat := ((List.range' 1 N).find? (fun n => !(o n).isRetryable)).getD N

theorem callCount_eq {N n : Nat} {o : Nat → Outcome} (hpos : 1 ≤ n) (hle : n ≤ N)
    (hretried : ∀ i, 1 ≤ i → i < n → (o i).isRetryable = true) (hlast : n = N ∨ (o n).isRetryable = false) :
    callCount N o = n := by
  unfold callCount
  cases hfind : (List.range' 1 N).find? (fun n => !(o n).isRetryable) with
  | none =>
    rcases hlast with rfl | hlast
    · rfl
    · have hn := List.find?_eq_none.1 hfind n (by simp [List.mem_range'_1]; omega)
      rw [hlast] at hn
      exact absurd rfl hn
  | some k =>
    obtain ⟨hk, hmem, hbefore⟩ := List.find?_range'_eq_some.1 hfind
    simp only [Bool.not_eq_true', List.mem_range'_1] at hk hmem hbefore
    simp only [Option.getD_some]
    rcases Nat.lt_trichotomy k n with hlt | heq | hgt
    · rw [hretried k hmem.1 hlt] at hk
      cases hk
    · exact heq
    · have hn := hbefore n hpos hgt
      rcases hlast with rfl | hlast
      · omega
      · rw [hlast] at hn
        cases hn

/-! ## The execution and what it has done -/

/-- A use of `resource_slots`. -/
inductive SlotEvent
  | acquire | release
  deriving DecidableEq

/-- The system, with the execution's local `acquired`, its uses of the resource slots and its calls of `adapter.run`. -/
structure RetryLoop where
  sys      : Sys
  acquired : Bool := false
  slots    : List SlotEvent := []
  calls    : Nat := 0

/-- Inside the `try` statement of an Attempt. -/
def ExecPc.inTry : ExecPc → Bool
  | pending | start | returned | raised | cancelled => false
  | _                                               => true

/-- The `finally` clause is run on the way: the next Attempt begins, or `_execute` ends. -/
def ExecPc.leaves (pc pc' : ExecPc) : Bool :=
  pc.inTry && match pc' with
    | record _ | returned | raised => true
    | _                            => false

namespace RetryLoop

/-- What the execution does on the way from `pc` to `pc'`; `resourceSlots` is whether the service has a semaphore. -/
def note (resourceSlots : Bool) (pc pc' : ExecPc) (m : RetryLoop) : RetryLoop :=
  match pc with
  | .launch _ _ =>
    if resourceSlots then { m with acquired := true, slots := m.slots ++ [.acquire], calls := m.calls + 1 }
    else { m with calls := m.calls + 1 }
  | pc => if pc.leaves pc' && m.acquired then { m with acquired := false, slots := m.slots ++ [.release] } else m

def step (cfg : Config) (resourceSlots : Bool) (q : Nat) (m : RetryLoop) (a : Act) : Option RetryLoop :=
  (Sys.step cfg m.sys a).map (fun s' =>
    match a.isOf q, m.sys.execPc q, s'.execPc q with
    | true, some pc, some pc' => note resourceSlots pc pc' { m with sys := s' }
    | _, _, _                 => { m with sys := s' })

/-- `future.done()`. -/
def done (q : Nat) (m : RetryLoop) : Bool := (m.sys.execPc q).any ExecPc.done

@[simp] theorem note_sys (b : Bool) (pc pc' : ExecPc) (m : RetryLoop) : (note b pc pc' m).sys = m.sys := by
  unfold note
  split
  · split <;> rfl
  · split <;> rfl

theorem note_launch_calls (b : Bool) (n : Nat) (t : String) (pc' : ExecPc) (m : RetryLoop) :
    (note b (.launch n t) pc' m).calls = m.calls + 1 := by
  cases b <;> rfl

theorem note_calls {b : Bool} {pc pc' : ExecPc} {m : RetryLoop} (h : ∀ n t, pc ≠ .launch n t) :
    (note b pc pc' m).calls = m.calls := by
  unfold note
  split
  · exact absurd rfl (h _ _)
  · split <;> rfl

end RetryLoop

def Db.attemptStatus (db : Db) (j : String) (n : Nat) : Option AttemptStatus := (db.attempts.get (j, n)).map (·.status)

def Db.runStatus (db : Db) (j : String) : Option RunStatus := (db.runs.get j).map (·.status)

/-- A store call has succeeded: it has not raised, and a guarded write has found its row. -/
def Reply.succeeded : Reply → Bool
  | .flag b   => b
  | .raised _ => false
  | _         => true

/-- `adapter.run` returns or raises. -/
def Input.endsRun : Input → Bool
  | .returned _ => true
  | .raised _   => true
  | _           => false

/-- Nobody else writes the job, the store calls of the execution succeed, and the adapter's calls end as `o` says.  The
heartbeats of its lease keep the status of its Attempt. -/
structure Undisturbed (cfg : Config) (py : Interpreter) (q : Nat) (j : String) (o : Nat → Outcome) (m : RetryLoop)
    (a : Act) :
    Prop where
  alone : ∀ i fresh locked s', a = .call i fresh locked → i ≠ q → Sys.step cfg m.sys a = some s' →
    s'.db.runs.get j = m.sys.db.runs.get j ∧ ∀ n, s'.db.attemptStatus j n = m.sys.db.attemptStatus j n
  succeeds : ∀ fresh locked op, a = .call q fresh locked → (m.sys.threads q).op cfg m.sys locked = some op →
    (op.reply cfg.backend m.sys.clock m.sys.db).succeeded = true
  outcome : ∀ k fresh inp, a = .advance q k fresh inp → inp.endsRun = true → inp = (o m.calls).input py

/-- What `_execute` leaves of the job whose adapter calls end as `o` says. -/
structure LoopEnded (py : Interpreter) (N : Nat) (o : Nat → Outcome) (j : String) (calls : Nat) (db : Db) : Prop where
  calls : calls = callCount N o
  retried : ∀ n, 1 ≤ n → n < callCount N o → db.attemptStatus j n = some .retryableFailure
  last : db.attemptStatus j (callCount N o) = some .retryableFailure ↔ (o (callCount N o)).isRetryable = true
  run : db.runStatus j = some ((o (callCount N o)).runStatus py)
  trusted : ∀ r, db.runs.get j = some r → r.trustStatus = .trusted → r.status = .succeeded

/-- The steps the execution makes, and those of them that start a child of its adapter. -/
def ownSteps (q : Nat) (acts : List Act) : Nat := acts.countP (fun a => a.isOf q)

def Act.startsChild (q : Nat) : Act → Bool
  | .advance i _ _ (.child _ _ _) => decide (i = q)
  | _                             => false

/-- A step of its own that the execution can make, and that ends the adapter's call, if it does, as `o` says. -/
def RetryLoop.CanMove (cfg : Config) (py : Interpreter) (resourceSlots : Bool) (q : Nat) (o : Nat → Outcome)
    (m : RetryLoop) :
    Prop :=
  ∃ a, a.isOf q = true ∧
    (∀ k fresh inp, a = .advance q k fresh inp → inp.endsRun = true → inp = (o m.calls).input py) ∧
    (RetryLoop.step cfg resourceSlots q m a).isSome = true

/-- **The outcome of the retry loop**, for an execution that starts in `s`. -/
structure RetryLoopOutcome (cfg : Config) (py : Interpreter) (resourceSlots : Bool) (q svc : Nat) (spec : JobSpec)
    (o : Nat → Outcome) (s : Sys) : Prop where
  /-- Once it is over, undisturbed, the calls, the Attempts and the Run are those of the outcomes. -/
  ended : ∀ acts m, Trace.run (RetryLoop.step cfg resourceSlots q) { sys := s } acts = some m →
    Trace.Every (RetryLoop.step cfg resourceSlots q) (Undisturbed cfg py q spec.jobId o) { sys := s } acts →
    m.done q = true → LoopEnded py (cfg.service svc).maxAttempts o spec.jobId m.calls m.sys.db
  /-- Once it is over, on any path, each slot taken has been released once. -/
  released : ∀ acts m, Trace.run (RetryLoop.step cfg resourceSlots q) { sys := s } acts = some m → m.done q = true →
    m.slots = (List.replicate (if resourceSlots then m.calls else 0) [SlotEvent.acquire, .release]).flatten
  /-- It makes no more steps than its Attempts and its adapter's children take. -/
  bounded : ∀ acts m, Trace.run (RetryLoop.step cfg resourceSlots q) { sys := s } acts = some m →
    ownSteps q acts ≤ 10 * (cfg.service svc).maxAttempts + 1 + 3 * acts.countP (Act.startsChild q)
  /-- Until it is over it has a step to make, once the adapter's call ends. -/
  moves : ∀ acts m, Trace.run (RetryLoop.step cfg resourceSlots q) { sys := s } acts = some m → m.done q = false →
    (∃ k, (m.sys.threads k).isNone = true) → m.CanMove cfg py resourceSlots q o

/-! ## One step -/

section Steps

variable {cfg : Config} {b : Bool} {q svc : Nat} {spec : JobSpec} {m m' : RetryLoop} {a : Act} {pc : ExecPc}

theorem execPc_of_thread {s : Sys} (h : s.threads q = .exec svc spec pc) : s.execPc q = some pc := by
  unfold Sys.execPc
  rw [h]

/-- What a step leaves of an execution that has begun. -/
inductive RetryLoop.Change (cfg : Config) (b : Bool) (q svc : Nat) (spec : JobSpec) (m : RetryLoop) (a : Act) (pc : ExecPc) :
    RetryLoop → Prop
  | other (s' : Sys) (not_own : a.isOf q = false) (stepped : Sys.step cfg m.sys a = some s')
      (thread_eq : s'.threads q = .exec svc spec pc) : Change cfg b q svc spec m a pc { m with sys := s' }
  | called (fresh : String) (locked : List String) (op : StoreOp) (pc' : ExecPc) (s' : Sys)
      (is_act : a = .call q fresh locked)
      (call : Sys.Called cfg m.sys q fresh locked op s')
      (op_eq : pc.op (cfg.service svc) spec (m.sys.owners svc) = some op)
      (pc_eq : pc' = pc.resume (cfg.service svc) spec (m.sys.owners svc) fresh (op.reply cfg.backend m.sys.clock m.sys.db))
      (thread_eq : s'.threads q = .exec svc spec pc') : Change cfg b q svc spec m a pc (note b pc pc' { m with sys := s' })
  | advanced (k : Nat) (fresh : String) (inp : Input) (pc' : ExecPc) (eff : Effect) (s' : Sys)
      (is_act : a = .advance q k fresh inp)
      (adv_eq : pc.advance (cfg.service svc) spec m.sys.clock m.sys.observed m.sys.births inp = some (pc', eff))
      (db_eq : s'.db = m.sys.db) (thread_eq : s'.threads q = .exec svc spec pc') :
      Change cfg b q svc spec m a pc (note b pc pc' { m with sys := s' })

theorem Act.isOf_other {s s' : Sys} (h : Sys.step cfg s a = some s') (hq : s.threads q = .exec svc spec pc)
    (hbegun : pc ≠ .pending) (hown : a.isOf q = false) : s'.threads q = .exec svc spec pc := by
  cases thread_after q h with
  | same heq => rw [heq, hq]
  | entered th _ hnone => rw [hq] at hnone; cases hnone
  | called fresh locked op hact => rw [hact] at hown; simp [Act.isOf] at hown
  | advanced k fresh inp th eff hact => rw [hact] at hown; simp [Act.isOf] at hown
  | executed i fresh inp th spec' v _ _ _ hnone => rw [hq] at hnone; cases hnone
  | beat i fresh inp th b' run _ _ _ hnone => rw [hq] at hnone; cases hnone
  | cancelled v spec' hpend =>
    rw [hq] at hpend
    cases hpend
    exact absurd rfl hbegun

theorem RetryLoop.step_cases (h : RetryLoop.step cfg b q m a = some m') (hq : m.sys.threads q = .exec svc spec pc)
    (hbegun : pc ≠ .pending) : Change cfg b q svc spec m a pc m' := by
  obtain ⟨s', hs', rfl⟩ := Option.map_eq_some_iff.1 h
  cases hown : a.isOf q with
  | false => exact .other s' hown hs' (Act.isOf_other hs' hq hbegun hown)
  | true =>
    obtain ⟨pc', hq'⟩ := exec_persists hs' hq
    simp only [execPc_of_thread hq, execPc_of_thread hq']
    cases a with
    | call i fresh locked =>
      obtain rfl : i = q := of_decide_eq_true hown
      obtain ⟨op, hc⟩ := Sys.call_some hs'
      have hop := hc.is_op
      have hthread := hc.threads_eq
      rw [hq] at hop hthread
      have hpc := congrFun hthread i
      rw [hq', Function.update_self] at hpc
      cases hpc
      exact .called fresh locked op _ s' rfl hc hop rfl hq'
    | advance i k fresh inp =>
      obtain rfl : i = q := of_decide_eq_true hown
      obtain ⟨th, eff, hadv, hth⟩ := advanced_thread hs'
      have hdb : s'.db = m.sys.db := by
        rcases Sys.step_db hs' with hdb | ⟨_, _, _, _, hact, _⟩
        · exact hdb
        · cases hact
      have hx := hadv.advance_eq
      rw [hq] at hx
      obtain ⟨⟨pc₁, eff₁⟩, hy, hy'⟩ := Option.map_eq_some_iff.1 hx
      rw [hq'] at hth
      cases hy'
      cases hth
      exact .advanced k fresh inp _ _ s' rfl hy hdb hq'
    | _ => cases hown

end Steps

/-! ## Where an undisturbed execution stands -/

section Follows

variable {py : Interpreter} {N n : Nat} {o : Nat → Outcome} {j : String} {db db' : Db} {u : AttemptUpdate}

/-- The Attempts before the `n`-th have been retried. -/
structure Underway (N : Nat) (o : Nat → Outcome) (j : String) (db : Db) (n : Nat) : Prop where
  pos : 1 ≤ n
  le : n ≤ N
  retried : ∀ i, 1 ≤ i → i < n → (o i).isRetryable = true ∧ db.attemptStatus j i = some .retryableFailure
  untrusted : ∀ r, db.runs.get j = some r → r.trustStatus ≠ .trusted

/-- The completion of the last Attempt. -/
structure LastCompletion (py : Interpreter) (N : Nat) (o : Nat → Outcome) (j : String) (c : Completion) : Prop where
  job : c.jobId = j
  last : c.attemptNo = N ∨ (o c.attemptNo).isRetryable = false
  attempt : c.attemptStatus = .retryableFailure ↔ (o c.attemptNo).isRetryable = true
  run : c.runStatus = (o c.attemptNo).runStatus py
  trusted : c.fields.trustStatus = some .trusted → c.runStatus = .succeeded

/-- What is so at a program counter, after so many calls of the adapter. -/
def ExecPc.Follows (py : Interpreter) (N : Nat) (o : Nat → Outcome) (j : String) (calls : Nat) (db : Db) : ExecPc → Prop
  | start            => calls = 0 ∧ ∀ r, db.runs.get j = some r → r.trustStatus ≠ .trusted
  | record n         => calls + 1 = n ∧ Underway N o j db n
  | acquire n _      => calls + 1 = n ∧ Underway N o j db n
  | register n _ _ _ => calls + 1 = n ∧ Underway N o j db n
  | launch n _       => calls + 1 = n ∧ Underway N o j db n
  | adapter n _      => calls = n ∧ Underway N o j db n
  | spawned n _ _    => calls = n ∧ Underway N o j db n
  | observe n _ _    => calls = n ∧ Underway N o j db n
  | collect n _ r    => calls = n ∧ Underway N o j db n ∧ (o n).input py = .returned r
  | transition n _ _ _ => calls = n ∧ Underway N o j db n ∧ n < N ∧ (o n).isRetryable = true
  | finalize c _     => calls = c.attemptNo ∧ Underway N o j db c.attemptNo ∧ LastCompletion py N o j c
  | metrics _ _      => LoopEnded py N o j calls db
  | returned         => LoopEnded py N o j calls db
  | _                => False

theorem Underway.congr (h : Underway N o j db n) (hrun : db'.runs.get j = db.runs.get j)
    (hattempts : ∀ i, i < n → db'.attemptStatus j i = db.attemptStatus j i) : Underway N o j db' n where
  pos := h.pos
  le := h.le
  retried i hi hlt := ⟨(h.retried i hi hlt).1, by rw [hattempts i hlt]; exact (h.retried i hi hlt).2⟩
  untrusted r hr := h.untrusted r (by rw [← hrun]; exact hr)

theorem LoopEnded.congr {calls : Nat} (h : LoopEnded py N o j calls db) (hrun : db'.runs.get j = db.runs.get j)
    (hattempts : ∀ i, db'.attemptStatus j i = db.attemptStatus j i) : LoopEnded py N o j calls db' where
  calls := h.calls
  retried i hi hlt := by rw [hattempts]; exact h.retried i hi hlt
  last := by rw [hattempts]; exact h.last
  run := by unfold Db.runStatus; rw [hrun]; exact h.run
  trusted r hr := h.trusted r (by rw [← hrun]; exact hr)

/-- What is so stays so where the Run and the statuses of the Attempts stay. -/
theorem ExecPc.Follows.congr {pc : ExecPc} {calls : Nat} (h : pc.Follows py N o j calls db)
    (hrun : db'.runs.get j = db.runs.get j) (hattempts : ∀ i, db'.attemptStatus j i = db.attemptStatus j i) :
    pc.Follows py N o j calls db' := by
  cases pc with
  | start => exact ⟨h.1, fun r hr => h.2 r (by rw [← hrun]; exact hr)⟩
  | collect n t r => exact ⟨h.1, h.2.1.congr hrun (fun i _ => hattempts i), h.2.2⟩
  | transition n t k e => exact ⟨h.1, h.2.1.congr hrun (fun i _ => hattempts i), h.2.2⟩
  | finalize c scope => exact ⟨h.1, h.2.1.congr hrun (fun i _ => hattempts i), h.2.2⟩
  | metrics t payload => exact LoopEnded.congr h hrun hattempts
  | returned => exact LoopEnded.congr h hrun hattempts
  | pending => exact h
  | enqueue => exact h
  | raised => exact h
  | cancelled => exact h
  | _ => exact ⟨h.1, h.2.congr hrun (fun i _ => hattempts i)⟩

/-- A statement on one Attempt leaves the others. -/
theorem attemptStatus_exec {i : Nat} (hkey : u.key = (j, n)) (hi : i ≠ n) :
    (u.exec db).1.attemptStatus j i = db.attemptStatus j i := by
  unfold Db.attemptStatus
  rw [u.get_exec db]
  cases db.attempts.get (j, i) with
  | none => rfl
  | some a =>
    have hne : ¬ (u.key = (j, i) ∧ u.guard a = true) := by
      rintro ⟨hk, -⟩
      rw [hkey] at hk
      exact hi (Prod.mk.inj hk).2.symm
    rw [Option.map_some, if_neg hne]

theorem Underway.exec (h : Underway N o j db n) (hkey : u.key = (j, n)) : Underway N o j (u.exec db).1 n :=
  h.congr rfl (fun _ hlt => attemptStatus_exec hkey (Nat.ne_of_lt hlt))

/-- The Attempt a statement writes that takes effect. -/
theorem attemptStatus_exec_key {st : AttemptStatus} (hkey : u.key = (j, n)) (htrue : (u.exec db).2 = true)
    (hwrite : ∀ a, (u.write a).status = st) : (u.exec db).1.attemptStatus j n = some st := by
  obtain ⟨a, ha, hg⟩ := (u.exec_true_iff db).1 htrue
  unfold Db.attemptStatus
  rw [← hkey, u.get_exec_key db ha hg, Option.map_some, hwrite]

/-! ### The completions -/

theorem callCount_underway (h : Underway N o j db n) (hlast : n = N ∨ (o n).isRetryable = false) : callCount N o = n :=
  callCount_eq h.pos h.le (fun i hi hlt => (h.retried i hi hlt).1) hlast

/-- `except Exception`. -/
theorem executionError_last (N : Nat) (spec : JobSpec) (t message : String) (hretry : (o n).isRetryable = false)
    (hrun : (o n).runStatus py = .failed) : ∃ c scope, executionError spec n t message = .finalize c scope ∧
      c.attemptNo = n ∧ LastCompletion py N o spec.jobId c :=
  ⟨_, _, rfl, rfl, rfl, Or.inr hretry, ⟨nofun, fun h => absurd (hretry.symm.trans h) Bool.false_ne_true⟩, hrun.symm, nofun⟩

theorem adapterRaised_follows {svc : Service} {spec : JobSpec} {t : String} {e : AdapterError}
    (h : Underway svc.maxAttempts o spec.jobId db n) (ho : o n = .raised e) :
    (adapterRaised svc spec n t e).Follows py svc.maxAttempts o spec.jobId n db := by
  cases e with
  | cancelled message =>
    have hretry : (o n).isRetryable = false := by rw [ho]; rfl
    refine ⟨rfl, h, rfl, Or.inr hretry, ⟨nofun, fun hr => absurd (hretry.symm.trans hr) Bool.false_ne_true⟩, ?_, nofun⟩
    rw [ho]
    rfl
  | timeout message =>
    have hretry : (o n).isRetryable = true := by rw [ho]; rfl
    unfold adapterRaised
    by_cases hlt : n < svc.maxAttempts
    · simp only [if_pos hlt]
      exact ⟨rfl, h, hlt, hretry⟩
    · simp only [if_neg hlt]
      refine ⟨rfl, h, rfl, Or.inl (Nat.le_antisymm h.le (Nat.le_of_not_lt hlt)), iff_of_true rfl hretry, ?_, nofun⟩
      rw [ho]
      rfl
  | connection message =>
    have hretry : (o n).isRetryable = true := by rw [ho]; rfl
    unfold adapterRaised
    by_cases hlt : n < svc.maxAttempts
    · simp only [if_pos hlt]
      exact ⟨rfl, h, hlt, hretry⟩
    · simp only [if_neg hlt]
      refine ⟨rfl, h, rfl, Or.inl (Nat.le_antisymm h.le (Nat.le_of_not_lt hlt)), iff_of_true rfl hretry, ?_, nofun⟩
      rw [ho]
      rfl
  | other message =>
    have hretry : (o n).isRetryable = false := by rw [ho]; rfl
    have hrun : (o n).runStatus py = .failed := by rw [ho]; rfl
    obtain ⟨c, scope, hc, hn, hs⟩ := executionError_last svc.maxAttempts spec t message hretry hrun
    subst hn
    rw [adapterRaised, hc]
    exact ⟨rfl, h, hs⟩

/-- A result that is returned: its outcome, and whether that is trusted. -/
theorem returned_outcome {r : AdapterReturn} (hin : (o n).input py = .returned r) :
    (o n).isRetryable = false ∧ (∀ message, r.parsed = .error message → (o n).runStatus py = .failed) ∧
    ∀ p, r.parsed = .ok p → p.Judged ∧ (o n).runStatus py =
      if r.processExitCode = some 0 ∧ p.parseStatus = .ok ∧ p.semanticStatus = .valid then .succeeded else .failed := by
  cases ho : o n with
  | raised e => rw [ho] at hin; cases hin
  | result x report =>
    rw [ho] at hin
    obtain rfl : Outcome.returned py x report = r := Input.returned.inj hin
    refine ⟨rfl, fun message hp => ?_, fun p hp => ⟨?_, ?_⟩⟩
    · simp only [Outcome.runStatus, Outcome.isTrusted, hp, Bool.false_eq_true, if_false]
    · cases report with
      | error message => cases hp
      | ok payload =>
        obtain ⟨p', hparse, hjudged⟩ := parseReport_ok py payload
        have hp' : (parseReport py payload).mapError PyError.text = .ok p := hp
        rw [hparse] at hp'
        cases hp'
        exact hjudged
    · simp only [Outcome.runStatus, Outcome.isTrusted, hp, decide_eq_true_eq]

theorem trustStatus_trusted {p : ParseResult} {code : Option Int} (h : trustStatus p code = .trusted) :
    code = some 0 ∧ p.parseStatus = .ok ∧ p.semanticStatus = .valid := by
  unfold trustStatus at h
  split at h
  · cases h
  · cases code with
    | none => cases h
    | some c =>
      simp only at h
      split at h
      · cases h
      · rename_i hzero
        split at h
        · cases h
        · split at h
          · rename_i hvalid
            exact ⟨congrArg some (not_not.1 hzero), hvalid⟩
          · cases h

/-- **The result handling**: it finalizes, and stores what the outcome is worth. -/
theorem collectResult_last (spec : JobSpec) (t : String) {r : AdapterReturn} (hin : (o n).input py = .returned r) :
    ∃ c scope, collectResult spec n t r = .finalize c scope ∧ c.attemptNo = n ∧ LastCompletion py N o spec.jobId c := by
  obtain ⟨hretry, herror, hok⟩ := returned_outcome hin
  unfold collectResult
  cases hp : r.parsed with
  | error message => exact executionError_last N spec t message hretry (herror message hp)
  | ok p =>
    obtain ⟨hjudged, hstatus⟩ := hok p hp
    have hfailed : ∀ et e, ¬ (r.processExitCode = some 0 ∧ p.parseStatus = .ok ∧ p.semanticStatus = .valid) →
        LastCompletion py N o spec.jobId
          (failedResult spec n t r.artifact et e (validationFields p r.processExitCode r.executionProvenance)) := by
      intro et e hno
      refine ⟨rfl, Or.inr hretry, ⟨nofun, fun h => absurd (hretry.symm.trans h) Bool.false_ne_true⟩, ?_, fun h => ?_⟩
      · exact (hstatus.trans (if_neg hno)).symm
      · exact absurd (trustStatus_trusted (Option.some.inj h)) hno
    simp only
    by_cases hparse : p.parseStatus = .invalid
    · rw [if_pos hparse]
      exact ⟨_, _, rfl, rfl, hfailed _ _ (fun h => by rw [hparse] at h; cases h.2.1)⟩
    · rw [if_neg hparse]
      by_cases hsem : p.semanticStatus = .invalid
      · rw [if_pos hsem]
        exact ⟨_, _, rfl, rfl, hfailed _ _ (fun h => by rw [hsem] at h; cases h.2.2)⟩
      · rw [if_neg hsem]
        -- neither INVALID: the report is one that is parsed and VALID
        have hvalid : p.parseStatus = .ok ∧ p.semanticStatus = .valid := by
          rcases hjudged with ⟨h, -, -⟩ | ⟨h, -, h' | h'⟩
          · exact absurd h hparse
          · exact ⟨h, h'⟩
          · exact absurd h' hsem
        cases hx : r.processExitCode with
        | none =>
          rw [hx] at hfailed
          exact ⟨_, _, rfl, rfl, hfailed _ _ nofun⟩
        | some code =>
          rw [hx] at hfailed hstatus
          simp only
          by_cases hcode : code = 0
          · rw [if_neg (not_not.2 hcode)]
            subst hcode
            refine ⟨_, _, rfl, rfl, rfl, Or.inr hretry,
              ⟨nofun, fun h => absurd (hretry.symm.trans h) Bool.false_ne_true⟩, ?_,
              fun _ => rfl⟩
            exact (hstatus.trans (if_pos ⟨rfl, hvalid⟩)).symm
          · rw [if_pos hcode]
            exact ⟨_, _, rfl, rfl, hfailed _ _ (fun h => hcode (Option.some.inj h.1))⟩

/-! ### The calls -/

/-- **An accepted completion** ends the loop. -/
theorem LastCompletion.ended {b : Backend} {now : Time} {c : Completion} {owner : Option ExecutionOwner}
    (h : LastCompletion py N o j c)
    (hu : Underway N o j db c.attemptNo)
    (hreply : (StoreOp.finalizeAttemptAndRun { c with executionOwner := owner }).reply b now db = .flag true) :
    LoopEnded py N o j c.attemptNo ((StoreOp.finalizeAttemptAndRun { c with executionOwner := owner }).after b now db) := by
  have hcalls := callCount_underway hu h.last
  have hfin : (StoreOp.finalizeAttemptAndRun { c with executionOwner := owner }).finalizer now db =
      some ⟨Store.completeAttempt db now { c with executionOwner := owner }, c.jobId, c.fields⟩ := rfl
  cases finalizer_cases b hfin with
  | noAttempt _ hno => rw [hno] at hreply; cases hreply
  | noRun _ _ hno => rw [hno] at hreply; cases hreply
  | accepted henabled hrunning _ rest _ hafter =>
    rw [hafter]
    have hkey : (Store.completeAttempt db now { c with executionOwner := owner }).key = (j, c.attemptNo) := by
      rw [← h.job]
      rfl
    obtain ⟨r, hr, hstatus⟩ := hrunning
    have hget : (((Store.completeAttempt db now { c with executionOwner := owner }).exec db).1.updateRuns now c.jobId
        Store.runIsRunning c.fields).1.runs.get j = some (c.fields.write now r) := by
      rw [Db.get_updateRuns, AttemptUpdate.exec_runs, ← h.job]
      simp only [hr, Option.map_some, Store.runIsRunning, hstatus, decide_true, and_self, if_true]
    refine ⟨hcalls.symm, fun i hi hlt => ?_, ?_, ?_, fun r' hr' htrust => ?_⟩
    · rw [hcalls] at hlt
      exact (attemptStatus_exec hkey (Nat.ne_of_lt hlt)).trans (hu.retried i hi hlt).2
    · have hlast := attemptStatus_exec_key hkey (((AttemptUpdate.exec_true_iff _ _)).2 henabled) (fun a => rfl)
      rw [hcalls, ← h.attempt]
      refine Iff.trans (Eq.congr_left hlast) ?_
      exact Option.some_inj
    · unfold Db.runStatus
      rw [hget, hcalls, ← h.run]
      rfl
    · obtain rfl : c.fields.write now r = r' := Option.some.inj (hget.symm.trans hr')
      show c.runStatus = .succeeded
      refine h.trusted ?_
      have huntrusted := hu.untrusted r (by rw [← h.job]; exact hr)
      cases hf : c.fields.trustStatus with
      | none =>
        simp only [RunFields.write, hf, Option.getD_none] at htrust
        exact absurd htrust huntrusted
      | some t =>
        simp only [RunFields.write, hf, Option.getD_some] at htrust
        rw [htrust]

/-- The first call leaves the job's trust as it was. -/
theorem start_underway (b : Backend) (now : Time) (hN : 1 ≤ N) (h : ∀ r, db.runs.get j = some r → r.trustStatus ≠ .trusted) :
    Underway N o j ((StoreOp.updateRun j { status := some .running }).after b now db) 1 where
  pos := le_refl 1
  le := hN
  retried i hi hlt := absurd hlt (by omega)
  untrusted r hr := by
    cases runs_after b now db (.updateRun j { status := some .running }) j with
    | same hsame => exact h r (by rw [← hsame]; exact hr)
    | updated fields r₀ hop hr₀ hget =>
      cases hop
      rw [hr] at hget
      cases hget
      exact h r₀ hr₀
    | created _ _ _ _ _ _ hop => cases hop
    | claimed _ _ hop => cases hop
    | closed _ _ hop => cases hop

/-- A guarded write that succeeds is one that takes effect. -/
theorem succeeded_flag {x : Db × Bool} (h : (Reply.ofFlag x).2.succeeded = true) : (Reply.ofFlag x).2 = .flag true :=
  congrArg Reply.flag h

/-- **A call of the execution that succeeds** takes it on. -/
theorem ExecPc.Follows.call {b : Backend} {now : Time} {svc : Service} {spec : JobSpec} {owner : Option ExecutionOwner}
    {pc : ExecPc} {op : StoreOp} {calls : Nat} (fresh : String) (hN : 1 ≤ svc.maxAttempts)
    (hmode : svc.executionMode ≠ .supervised) (hop : pc.op svc spec owner = some op)
    (hok : (op.reply b now db).succeeded = true) (h : pc.Follows py svc.maxAttempts o spec.jobId calls db) :
    (pc.resume svc spec owner fresh (op.reply b now db)).Follows py svc.maxAttempts o spec.jobId calls
      (op.after b now db) := by
  cases pc with
  | start =>
    cases hop
    simp only [ExecPc.resume, if_pos hN]
    exact ⟨by rw [h.1], start_underway b now hN h.2⟩
  | record n =>
    cases hop
    obtain ⟨hcalls, hu⟩ := h
    by_cases hr : (db.runs.get spec.jobId).isSome = true
    · obtain ⟨hreply, hruns, hget⟩ := recordAttempt_get b now n .running none none none (some .notClassified) hr
      rw [hreply]
      refine ⟨hcalls, hu.congr (by rw [hruns]) (fun i hlt => ?_)⟩
      unfold Db.attemptStatus
      rw [hget, if_neg (fun heq => Nat.ne_of_gt hlt (Prod.mk.inj heq).2)]
    · simp only [StoreOp.reply, StoreOp.exec, Store.recordAttempt, hr, Reply.ofExcept, Reply.succeeded] at hok
      cases hok
  | acquire n t =>
    cases hop
    have hu := h.2.exec (u := Store.acquireAttemptLease now spec.jobId n svc.workerId t svc.leaseSeconds) rfl
    simp only [ExecPc.resume, StoreOp.reply, StoreOp.exec, succeeded_flag hok, if_true]
    cases owner with
    | none =>
      simp only [ExecPc.afterAcquire, if_neg hmode]
      exact ⟨h.1, hu⟩
    | some w => exact ⟨h.1, hu⟩
  | register n t e w =>
    cases hop
    have hu := h.2.exec (u := Store.recordAttemptExecution db now spec.jobId n t w e) rfl
    simp only [ExecPc.resume, StoreOp.reply, StoreOp.exec, succeeded_flag hok, if_true, if_neg hmode]
    exact ⟨h.1, hu⟩
  | observe n t x =>
    cases hop
    exact ⟨h.1, h.2.exec (u := Store.recordAttemptProcess now spec.jobId n t x.child.pid x.startedAt x.identity
      x.processGroupId (some x.orphanDeadline)) rfl⟩
  | collect n t r =>
    cases hop
    obtain ⟨hcalls, hu, hin⟩ := h
    obtain ⟨c, scope, hc, hn, hs⟩ := collectResult_last (N := svc.maxAttempts) spec t hin
    have hu' := hu.exec (u := Store.heartbeatAttempt now spec.jobId n t svc.leaseSeconds) rfl
    simp only [ExecPc.resume, StoreOp.reply, StoreOp.exec, succeeded_flag hok, if_true, hc]
    subst hn
    exact ⟨hcalls, hu', hs⟩
  | finalize c scope =>
    cases hop
    obtain ⟨rfl, hu, hs⟩ := h
    have hreply : (StoreOp.finalizeAttemptAndRun { c with executionOwner := owner }).reply b now db = .flag true :=
      succeeded_flag hok
    have hend := hs.ended hu hreply
    cases scope with
    | handler =>
      simp only [ExecPc.resume, hreply, if_true]
      exact hend
    | body payload =>
      simp only [ExecPc.resume, hreply, if_true]
      split
      · exact hend
      · exact hend
  | transition n t k e =>
    cases hop
    obtain ⟨hcalls, hu, hlt, hretry⟩ := h
    generalize hupd : Store.transitionAttempt now spec.jobId n t .retryableFailure (some k) (some e) none
      (some .retryable) = u
    have hkey : u.key = (spec.jobId, n) := by rw [← hupd]; rfl
    have hwrite : ∀ a, (u.write a).status = .retryableFailure := by rw [← hupd]; exact fun a => rfl
    have htrue : (u.exec db).2 = true := by rw [← hupd]; exact hok
    have hafter : (StoreOp.transitionAttempt spec.jobId n t .retryableFailure (some k) (some e) none
      (some .retryable)).after b
        now db = (u.exec db).1 := by rw [← hupd]; rfl
    have hu' := hu.exec hkey
    rw [hafter]
    simp only [ExecPc.resume, StoreOp.reply, StoreOp.exec, succeeded_flag hok, if_true]
    refine ⟨by omega, by omega, hlt, fun i hi hlt' => ?_, hu'.untrusted⟩
    rcases Nat.lt_succ_iff_lt_or_eq.1 hlt' with hlt' | rfl
    · exact hu'.retried i hi hlt'
    · exact ⟨hretry, attemptStatus_exec_key hkey htrue hwrite⟩
  | enqueue => exact h.elim
  | metrics t payload =>
    cases hop
    exact LoopEnded.congr h rfl (fun i => rfl)
  | _ => cases hop

/-- **A step of the execution that calls no store** takes it on; its launch is a call of the adapter. -/
theorem ExecPc.Follows.advance {svc : Service} {spec : JobSpec} {clock : Time}
    {observed : Nat → Option (Nat × Option String)}
    {births : Nat} {inp : Input} {pc pc' : ExecPc} {eff : Effect} (m : RetryLoop) (resourceSlots : Bool)
    (hadv : pc.advance svc spec clock observed births inp = some (pc', eff))
    (hin : inp.endsRun = true → inp = (o m.calls).input py)
    (h : pc.Follows py svc.maxAttempts o spec.jobId m.calls db) :
    pc'.Follows py svc.maxAttempts o spec.jobId (RetryLoop.note resourceSlots pc pc' m).calls db := by
  cases pc with
  | launch n t =>
    cases inp with
    | go =>
      cases hadv
      exact ⟨(RetryLoop.note_launch_calls ..).trans h.1, h.2⟩
    | _ => cases hadv
  | adapter n t =>
    obtain ⟨hcalls, hu⟩ := h
    rw [RetryLoop.note_calls (fun _ _ h => by cases h), hcalls]
    cases inp with
    | child pid group identity =>
      cases hadv
      exact ⟨rfl, hu⟩
    | returned r =>
      cases hadv
      have hr := hin rfl
      rw [hcalls] at hr
      exact ⟨rfl, hu, hr.symm⟩
    | raised e =>
      have hr := hin rfl
      rw [hcalls] at hr
      have ho : o n = .raised e := by
        cases ho : o n with
        | result x report => rw [ho] at hr; cases hr
        | raised e' => rw [ho] at hr; cases hr; rfl
      obtain ⟨rfl, -⟩ := Prod.mk.inj (Option.some.inj hadv)
      exact adapterRaised_follows hu ho
    | _ => cases hadv
  | spawned n t c =>
    cases inp with
    | ps answered =>
      cases hadv
      rw [RetryLoop.note_calls (fun _ _ h => by cases h)]
      exact h
    | _ => cases hadv
  | pending => exact h.elim
  | _ => cases hadv

end Follows

/-! ## Whole runs -/

section Runs

variable {cfg : Config} {py : Interpreter} {resourceSlots : Bool} {q svc : Nat} {spec : JobSpec} {o : Nat → Outcome}
  {m m' : RetryLoop} {a : Act}

/-- An undisturbed execution stands where its program counter says. -/
def RetryLoop.OnCourse (cfg : Config) (py : Interpreter) (q svc : Nat) (spec : JobSpec) (o : Nat → Outcome) (m : RetryLoop) :
    Prop :=
  ∃ pc, m.sys.threads q = .exec svc spec pc ∧
    pc.Follows py (cfg.service svc).maxAttempts o spec.jobId m.calls m.sys.db

theorem onCourse_step (hN : 1 ≤ (cfg.service svc).maxAttempts) (hmode : (cfg.service svc).executionMode ≠ .supervised)
    (hm : m.OnCourse cfg py q svc spec o) (hc : Undisturbed cfg py q spec.jobId o m a)
    (h : RetryLoop.step cfg resourceSlots q m a = some m') : m'.OnCourse cfg py q svc spec o := by
  obtain ⟨pc, hq, hf⟩ := hm
  have hbegun : pc ≠ .pending := by rintro rfl; exact hf
  cases RetryLoop.step_cases h hq hbegun with
  | other s' hown hs' hq' =>
    have hsame : s'.db.runs.get spec.jobId = m.sys.db.runs.get spec.jobId ∧
        ∀ n, s'.db.attemptStatus spec.jobId n = m.sys.db.attemptStatus spec.jobId n := by
      rcases Sys.step_db hs' with hdb | ⟨i, fresh, locked, op, rfl, -⟩
      · rw [hdb]
        exact ⟨rfl, fun _ => rfl⟩
      · exact hc.alone i fresh locked s' rfl (of_decide_eq_false hown) hs'
    exact ⟨pc, hq', hf.congr hsame.1 hsame.2⟩
  | called fresh locked op pc' s' hact hcall hop hpc hq' =>
    refine ⟨pc', by rw [RetryLoop.note_sys]; exact hq', ?_⟩
    have hok := hc.succeeds fresh locked op hact hcall.is_op
    have hnext := hf.call fresh hN hmode hop hok
    have hlaunch : ∀ n t, pc ≠ .launch n t := by
      rintro n t rfl
      cases hop
    rw [RetryLoop.note_calls hlaunch, RetryLoop.note_sys, hcall.db_eq, hpc]
    exact hnext
  | advanced k fresh inp pc' eff s' hact hadv hdb hq' =>
    refine ⟨pc', by rw [RetryLoop.note_sys]; exact hq', ?_⟩
    have hnext := hf.advance { m with sys := s' } resourceSlots hadv (hc.outcome k fresh inp hact)
    rw [RetryLoop.note_sys, hdb]
    exact hnext

/-- **An undisturbed execution that is over** has left what its outcomes say. -/
theorem onCourse_ended (hm : m.OnCourse cfg py q svc spec o) (hdone : m.done q = true) :
    LoopEnded py (cfg.service svc).maxAttempts o spec.jobId m.calls m.sys.db := by
  obtain ⟨pc, hq, hf⟩ := hm
  unfold RetryLoop.done at hdone
  rw [execPc_of_thread hq] at hdone
  cases pc with
  | returned => exact hf
  | raised => exact hf.elim
  | cancelled => exact hf.elim
  | _ => cases hdone

/-! ### The resource slots -/

/-- No slot is held here: the Attempt has not taken one, or its `finally` clause has been run. -/
def ExecPc.slotless : ExecPc → Bool
  | pending | start | record _ | acquire _ _ | register _ _ _ _ | enqueue _ _ _ _ | launch _ _ => true
  | returned | raised | cancelled                                                            => true
  | _                                                                                        => false

/-- Each slot taken before has been released once, and the one that is held has not. -/
structure SlotsKept (b : Bool) (pc : ExecPc) (m : RetryLoop) (k : Nat) : Prop where
  slots_eq : m.slots = (List.replicate k [SlotEvent.acquire, .release]).flatten ++
    if m.acquired then [.acquire] else []
  calls_eq : b = true → m.calls = k + if m.acquired then 1 else 0
  unused : b = false → k = 0 ∧ m.acquired = false
  free : pc.slotless = true → m.acquired = false

/-- A begun execution stays one. -/
theorem ExecPc.Resumed.not_pending {svc : Service} {owner : Option ExecutionOwner} {fresh : String} {reply : Reply}
    {pc pc' : ExecPc} (h : ExecPc.Resumed svc spec owner fresh reply pc pc') (hbegun : pc ≠ .pending) : pc' ≠ .pending := by
  rintro rfl
  cases h with
  | idle => exact hbegun rfl

/-- The way out of the section that holds a slot is through the `finally` clause. -/
theorem ExecPc.Resumed.leaves {svc : Service} {owner : Option ExecutionOwner} {fresh : String} {reply : Reply}
    {pc pc' : ExecPc} (h : ExecPc.Resumed svc spec owner fresh reply pc pc') (hheld : pc.slotless = false)
    (hfree : pc'.slotless = true) : pc.leaves pc' = true := by
  cases h with
  | idle =>
    rw [hheld] at hfree
    cases hfree
  | settled => rfl
  | unsettled => rfl
  | retried => rfl
  | unretried => rfl
  | saved => rfl
  | observed => cases hfree
  | collected => cases hfree
  | measured => cases hfree
  | refused => cases hfree
  | _ => cases hheld

/-- A step that calls no store does not go there. -/
theorem ExecPc.Advance.held {svc : Service} {births : Nat} {pc pc' : ExecPc} {eff : Effect}
    (h : ExecPc.Advance svc spec births pc pc' eff) (hbegun : pc ≠ .pending) : pc'.slotless = false := by
  cases h with
  | begin => exact absurd rfl hbegun
  | raised n t e =>
    rcases adapterRaised_cases svc spec n t e with ⟨k, x, heq⟩ | ⟨c, heq, -⟩
    · rw [heq]
      rfl
    · rw [heq]
      rfl
  | _ => rfl

/-- A step that launches nothing, and runs the `finally` clause where it leaves with a slot. -/
theorem SlotsKept.note {b : Bool} {pc : ExecPc} {k : Nat} (h : SlotsKept b pc m k) (pc' : ExecPc)
    (hlaunch : ∀ n t, pc ≠ .launch n t)
    (hleaves : m.acquired = true → pc'.slotless = true → pc.leaves pc' = true) :
    ∃ k', SlotsKept b pc' (RetryLoop.note b pc pc' m) k' := by
  unfold RetryLoop.note
  split
  · exact absurd rfl (hlaunch _ _)
  · by_cases hrelease : (pc.leaves pc' && m.acquired) = true
    · obtain ⟨-, hacquired⟩ := Bool.and_eq_true_iff.1 hrelease
      rw [if_pos hrelease]
      refine ⟨k + 1, ?_, fun hb => ?_, fun hb => ?_, fun _ => rfl⟩
      · have hslots := h.slots_eq
        rw [hacquired, if_pos rfl] at hslots
        simp [hslots, List.replicate_succ', List.append_assoc]
      · have hcalls := h.calls_eq hb
        rw [hacquired, if_pos rfl] at hcalls
        exact hcalls
      · exact absurd ((h.unused hb).2.symm.trans hacquired) Bool.false_ne_true
    · rw [if_neg hrelease]
      refine ⟨k, h.slots_eq, h.calls_eq, h.unused, fun hfree => ?_⟩
      cases hacquired : m.acquired with
      | false => rfl
      | true =>
        rw [hacquired, hleaves hacquired hfree] at hrelease
        exact absurd rfl hrelease

/-- A launch takes one. -/
theorem SlotsKept.launch {b : Bool} {n k : Nat} {t : String} (h : SlotsKept b (.launch n t) m k) :
    SlotsKept b (.adapter n t) (RetryLoop.note b (.launch n t) (.adapter n t) m) k := by
  have hfree := h.free rfl
  have hslots := h.slots_eq
  rw [hfree, if_neg Bool.false_ne_true] at hslots
  cases b with
  | true =>
    have hcalls := h.calls_eq rfl
    rw [hfree, if_neg Bool.false_ne_true] at hcalls
    refine ⟨?_, fun _ => ?_, (fun hb => by cases hb), (fun hb => by cases hb)⟩
    · show m.slots ++ [SlotEvent.acquire] = _
      rw [hslots, List.append_nil]
      rfl
    · show m.calls + 1 = _
      rw [hcalls]
      rfl
  | false => exact ⟨h.slots_eq, (fun hb => by cases hb), h.unused, (fun hb => by cases hb)⟩

theorem slotsKept_step {pc : ExecPc} {k : Nat} (hq : m.sys.threads q = .exec svc spec pc) (hbegun : pc ≠ .pending)
    (hk : SlotsKept resourceSlots pc m k) (h : RetryLoop.step cfg resourceSlots q m a = some m') :
    ∃ pc' k', m'.sys.threads q = .exec svc spec pc' ∧ pc' ≠ .pending ∧ SlotsKept resourceSlots pc' m' k' := by
  cases RetryLoop.step_cases h hq hbegun with
  | other s' _ _ hq' => exact ⟨pc, k, hq', hbegun, ⟨hk.slots_eq, hk.calls_eq, hk.unused, hk.free⟩⟩
  | called fresh locked op pc' s' _ _ hop hpc hq' =>
    have hresumed := pc.resume_cases (cfg.service svc) spec (m.sys.owners svc) fresh
      (op.reply cfg.backend m.sys.clock m.sys.db)
    rw [← hpc] at hresumed
    have hk' : SlotsKept resourceSlots pc { m with sys := s' } k := ⟨hk.slots_eq, hk.calls_eq, hk.unused, hk.free⟩
    obtain ⟨k', hkept⟩ := hk'.note pc' (fun n t hpc => by subst hpc; cases hop) (fun hacquired hfree => by
      cases hheld : pc.slotless with
      | false => exact hresumed.leaves hheld hfree
      | true => exact absurd ((hk.free hheld).symm.trans hacquired) Bool.false_ne_true)
    exact ⟨pc', k', by rw [RetryLoop.note_sys]; exact hq', hresumed.not_pending hbegun, hkept⟩
  | advanced k₀ fresh inp pc' eff s' _ hadv _ hq' =>
    have hk' : SlotsKept resourceSlots pc { m with sys := s' } k := ⟨hk.slots_eq, hk.calls_eq, hk.unused, hk.free⟩
    have hheld := (ExecPc.advance_cases hadv).held hbegun
    have hnew : pc' ≠ .pending := by
      rintro rfl
      cases hheld
    by_cases hlaunch : ∃ n t, pc = .launch n t
    · obtain ⟨n, t, rfl⟩ := hlaunch
      cases ExecPc.advance_cases hadv
      exact ⟨_, k, by rw [RetryLoop.note_sys]; exact hq', hnew, hk'.launch⟩
    · obtain ⟨k', hkept⟩ := hk'.note pc' (fun n t heq => hlaunch ⟨n, t, heq⟩)
        (fun _ hfree => absurd (hheld.symm.trans hfree) Bool.false_ne_true)
      exact ⟨pc', k', by rw [RetryLoop.note_sys]; exact hq', hnew, hkept⟩

/-- **Over, each slot taken has been released once.** -/
theorem SlotsKept.released {pc : ExecPc} {k : Nat} (h : SlotsKept resourceSlots pc m k) (hfree : pc.slotless = true) :
    m.slots = (List.replicate (if resourceSlots then m.calls else 0) [SlotEvent.acquire, .release]).flatten := by
  have hacquired := h.free hfree
  have hslots := h.slots_eq
  rw [hacquired, if_neg Bool.false_ne_true, List.append_nil] at hslots
  rw [hslots]
  cases resourceSlots with
  | true =>
    have hcalls := h.calls_eq rfl
    rw [hacquired, if_neg Bool.false_ne_true, Nat.add_zero] at hcalls
    rw [hcalls, if_pos rfl]
  | false =>
    rw [(h.unused rfl).1]
    rfl

/-! ### How many steps it makes -/

/-- The Attempt a program counter is at is one of the `N`. -/
def ExecPc.Within (N : Nat) : ExecPc → Prop
  | record n | acquire n _ | register n _ _ _ | enqueue n _ _ _ | launch n _ => n ≤ N
  | adapter n _ | spawned n _ _ | observe n _ _ | collect n _ _              => n ≤ N
  | transition n _ _ _                                                       => n < N
  | _                                                                        => True

/-- A bound on the steps the execution still makes, apart from those for the children of its adapter. -/
def ExecPc.left (N : Nat) : ExecPc → Nat
  | pending             => 10 * N + 2
  | start               => 10 * N + 1
  | record n            => 10 * (N + 1 - n)
  | acquire n _         => 10 * (N + 1 - n) - 1
  | register n _ _ _    => 10 * (N + 1 - n) - 2
  | enqueue n _ _ _     => 10 * (N + 1 - n) - 3
  | launch n _          => 10 * (N + 1 - n) - 3
  | adapter n _         => 10 * (N + 1 - n) - 4
  | spawned n _ _       => 10 * (N + 1 - n) - 2
  | observe n _ _       => 10 * (N + 1 - n) - 3
  | collect n _ _       => 10 * (N + 1 - n) - 5
  | transition n _ _ _  => 10 * (N + 1 - n) - 9
  | finalize _ (.body _) => 3
  | finalize _ .handler => 2
  | metrics _ _         => 1
  | _                   => 0

theorem executionError_left (spec : JobSpec) (N n : Nat) (t message : String) :
    (executionError spec n t message).Within N ∧ (executionError spec n t message).left N = 2 := ⟨trivial, rfl⟩

theorem collectResult_left (spec : JobSpec) (N n : Nat) (t : String) (r : AdapterReturn) :
    (collectResult spec n t r).Within N ∧ (collectResult spec n t r).left N ≤ 3 := by
  unfold collectResult
  split
  · exact ⟨trivial, by rw [(executionError_left spec N n t _).2]; omega⟩
  · simp only
    split
    · exact ⟨trivial, le_refl 3⟩
    · split
      · exact ⟨trivial, le_refl 3⟩
      · split
        · exact ⟨trivial, le_refl 3⟩
        · split
          · exact ⟨trivial, le_refl 3⟩
          · exact ⟨trivial, le_refl 3⟩

/-- A call brings the execution nearer to its end. -/
theorem ExecPc.resume_left {svc : Service} {spec : JobSpec} {owner : Option ExecutionOwner} {pc : ExecPc} {op : StoreOp}
    (fresh : String) (hop : pc.op svc spec owner = some op) (hw : pc.Within svc.maxAttempts) (reply : Reply) :
    (pc.resume svc spec owner fresh reply).Within svc.maxAttempts ∧
    (pc.resume svc spec owner fresh reply).left svc.maxAttempts < pc.left svc.maxAttempts := by
  have herror : ∀ n t message k, 2 < k → (executionError spec n t message).Within svc.maxAttempts ∧
      (executionError spec n t message).left svc.maxAttempts < k := fun n t message k hk => ⟨trivial, hk⟩
  cases pc with
  | start =>
    simp only [ExecPc.resume]
    split
    · rename_i h
      exact ⟨h, by simp only [ExecPc.left]; omega⟩
    · exact ⟨trivial, by simp only [ExecPc.left]; omega⟩
  | record n =>
    have hn : n ≤ svc.maxAttempts := hw
    cases reply with
    | unit => exact ⟨hn, by simp only [ExecPc.resume, ExecPc.left]; omega⟩
    | _ => exact ⟨trivial, by simp only [ExecPc.resume, ExecPc.left]; omega⟩
  | acquire n t =>
    have hn : n ≤ svc.maxAttempts := hw
    simp only [ExecPc.resume]
    split
    · unfold ExecPc.afterAcquire
      split
      · exact ⟨hn, by simp only [ExecPc.left]; omega⟩
      · split
        · exact herror _ _ _ _ (by simp only [ExecPc.left]; omega)
        · exact ⟨hn, by simp only [ExecPc.left]; omega⟩
    · exact herror _ _ _ _ (by simp only [ExecPc.left]; omega)
  | register n t e w =>
    have hn : n ≤ svc.maxAttempts := hw
    simp only [ExecPc.resume]
    split
    · split
      · exact ⟨hn, by simp only [ExecPc.left]; omega⟩
      · exact ⟨hn, by simp only [ExecPc.left]; omega⟩
    · exact herror _ _ _ _ (by simp only [ExecPc.left]; omega)
  | enqueue n t e w =>
    have hn : n ≤ svc.maxAttempts := hw
    simp only [ExecPc.resume]
    split
    · exact ⟨trivial, by simp only [ExecPc.left]; omega⟩
    · exact herror _ _ _ _ (by simp only [ExecPc.left]; omega)
  | observe n t x =>
    have hn : n ≤ svc.maxAttempts := hw
    exact ⟨hn, by simp only [ExecPc.resume, ExecPc.left]; omega⟩
  | collect n t r =>
    have hn : n ≤ svc.maxAttempts := hw
    simp only [ExecPc.resume]
    split
    · obtain ⟨hwithin, hleft⟩ := collectResult_left spec svc.maxAttempts n t r
      exact ⟨hwithin, by simp only [ExecPc.left] at hleft ⊢; omega⟩
    · exact herror _ _ _ _ (by simp only [ExecPc.left]; omega)
  | finalize c scope =>
    cases scope with
    | handler =>
      simp only [ExecPc.resume]
      split
      · exact ⟨trivial, by simp only [ExecPc.left]; omega⟩
      · exact ⟨trivial, by simp only [ExecPc.left]; omega⟩
    | body payload =>
      simp only [ExecPc.resume]
      split
      · split
        · exact ⟨trivial, by simp only [ExecPc.left]; omega⟩
        · exact ⟨trivial, by simp only [ExecPc.left]; omega⟩
      · exact herror _ _ _ _ (by simp only [ExecPc.left]; omega)
  | transition n t k e =>
    have hn : n < svc.maxAttempts := hw
    simp only [ExecPc.resume]
    split
    · exact ⟨hn, by simp only [ExecPc.left]; omega⟩
    · exact ⟨trivial, by simp only [ExecPc.left]; omega⟩
  | metrics t payload => exact ⟨trivial, by simp only [ExecPc.resume, ExecPc.left]; omega⟩
  | _ => cases hop

/-- So does a step that calls no store, except that a child of the adapter takes three. -/
theorem ExecPc.advance_left {svc : Service} {spec : JobSpec} {clock : Time} {observed : Nat → Option (Nat × Option String)}
    {births : Nat} {inp : Input} {pc pc' : ExecPc} {eff : Effect} (q k : Nat) (fresh : String)
    (h : pc.advance svc spec clock observed births inp = some (pc', eff)) (hw : pc.Within svc.maxAttempts) :
    pc'.Within svc.maxAttempts ∧ pc'.left svc.maxAttempts + 1 ≤
      pc.left svc.maxAttempts + if (Act.advance q k fresh inp).startsChild q then 3 else 0 := by
  cases pc with
  | pending =>
    cases inp with
    | go => cases h; exact ⟨trivial, by simp only [ExecPc.left]; omega⟩
    | _ => cases h
  | launch n t =>
    have hn : n ≤ svc.maxAttempts := hw
    cases inp with
    | go => cases h; exact ⟨hn, by simp only [ExecPc.left]; omega⟩
    | _ => cases h
  | adapter n t =>
    have hn : n ≤ svc.maxAttempts := hw
    cases inp with
    | child pid group identity =>
      cases h
      exact ⟨hn, by simp only [ExecPc.left, Act.startsChild, decide_true, if_true]; omega⟩
    | returned r => cases h; exact ⟨hn, by simp only [ExecPc.left]; omega⟩
    | raised e =>
      obtain ⟨rfl, -⟩ := Prod.mk.inj (Option.some.inj h)
      cases e with
      | cancelled message => exact ⟨trivial, by simp only [adapterRaised, ExecPc.left]; omega⟩
      | other message => exact ⟨trivial, by simp only [adapterRaised, executionError, ExecPc.left]; omega⟩
      | timeout message =>
        unfold adapterRaised
        by_cases hlt : n < svc.maxAttempts
        · simp only [if_pos hlt]
          exact ⟨hlt, by simp only [ExecPc.left]; omega⟩
        · simp only [if_neg hlt]
          exact ⟨trivial, by simp only [ExecPc.left]; omega⟩
      | connection message =>
        unfold adapterRaised
        by_cases hlt : n < svc.maxAttempts
        · simp only [if_pos hlt]
          exact ⟨hlt, by simp only [ExecPc.left]; omega⟩
        · simp only [if_neg hlt]
          exact ⟨trivial, by simp only [ExecPc.left]; omega⟩
    | _ => cases h
  | spawned n t c =>
    have hn : n ≤ svc.maxAttempts := hw
    cases inp with
    | ps answered => cases h; exact ⟨hn, by simp only [ExecPc.left]; omega⟩
    | _ => cases h
  | _ => cases h

theorem left_step {pc : ExecPc} (hq : m.sys.threads q = .exec svc spec pc) (hbegun : pc ≠ .pending)
    (hw : pc.Within (cfg.service svc).maxAttempts) (h : RetryLoop.step cfg resourceSlots q m a = some m') :
    ∃ pc', m'.sys.threads q = .exec svc spec pc' ∧ pc' ≠ .pending ∧ pc'.Within (cfg.service svc).maxAttempts ∧
      (if a.isOf q then 1 else 0) + pc'.left (cfg.service svc).maxAttempts ≤
        pc.left (cfg.service svc).maxAttempts + if a.startsChild q then 3 else 0 := by
  cases RetryLoop.step_cases h hq hbegun with
  | other s' hown _ hq' =>
    refine ⟨pc, hq', hbegun, hw, ?_⟩
    rw [if_neg (by rw [hown]; exact Bool.false_ne_true)]
    omega
  | called fresh locked op pc' s' hact _ hop hpc hq' =>
    obtain ⟨hwithin, hleft⟩ := ExecPc.resume_left fresh hop hw (op.reply cfg.backend m.sys.clock m.sys.db)
    rw [← hpc] at hwithin hleft
    have hresumed := pc.resume_cases (cfg.service svc) spec (m.sys.owners svc) fresh
      (op.reply cfg.backend m.sys.clock m.sys.db)
    rw [← hpc] at hresumed
    refine ⟨pc', by rw [RetryLoop.note_sys]; exact hq', hresumed.not_pending hbegun, hwithin, ?_⟩
    split <;> omega
  | advanced k fresh inp pc' eff s' hact hadv _ hq' =>
    obtain ⟨hwithin, hleft⟩ := ExecPc.advance_left q k fresh hadv hw
    have hheld := (ExecPc.advance_cases hadv).held hbegun
    rw [← hact] at hleft
    refine ⟨pc', by rw [RetryLoop.note_sys]; exact hq', ?_, hwithin, ?_⟩
    · rintro rfl
      cases hheld
    · split <;> omega

/-- **A run makes no more steps than it has left.** -/
theorem left_run : ∀ {acts : List Act} {m m' : RetryLoop} {pc : ExecPc}, m.sys.threads q = .exec svc spec pc →
    pc ≠ .pending → pc.Within (cfg.service svc).maxAttempts → Trace.run (RetryLoop.step cfg resourceSlots q) m acts =
      some m' →
    ownSteps q acts ≤ pc.left (cfg.service svc).maxAttempts + 3 * acts.countP (Act.startsChild q)
  | [], _, _, _, _, _, _, _ => Nat.zero_le _
  | a :: acts, m, m', pc, hq, hbegun, hw, h => by
    obtain ⟨m₁, hm₁, h⟩ := Trace.run_cons.1 h
    obtain ⟨pc₁, hq₁, hbegun₁, hw₁, hleft⟩ := left_step hq hbegun hw hm₁
    have hrest := left_run hq₁ hbegun₁ hw₁ h
    unfold ownSteps at hrest ⊢
    rw [List.countP_cons, List.countP_cons]
    split
    · rename_i hown
      rw [if_pos hown] at hleft
      split
      · rename_i hchild
        rw [if_pos hchild] at hleft
        omega
      · rename_i hchild
        rw [if_neg hchild] at hleft
        omega
    · rename_i hown
      rw [if_neg hown] at hleft
      split
      · rename_i hchild
        rw [if_pos hchild] at hleft
        omega
      · rename_i hchild
        rw [if_neg hchild] at hleft
        omega

/-! ### It is not stuck -/

theorem step_isSome : (RetryLoop.step cfg resourceSlots q m a).isSome = (Sys.step cfg m.sys a).isSome := by
  unfold RetryLoop.step
  rw [Option.isSome_map]

/-- A step that calls no store and starts no thread can be made. -/
theorem advance_isSome (cfg : Config) {s : Sys} {pc pc' : ExecPc} {inp : Input} (hq : s.threads q = .exec svc spec pc)
    (hadv : pc.advance (cfg.service svc) spec s.clock s.observed s.births inp = some (pc', .none)) :
    ∃ fresh, (Sys.step cfg s (.advance q 0 fresh inp)).isSome = true := by
  obtain ⟨fresh, hf⟩ := s.exists_fresh
  refine ⟨fresh, ?_⟩
  simp only [Sys.step, Sys.proceed, hq, Thread.advance, hadv, Option.map_some, hf, if_true, Sys.apply, Option.isSome_some]

theorem launch_isSome (cfg : Config) {s : Sys} {n k : Nat} {t : String} (hq : s.threads q = .exec svc spec (.launch n t))
    (hnone : (s.threads k).isNone = true) : ∃ fresh, (Sys.step cfg s (.advance q k fresh .go)).isSome = true := by
  obtain ⟨fresh, hf⟩ := s.exists_fresh
  have hne : k ≠ q := by
    rintro rfl
    rw [hq] at hnone
    cases hnone
  refine ⟨fresh, ?_⟩
  simp only [Sys.step, Sys.proceed, hq, Thread.advance, ExecPc.advance, Option.map_some, hf, if_true, Sys.apply,
    Thread.adapterEntry, Sys.put, Function.update_of_ne hne, hnone, Option.isSome_some]

theorem canMove_advance {k : Nat} {fresh : String} {inp : Input} (hinp : inp.endsRun = true → inp = (o m.calls).input py)
    (h : (Sys.step cfg m.sys (.advance q k fresh inp)).isSome = true) : m.CanMove cfg py resourceSlots q o := by
  refine ⟨.advance q k fresh inp, decide_eq_true rfl, fun k' f inp' hact => ?_, by rw [step_isSome]; exact h⟩
  cases hact
  exact hinp

/-- **Until it is over the execution has a step to make.** -/
theorem exists_own_step {pc : ExecPc} (hq : m.sys.threads q = .exec svc spec pc) (hdone : m.done q = false)
    (hfree : ∃ k, (m.sys.threads k).isNone = true) : m.CanMove cfg py resourceSlots q o := by
  have hcall : ∀ op, pc.op (cfg.service svc) spec (m.sys.owners svc) = some op → m.CanMove cfg py resourceSlots q o := by
    intro op hop
    obtain ⟨fresh, s', hs'⟩ := @exists_call cfg m.sys q op (by rw [hq]; exact hop)
    refine ⟨.call q fresh [], decide_eq_true rfl, (fun k f inp h => by cases h), ?_⟩
    rw [step_isSome, hs']
    rfl
  have hadvance : ∀ inp pc', pc.advance (cfg.service svc) spec m.sys.clock m.sys.observed m.sys.births inp =
      some (pc', .none) → (inp.endsRun = true → inp = (o m.calls).input py) → m.CanMove cfg py resourceSlots q o := by
    intro inp pc' hadv hinp
    obtain ⟨fresh, hs⟩ := advance_isSome cfg hq hadv
    exact canMove_advance hinp hs
  have hover : pc.done = false := by
    unfold RetryLoop.done at hdone
    rw [execPc_of_thread hq] at hdone
    exact hdone
  cases pc with
  | pending => exact hadvance .go _ rfl (fun h => by cases h)
  | launch n t =>
    obtain ⟨k, hk⟩ := hfree
    obtain ⟨fresh, hs⟩ := launch_isSome cfg hq hk
    exact canMove_advance (fun h => by cases h) hs
  | adapter n t =>
    cases ho : o m.calls with
    | result r report =>
      rw [ho] at hadvance
      exact hadvance (.returned (Outcome.returned py r report)) _ rfl (fun _ => rfl)
    | raised e =>
      rw [ho] at hadvance
      exact hadvance (.raised e) _ rfl (fun _ => rfl)
  | spawned n t c => exact hadvance (.ps true) _ rfl (fun h => by cases h)
  | returned => cases hover
  | raised => cases hover
  | cancelled => cases hover
  | _ => exact hcall _ rfl

end Runs

/-- **An execution that a service does not hand to a supervisor**: it calls the adapter until an outcome is not retried or
the Attempts are used up, its Attempts and its Run end as the outcomes say, and its slots are released. -/
theorem retry_loop_outcome (cfg : Config) (py : Interpreter) (resourceSlots : Bool) (q svc : Nat) (spec : JobSpec)
    (o : Nat → Outcome) (s : Sys) (hq : s.threads q = .exec svc spec .start) (hN : 1 ≤ (cfg.service svc).maxAttempts)
    (hmode : (cfg.service svc).executionMode ≠ .supervised)
    (htrust : ∀ r, s.db.runs.get spec.jobId = some r → r.trustStatus ≠ .trusted) :
    RetryLoopOutcome cfg py resourceSlots q svc spec o s := by
  have hbegun : ExecPc.start ≠ .pending := fun h => by cases h
  have hslots : ∀ acts m, Trace.run (RetryLoop.step cfg resourceSlots q) { sys := s } acts = some m →
      ∃ pc k, m.sys.threads q = .exec svc spec pc ∧ pc ≠ .pending ∧ SlotsKept resourceSlots pc m k := by
    intro acts m hrun
    refine Trace.run_preserves (P := fun m => ∃ pc k, m.sys.threads q = .exec svc spec pc ∧ pc ≠ .pending ∧
      SlotsKept resourceSlots pc m k) ?_ ⟨.start, 0, hq, hbegun, rfl, fun _ => rfl, fun _ => ⟨rfl, rfl⟩, fun _ => rfl⟩ hrun
    rintro m a m' ⟨pc, k, hpc, hne, hk⟩ hs
    exact slotsKept_step hpc hne hk hs
  refine ⟨fun acts m hrun hevery hdone => ?_, fun acts m hrun hdone => ?_, fun acts m hrun => ?_,
    fun acts m hrun hdone hfree => ?_⟩
  · have hstart : RetryLoop.OnCourse cfg py q svc spec o { sys := s } := ⟨.start, hq, rfl, htrust⟩
    exact onCourse_ended (Trace.run_preserves_of_every (fun m a m' hm hc hs => onCourse_step hN hmode hm hc hs) hstart
      hevery hrun) hdone
  · obtain ⟨pc, k, hpc, -, hk⟩ := hslots acts m hrun
    refine hk.released ?_
    unfold RetryLoop.done at hdone
    rw [execPc_of_thread hpc] at hdone
    cases pc with
    | returned => rfl
    | raised => rfl
    | cancelled => rfl
    | _ => cases hdone
  · exact left_run hq hbegun trivial hrun
  · obtain ⟨pc, k, hpc, -, -⟩ := hslots acts m hrun
    exact exists_own_step hpc hdone hfree

/-- A call of the execution succeeds, and `adapter.run` raises `e` where it ends; nobody else calls the store. -/
def ownStepSucceeds (cfg : Config) (q : Nat) (e : AdapterError) (m : RetryLoop) : Act → Bool
  | .call i _ locked => decide (i = q) && ((m.sys.threads q).op cfg m.sys locked).all
    (fun op => (op.reply cfg.backend m.sys.clock m.sys.db).succeeded)
  | .advance _ _ _ (.raised e')  => decide (e' = e)
  | .advance _ _ _ (.returned _) => false
  | _                            => true

theorem undisturbed_of_ownStep {cfg : Config} {py : Interpreter} {q : Nat} {j : String} {e : AdapterError} {m : RetryLoop}
    {a : Act} (h : ownStepSucceeds cfg q e m a = true) : Undisturbed cfg py q j (fun _ => .raised e) m a := by
  cases a with
  | call i fresh locked =>
    obtain ⟨hown, hall⟩ := Bool.and_eq_true_iff.1 h
    obtain rfl : i = q := of_decide_eq_true hown
    refine ⟨fun i' f l s' hact hne => ?_, fun f l op hact hop => ?_, fun k f inp hact => by cases hact⟩
    · cases hact
      exact absurd rfl hne
    · cases hact
      rw [hop] at hall
      exact hall
  | advance i k fresh inp =>
    refine ⟨(fun i' f l s' hact => by cases hact), (fun f l op hact => by cases hact), fun k' f inp' hact hends => ?_⟩
    cases hact
    cases inp with
    | raised e' =>
      obtain rfl : e' = e := of_decide_eq_true h
      rfl
    | returned r => cases h
    | _ => cases hends
  | _ => exact ⟨(fun i f l s' hact => by cases hact), (fun f l op hact => by cases hact), fun k f inp hact => by cases hact⟩

/-! ### A service that calls the adapter -/

/-- A job that has been submitted, and the thread of its execution. -/
def begun : Sys :=
  { Sys.init with
    clock := 1, db := (StoreOp.createRun "job" "design" "ip" "flow" (some "job") none
      (some timingSpec)).after .postgres 1 .empty
    threads := Function.update Sys.init.threads 0 (.exec 0 timingSpec .start) }

/-- Two Attempts, and `adapter.run` times out in both. -/
def timedOutActs : List Act :=
  [.call 0 "a1" [], .call 0 "a2" [], .call 0 "a3" [], .advance 0 1 "a4" .go,
    .advance 0 0 "a5" (.raised (.timeout "timed out")),
   .call 0 "a6" [], .call 0 "a7" [], .call 0 "a8" [], .advance 0 2 "a9" .go,
   .advance 0 0 "a10" (.raised (.timeout "timed out")), .call 0 "a11" []]

theorem retry_loop_outcome_external : ∃ m,
    Trace.run (RetryLoop.step workerConfig true 0) { sys := begun } timedOutActs = some m ∧ m.calls = 2 ∧
      m.slots = [.acquire, .release, .acquire, .release] ∧
      LoopEnded executingPy 2 (fun _ => .raised (.timeout "timed out")) "job" m.calls m.sys.db := by
  have htrust : (begun.db.runs.get "job").all (fun r => decide (r.trustStatus ≠ .trusted)) = true := by decide +kernel
  have houtcome : RetryLoopOutcome workerConfig executingPy true 0 0 timingSpec (fun _ => .raised (.timeout "timed out"))
      begun := by
    refine retry_loop_outcome workerConfig executingPy true 0 0 timingSpec _ _ rfl (by decide) (by decide) (fun r hr => ?_)
    rw [show begun.db.runs.get "job" = some r from hr] at htrust
    exact of_decide_eq_true htrust
  have hrun : (Trace.run (RetryLoop.step workerConfig true 0) { sys := begun } timedOutActs).map
      (fun m => (m.done 0, m.calls)) = some (true, 2) := by decide +kernel
  have hown : Trace.Every (RetryLoop.step workerConfig true 0)
      (fun m a => ownStepSucceeds workerConfig 0 (.timeout "timed out") m a = true) { sys := begun } timedOutActs := by
    decide +kernel
  obtain ⟨m, hm, hend⟩ := Option.map_eq_some_iff.1 hrun
  obtain ⟨hdone, hcalls⟩ := Prod.mk.inj hend
  have hslots := houtcome.released timedOutActs m hm hdone
  rw [hcalls] at hslots
  exact ⟨m, hm, hcalls, hslots,
    houtcome.ended timedOutActs m hm (Trace.Every.mono (fun _ _ => undisturbed_of_ownStep) hown) hdone⟩

/-! ### A service that hands its executions to a supervisor -/

def handingService : Service := { workerService with executionMode := .supervised }

def handingConfig : Config := ⟨.postgres, fun _ => handingService, fun spec => spec.jobId⟩

def handedCalls : List StoreOp :=
  [.startHostSession hostOwner 30, .createRun "job" "design" "ip" "flow" (some "job") none (some timingSpec)]

/-- The execution of a job, on a host with a session. -/
def handed : Sys :=
  { Sys.init with
    clock := 1, db := handedCalls.foldl (fun db op => op.after .postgres 1 db) Db.empty
    threads := Function.update Sys.init.threads 0 (.exec 0 timingSpec .start)
    owners := fun _ => some hostOwner }

/-- It starts, records an Attempt, leases it, registers it and enqueues its request. -/
def handedActs : List Act :=
  [.call 0 "start" [], .call 0 "token" [], .call 0 "execution" [], .call 0 "register" [], .call 0 "enqueue" []]

/-- **A supervised execution calls no adapter**: it has returned once its request is enqueued. -/
theorem supervised_calls_nothing : (handed.threads 0 = .exec 0 timingSpec .start ∧
      1 ≤ (handingConfig.service 0).maxAttempts ∧
      ∀ r, handed.db.runs.get timingSpec.jobId = some r → r.trustStatus ≠ .trusted) ∧
    ¬ RetryLoopOutcome handingConfig executingPy true 0 0 timingSpec (fun _ => .raised (.other "failed")) handed := by
  have huntrusted : (handed.db.runs.get timingSpec.jobId).all (fun r => decide (r.trustStatus ≠ .trusted)) = true := by
    decide +kernel
  refine ⟨⟨rfl, by decide, fun r hr => ?_⟩, fun h => ?_⟩
  · rw [hr] at huntrusted
    exact of_decide_eq_true huntrusted
  · have hrun : (Trace.run (RetryLoop.step handingConfig true 0) { sys := handed } handedActs).map
        (fun m => (m.done 0, m.calls)) = some (true, 0) := by decide +kernel
    have hcalls : Trace.Every (RetryLoop.step handingConfig true 0)
        (fun m a => ownStepSucceeds handingConfig 0 (.other "failed") m a = true) { sys := handed } handedActs := by
      decide +kernel
    obtain ⟨m, hm, hend⟩ := Option.map_eq_some_iff.1 hrun
    obtain ⟨hdone, hzero⟩ := Prod.mk.inj hend
    have hended := h.ended handedActs m hm (Trace.Every.mono (fun _ _ => undisturbed_of_ownStep) hcalls) hdone
    rw [hended.calls] at hzero
    exact absurd hzero (by decide)

end EdaLab
