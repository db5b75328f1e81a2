import EdaLab.Absorbing
import EdaLab.Delivery
/-!
# Exclusive — exclusive execution and the Attempt history

In a deployment whose services do not execute what they submit, every Run and every request is handed out once, and the
adapter is entered once for each Attempt: by the execution of the Run, or, where it is supervised, once for the job by the
supervisor that claimed its request.
-/
namespace EdaLab

/-- The entry of an adapter: an execution at its launch, or a supervisor with a claimed request. -/
theorem Thread.advance_adapterRun {cfg : Config} {s : Sys} {i k : Nat} {fresh : String} {inp : Input} {th th' : Thread}
    {b : Beat} {run : AdapterRun} (h : th.advance cfg s k fresh inp = some (th', .adapterRun))
    (hentry : th'.adapterEntry cfg i = some (b, run)) :
    (∃ svc spec n t, th = .exec svc spec (.launch n t) ∧ th' = .exec svc spec (.adapter n t) ∧
      run = ⟨spec.jobId, n, false⟩) ∨
    (∃ sup req, th = .supervisor sup (.ready req) ∧ th' = .supervisor sup (.running req) ∧
      run = ⟨req.jobId, req.attemptNo, true⟩) := by
  cases th with
  | none => cases h
  | exec svc spec pc =>
    obtain ⟨⟨pc', eff⟩, hx, hx'⟩ := Option.map_eq_some_iff.1 h
    cases hx'
    cases ExecPc.advance_cases hx with
    | launch n t =>
      cases hentry
      exact Or.inl ⟨svc, spec, n, t, rfl, rfl, rfl⟩
  | supervisor sup pc =>
    obtain ⟨⟨pc', eff⟩, hx, hx'⟩ := Option.map_eq_some_iff.1 h
    cases hx'
    cases SupervisorPc.advance_cases hx with
    | launch req =>
      cases hentry
      exact Or.inr ⟨sup, req, rfl, rfl, rfl⟩
  | _ =>
    obtain ⟨x, -, hx'⟩ := Option.map_eq_some_iff.1 h
    obtain ⟨rfl, -⟩ := Prod.mk.inj hx'
    cases hentry

structure DeliveryInv (cfg : Config) (s : Sys) : Prop where
  requested : ∀ x ∈ s.history.requests, ∃ r, s.db.executionRequests.get x = some r ∧ r.status ≠ .queued
  /-- The execution that enqueued a request was supervised and has left. -/
  enqueued : ∀ x r, s.db.executionRequests.get x = some r → ∃ q svc spec pc, s.threads q = .exec svc spec pc ∧
    spec.jobId = r.jobId ∧ (cfg.service svc).executionMode = .supervised ∧ pc.entered = none
  one_request : ∀ x y r r', s.db.executionRequests.get x = some r → s.db.executionRequests.get y = some r' →
    r.jobId = r'.jobId → x = y
  fits : ∀ q svc spec pc, s.threads q = .exec svc spec pc → pc.Fits (cfg.service svc).executionMode
  /-- A supervisor about to enter the adapter has a request that was claimed, and the job has not entered one. -/
  ready : ∀ q sup req, s.threads q = .supervisor sup (.ready req) → req.executionId ∈ s.history.requests ∧
    (∃ r, s.db.executionRequests.get req.executionId = some r ∧ r.jobId = req.jobId) ∧
    ∀ e ∈ s.history.adapterRuns, e.jobId ≠ req.jobId
  ready_one : ∀ q q' sup sup' req req', s.threads q = .supervisor sup (.ready req) →
    s.threads q' = .supervisor sup' (.ready req') → req.executionId = req'.executionId → q = q'
  supervised : ∀ e ∈ s.history.adapterRuns, e.supervised = true →
    ∃ x r, s.db.executionRequests.get x = some r ∧ r.jobId = e.jobId ∧ r.status ≠ .queued
  external : ∀ e ∈ s.history.adapterRuns, e.supervised = false → ∃ q svc spec pc, s.threads q = .exec svc spec pc ∧
    spec.jobId = e.jobId ∧ (cfg.service svc).executionMode ≠ .supervised ∧ ∀ k, pc.entered = some k → e.attemptNo ≤ k

theorem deliveryInv_init (cfg : Config) : DeliveryInv cfg Sys.init where
  requested x hx := by cases hx
  enqueued x r hr := by cases hr
  one_request x y r r' hr := by cases hr
  fits q svc spec pc hq := by cases hq
  ready q sup req hq := by cases hq
  ready_one q q' sup sup' req req' hq := by cases hq
  supervised e he := by cases he
  external e he := by cases he

section Step

variable {cfg : Config} {s s' : Sys} {a : Act}

/-! ### What a step leaves of executions, requests and supervisors -/

/-- An execution that can still enter its adapter could before, with a number as small, or is new. -/
theorem entered_after (h : Sys.step cfg s a = some s') {q svc : Nat} {spec : JobSpec} {pc' : ExecPc} {k : Nat}
    (hq : s'.threads q = .exec svc spec pc') (hk : pc'.entered = some k) :
    (∃ pc i, s.threads q = .exec svc spec pc ∧ pc.entered = some i ∧ i ≤ k) ∨ (s.threads q).isNone = true := by
  cases exec_after h hq with
  | same hth => exact Or.inl ⟨pc', k, hth, hk, le_refl k⟩
  | called fresh locked pc op _ _ hth _ hpc =>
    subst hpc
    obtain ⟨i, hi, hle⟩ := ExecPc.resume_entered hk
    exact Or.inl ⟨pc, i, hth, hi, hle⟩
  | advanced _ fresh inp pc eff _ hth hadv =>
    obtain ⟨i, hi, hle⟩ := hadv.entered hk
    exact Or.inl ⟨pc, i, hth, hi, hle⟩
  | executed i _ _ hnone _ => exact Or.inr hnone
  | cancelled hth hpc =>
    subst hpc
    exact Or.inl ⟨.pending, 0, hth, rfl, Nat.zero_le k⟩

/-- An execution keeps its bound on the numbers it entered its adapter with. -/
theorem bound_after (h : Sys.step cfg s a = some s') {q svc : Nat} {spec : JobSpec} {pc : ExecPc} {m : Nat}
    (hq : s.threads q = .exec svc spec pc) (hm : ∀ k, pc.entered = some k → m ≤ k) :
    ∃ pc', s'.threads q = .exec svc spec pc' ∧ ∀ k, pc'.entered = some k → m ≤ k := by
  obtain ⟨pc', hq'⟩ := exec_persists h hq
  refine ⟨pc', hq', fun k hk => ?_⟩
  rcases entered_after h hq' hk with ⟨pc₀, i, hth, hi, hle⟩ | hnone
  · rw [hq] at hth
    cases hth
    exact le_trans (hm i hi) hle
  · rw [hq] at hnone
    cases hnone

/-- An execution that has left stays away. -/
theorem left_after (h : Sys.step cfg s a = some s') {q svc : Nat} {spec : JobSpec} {pc : ExecPc}
    (hq : s.threads q = .exec svc spec pc) (hleft : pc.entered = none) :
    ∃ pc', s'.threads q = .exec svc spec pc' ∧ pc'.entered = none := by
  obtain ⟨pc', hq'⟩ := exec_persists h hq
  refine ⟨pc', hq', ?_⟩
  cases hk : pc'.entered with
  | none => rfl
  | some k =>
    rcases entered_after h hq' hk with ⟨pc₀, i, hth, hi, -⟩ | hnone
    · rw [hq] at hth
      cases hth
      rw [hleft] at hi
      cases hi
    · rw [hq] at hnone
      cases hnone

theorem fits_after (hf : ∀ q svc spec pc, s.threads q = .exec svc spec pc → pc.Fits (cfg.service svc).executionMode)
    (h : Sys.step cfg s a = some s') {q svc : Nat} {spec : JobSpec} {pc' : ExecPc}
    (hq : s'.threads q = .exec svc spec pc') : pc'.Fits (cfg.service svc).executionMode := by
  cases exec_after h hq with
  | same hth => exact hf q svc spec pc' hth
  | called fresh locked pc op _ _ hth _ hpc =>
    subst hpc
    exact ExecPc.resume_fits (hf q svc spec pc hth)
  | advanced _ fresh inp pc eff _ _ hadv => exact hadv.fits
  | executed i _ _ _ hpc => subst hpc; trivial
  | cancelled _ hpc => subst hpc; trivial

theorem request_after_step (h : Sys.step cfg s a = some s') {x : String} {r : ExecutionRequestRow}
    (hr : s.db.executionRequests.get x = some r) : ∃ r', s'.db.executionRequests.get x = some r' ∧ r'.jobId = r.jobId ∧
      (r.status ≠ .queued → r'.status ≠ .queued) := by
  rcases Sys.step_db h with hdb | ⟨i, fresh, locked, op, -, hc⟩
  · exact ⟨r, by rw [hdb, hr], rfl, fun h => h⟩
  · rw [hc.db_eq]
    exact request_persists _ _ op hr

/-- The call that enqueues a request is its execution's. -/
theorem Thread.op_enqueue {th : Thread} {locked : List String} {x j h : String} {n : Nat} {p : RequestPayload}
    (hop : th.op cfg s locked = some (.enqueueExecutionRequest x j n h p)) :
    ∃ svc spec m t o, th = .exec svc spec (.enqueue m t x o) ∧ spec.jobId = j := by
  obtain ⟨svc, spec, pc, rfl, hj, hpc⟩ := Thread.op_ofExecution hop rfl
  cases pc with
  | enqueue m t e o => cases hpc; exact ⟨svc, spec, _, t, _, rfl, hj⟩
  | _ => cases hpc

/-- Where an execution request comes from. -/
inductive RequestOrigin (s : Sys) (a : Act) (s' : Sys) (x : String) (r' : ExecutionRequestRow) : Prop
  | old (r : ExecutionRequestRow) (get_before : s.db.executionRequests.get x = some r) (job_eq : r'.jobId = r.jobId)
  | new (q svc : Nat) (spec : JobSpec) (n : Nat) (t : String) (o : ExecutionOwner) (fresh : String) (locked : List String)
      (is_act : a = .call q fresh locked) (thread_eq : s.threads q = .exec svc spec (.enqueue n t x o))
      (threads_eq : s'.threads q = .exec svc spec .returned) (job_eq : r'.jobId = spec.jobId)

theorem request_origin (h : Sys.step cfg s a = some s') {x : String} {r' : ExecutionRequestRow}
    (hr' : s'.db.executionRequests.get x = some r') : RequestOrigin s a s' x r' := by
  rcases Sys.step_db h with hdb | ⟨i, fresh, locked, op, rfl, hc⟩
  · rw [hdb] at hr'
    exact .old r' hr' rfl
  · rw [hc.db_eq] at hr'
    cases requests_after cfg.backend s.clock s.db op x with
    | same hget =>
      rw [hget] at hr'
      exact .old r' hr' rfl
    | moved r₀ r₁ hr₀ hr₁ hjob _ =>
      rw [hr₁] at hr'
      cases hr'
      exact .old r₀ hr₀ hjob
    | enqueued j n host p r₀ hop _ hget hjob hrep =>
      subst hop
      rw [hget] at hr'
      cases hr'
      obtain ⟨svc, spec, m, t, o, hth, rfl⟩ := Thread.op_enqueue hc.is_op
      refine .new i svc spec m t o fresh locked rfl hth ?_ hjob
      rw [hc.threads_eq, Function.update_self, hth, hrep]
      rfl

/-- Where a supervisor about to enter its adapter comes from. -/
theorem ready_origin (h : Sys.step cfg s a = some s') {q : Nat} {sup : Supervisor} {req : ExecutionRequestRow}
    (hq : s'.threads q = .supervisor sup (.ready req)) :
    s.threads q = .supervisor sup (.ready req) ∨
    ∃ fresh locked, a = .call q fresh locked ∧ s.threads q = .supervisor sup .claim ∧
      (StoreOp.claimExecutionRequest sup.hostId sup.supervisorId locked).reply cfg.backend s.clock s.db =
        .request (some req) := by
  cases thread_after q h with
  | same heq => exact Or.inl (by rw [← heq, hq])
  | entered th _ _ hentry heq =>
    rw [heq] at hq
    subst hq
    cases hentry
  | called fresh locked op hact hc heq =>
    rw [heq] at hq
    have hop := hc.is_op
    cases hth : s.threads q with
    | supervisor sup' pc =>
      rw [hth] at hq hop
      simp only [Thread.resume, Thread.supervisor.injEq] at hq
      obtain ⟨rfl, hpc⟩ := hq
      cases pc with
      | claim =>
        cases hop
        simp only [SupervisorPc.resume] at hpc
        split at hpc
        · rename_i req' hrep
          cases hpc
          exact Or.inr ⟨fresh, locked, hact, rfl, hrep⟩
        · cases hpc
      | ready req' => exact Or.inl (by rw [← hpc]; rfl)
      | started req' pid => simp only [SupervisorPc.resume] at hpc; split at hpc <;> cases hpc
      | witness req' w result =>
        cases result with
        | none => cases hpc
        | some r => simp only [SupervisorPc.resume] at hpc; split at hpc <;> cases hpc
      | finalize req' c => simp only [SupervisorPc.resume] at hpc; split at hpc <;> cases hpc
      | _ => cases hpc
    | _ => rw [hth] at hq; cases hq
  | advanced k fresh inp th eff _ hadv heq =>
    rw [heq] at hq
    subst hq
    have hx := hadv.advance_eq
    cases hth : s.threads q with
    | none => rw [hth] at hx; cases hx
    | supervisor sup' pc =>
      rw [hth] at hx
      obtain ⟨⟨pc₁, eff₁⟩, hy, hy'⟩ := Option.map_eq_some_iff.1 hx
      cases hy'
      cases SupervisorPc.advance_cases hy
    | _ =>
      rw [hth] at hx
      obtain ⟨x, -, hx'⟩ := Option.map_eq_some_iff.1 hx
      cases hx'
  | executed i fresh inp th spec v _ _ _ _ heq _ => rw [heq] at hq; cases hq
  | beat i fresh inp th b run _ _ _ _ heq => rw [heq] at hq; cases hq
  | cancelled v spec _ heq => rw [heq] at hq; cases hq

/-! ### The invariant -/

/-- A job is executed by one service: supervised, or not. -/
theorem one_mode (hs : Sole s) {q q' svc svc' : Nat} {spec spec' : JobSpec} {pc pc' : ExecPc}
    (hq : s.threads q = .exec svc spec pc) (hq' : s.threads q' = .exec svc' spec' pc') (hj : spec.jobId = spec'.jobId) :
    q = q' ∧ svc = svc' ∧ pc = pc' := by
  obtain rfl := hs q q' spec.jobId (by rw [hq]; rfl) (by rw [hq', hj]; rfl)
  rw [hq] at hq'
  cases hq'
  exact ⟨rfl, rfl, rfl⟩

/-- What a launch adds, seen from the entries before it: none is of the job where the launch is supervised, and none has
the number, or is supervised, where it is not. -/
theorem launch_apart (hi : ExecInv cfg s) (hd : DeliveryInv cfg s) {i k : Nat} {fresh : String} {inp : Input}
    {th : Thread} {b : Beat} {run : AdapterRun} (hadv : Advanced cfg s i k fresh inp th .adapterRun)
    (hentry : th.adapterEntry cfg i = some (b, run)) :
    ∀ e ∈ s.history.adapterRuns, e.jobId = run.jobId →
      e.attemptNo ≠ run.attemptNo ∧ e.supervised = false ∧ run.supervised = false := by
  intro e he hjob
  rcases Thread.advance_adapterRun hadv.advance_eq hentry with ⟨svc, spec, n, t, hth, -, rfl⟩ | ⟨sup, req, hth, -, rfl⟩
  · have hmode : (cfg.service svc).executionMode ≠ .supervised := hd.fits i svc spec _ hth
    cases hsup : e.supervised with
    | true =>
      obtain ⟨x, r, hr, hrjob, -⟩ := hd.supervised e he hsup
      obtain ⟨q, svc', spec', pc, hq, hspec, hmode', -⟩ := hd.enqueued x r hr
      obtain ⟨-, rfl, -⟩ := one_mode hi.sole hth hq ((hspec.trans hrjob).trans hjob).symm
      exact absurd hmode' hmode
    | false =>
      obtain ⟨q, svc', spec', pc, hq, hspec, -, hbound⟩ := hd.external e he hsup
      obtain ⟨-, -, rfl⟩ := one_mode hi.sole hth hq (hspec.trans hjob).symm
      obtain ⟨-, hn, a, ha, -⟩ := hi.attempts spec.jobId (.leased n) (Or.inl ⟨i, svc, spec, _, hth, rfl, rfl⟩)
      have hpos := ((hn.isSome_iff n).1 (by rw [ha]; rfl)).1
      have hle := hbound (n - 1) rfl
      refine ⟨?_, rfl, rfl⟩
      show e.attemptNo ≠ n
      omega
  · exact absurd hjob ((hd.ready i sup req hth).2.2 e he)

/-- Where a job with a request stands: no execution of it can launch. -/
theorem request_excludes (hi : ExecInv cfg s) (hd : DeliveryInv cfg s) {x : String} {r : ExecutionRequestRow}
    (hr : s.db.executionRequests.get x = some r) {q svc : Nat} {spec : JobSpec} {pc : ExecPc} {k : Nat}
    (hq : s.threads q = .exec svc spec pc) (hjob : spec.jobId = r.jobId) : pc.entered ≠ some k := by
  obtain ⟨q', svc', spec', pc', hq', hspec, -, hleft⟩ := hd.enqueued x r hr
  obtain ⟨-, -, rfl⟩ := one_mode hi.sole hq hq' (hjob.trans hspec.symm)
  rw [hleft]
  intro h
  cases h

theorem adapterRuns_after (h : Sys.step cfg s a = some s') :
    s'.history.adapterRuns = s.history.adapterRuns ∨
    ∃ i k fresh inp th b run, Advanced cfg s i k fresh inp th .adapterRun ∧ th.adapterEntry cfg i = some (b, run) ∧
      s'.threads i = th ∧ s'.history.adapterRuns = s.history.adapterRuns ++ [run] := by
  cases history_after h with
  | same heq => exact Or.inl (by rw [heq])
  | kept _ _ _ _ _ heq => exact Or.inl (by rw [heq])
  | claimed _ _ _ _ _ _ _ _ heq => exact Or.inl (by rw [heq])
  | requested _ _ _ _ _ _ _ _ _ heq => exact Or.inl (by rw [heq])
  | launched i k fresh inp th b run _ hadv hentry hth heq =>
    exact Or.inr ⟨i, k, fresh, inp, th, b, run, hadv, hentry, hth, by rw [heq]⟩

theorem requests_log_after (h : Sys.step cfg s a = some s') :
    s'.history.requests = s.history.requests ∨
    ∃ i fresh locked sup req, a = .call i fresh locked ∧ s.threads i = .supervisor sup .claim ∧
      s.db.executionRequests.get req.executionId = some req ∧ req.status = .queued ∧
      (∃ r', s'.db.executionRequests.get req.executionId = some r' ∧ r'.jobId = req.jobId ∧ r'.status ≠ .queued) ∧
      s'.threads i = .supervisor sup (.ready req) ∧ s'.history.requests = s.history.requests ++ [req.executionId] := by
  cases history_after h with
  | same heq => exact Or.inl (by rw [heq])
  | kept _ _ _ _ _ heq => exact Or.inl (by rw [heq])
  | claimed _ _ _ _ _ _ _ _ heq => exact Or.inl (by rw [heq])
  | launched _ _ _ _ _ _ _ _ _ _ _ heq => exact Or.inl (by rw [heq])
  | requested i fresh locked sup req hact hth hc hrep heq =>
    obtain ⟨hget, hq, hafter⟩ := claimExecutionRequest_request hrep
    refine Or.inr ⟨i, fresh, locked, sup, req, hact, hth, hget, hq, by rw [hc.db_eq]; exact hafter, ?_, by rw [heq]⟩
    rw [hc.threads_eq, Function.update_self, hth, hrep]
    rfl

/-- A request handed out was not handed out before. -/
theorem requests_nodup_step (hd : DeliveryInv cfg s) (hn : s.history.requests.Nodup) (h : Sys.step cfg s a = some s') :
    s'.history.requests.Nodup := by
  rcases requests_log_after h with heq | ⟨i, fresh, locked, sup, req, -, -, hget, hq, -, -, heq⟩
  · rw [heq]; exact hn
  · rw [heq]
    refine List.nodup_append.2 ⟨hn, by simp, ?_⟩
    intro x hx y hy
    rw [List.mem_singleton.1 hy]
    rintro rfl
    obtain ⟨r, hr, hleft⟩ := hd.requested _ hx
    rw [hget] at hr
    cases hr
    exact hleft hq

theorem requested_step (hd : DeliveryInv cfg s) (h : Sys.step cfg s a = some s') :
    ∀ x ∈ s'.history.requests, ∃ r, s'.db.executionRequests.get x = some r ∧ r.status ≠ .queued := by
  have hold : ∀ x ∈ s.history.requests, ∃ r, s'.db.executionRequests.get x = some r ∧ r.status ≠ .queued := by
    intro x hx
    obtain ⟨r, hr, hleft⟩ := hd.requested x hx
    obtain ⟨r', hr', -, hleft'⟩ := request_after_step h hr
    exact ⟨r', hr', hleft' hleft⟩
  intro x hx
  rcases requests_log_after h with heq | ⟨i, fresh, locked, sup, req, -, -, -, -, ⟨r', hr', -, hleft⟩, -, heq⟩
  · rw [heq] at hx
    exact hold x hx
  · rw [heq] at hx
    rcases List.mem_append.1 hx with hx | hx
    · exact hold x hx
    · rw [List.mem_singleton.1 hx]
      exact ⟨r', hr', hleft⟩

theorem one_request_step (hi : ExecInv cfg s) (hd : DeliveryInv cfg s) (h : Sys.step cfg s a = some s') {x y : String}
    {r r' : ExecutionRequestRow} (hr : s'.db.executionRequests.get x = some r)
    (hr' : s'.db.executionRequests.get y = some r') (hjob : r.jobId = r'.jobId) : x = y := by
  -- the execution at its enqueue has no request of its job yet
  have hnew : ∀ {x y : String} {r₀ : ExecutionRequestRow} {q svc : Nat} {spec : JobSpec} {n : Nat} {t : String}
      {o : ExecutionOwner}, s.db.executionRequests.get y = some r₀ → s.threads q = .exec svc spec (.enqueue n t x o) →
      spec.jobId = r₀.jobId → x = y := by
    intro x y r₀ q svc spec n t o hr₀ hq hspec
    exact absurd rfl (request_excludes hi hd hr₀ hq hspec)
  cases request_origin h hr with
  | old r₀ hr₀ hj =>
    cases request_origin h hr' with
    | old r₁ hr₁ hj' => exact hd.one_request x y r₀ r₁ hr₀ hr₁ (by rw [← hj, ← hj', hjob])
    | new q svc spec n t o _ _ _ hq _ hj' => exact (hnew hr₀ hq (by rw [← hj', ← hj, hjob])).symm
  | new q svc spec n t o fresh locked hact hq _ hj =>
    cases request_origin h hr' with
    | old r₁ hr₁ hj' => exact hnew hr₁ hq (by rw [← hj, ← hj', hjob])
    | new q' svc' spec' n' t' o' fresh' locked' hact' hq' _ _ =>
      rw [hact] at hact'
      cases hact'
      rw [hq] at hq'
      cases hq'
      rfl

theorem enqueued_step (hd : DeliveryInv cfg s) (h : Sys.step cfg s a = some s') {x : String}
    {r' : ExecutionRequestRow} (hr' : s'.db.executionRequests.get x = some r') :
    ∃ q svc spec pc, s'.threads q = .exec svc spec pc ∧ spec.jobId = r'.jobId ∧
      (cfg.service svc).executionMode = .supervised ∧ pc.entered = none := by
  cases request_origin h hr' with
  | old r hr hjob =>
    obtain ⟨q, svc, spec, pc, hq, hspec, hmode, hleft⟩ := hd.enqueued x r hr
    obtain ⟨pc', hq', hleft'⟩ := left_after h hq hleft
    exact ⟨q, svc, spec, pc', hq', hspec.trans hjob.symm, hmode, hleft'⟩
  | new q svc spec n t o fresh locked _ hq hq' hjob =>
    exact ⟨q, svc, spec, .returned, hq', hjob.symm, hd.fits q svc spec _ hq, rfl⟩

/-- No entry is of a job whose request is still queued. -/
theorem queued_fresh (hi : ExecInv cfg s) (hd : DeliveryInv cfg s) {x : String} {req : ExecutionRequestRow}
    (hget : s.db.executionRequests.get x = some req) (hq : req.status = .queued) :
    ∀ e ∈ s.history.adapterRuns, e.jobId ≠ req.jobId := by
  intro e he hjob
  cases hsup : e.supervised with
  | true =>
    obtain ⟨y, r, hr, hrjob, hleft⟩ := hd.supervised e he hsup
    obtain rfl := hd.one_request y x r req hr hget (hrjob.trans hjob)
    rw [hget] at hr
    cases hr
    exact hleft hq
  | false =>
    obtain ⟨q, svc, spec, pc, hth, hspec, hmode, -⟩ := hd.external e he hsup
    obtain ⟨q', svc', spec', pc', hth', hspec', hmode', -⟩ := hd.enqueued x req hget
    obtain ⟨-, rfl, -⟩ := one_mode hi.sole hth hth' ((hspec.trans hjob).trans hspec'.symm)
    exact hmode hmode'

theorem ready_step (hi : ExecInv cfg s) (hd : DeliveryInv cfg s) (h : Sys.step cfg s a = some s') {q : Nat}
    {sup : Supervisor} {req : ExecutionRequestRow} (hq : s'.threads q = .supervisor sup (.ready req)) :
    req.executionId ∈ s'.history.requests ∧
    (∃ r, s'.db.executionRequests.get req.executionId = some r ∧ r.jobId = req.jobId) ∧
    ∀ e ∈ s'.history.adapterRuns, e.jobId ≠ req.jobId := by
  rcases ready_origin h hq with hold | ⟨fresh, locked, rfl, hth, hrep⟩
  · obtain ⟨hmem, ⟨r, hr, hjob⟩, hruns⟩ := hd.ready q sup req hold
    obtain ⟨r', hr', hjob', -⟩ := request_after_step h hr
    refine ⟨?_, ⟨r', hr', hjob'.trans hjob⟩, fun e he => ?_⟩
    · rcases requests_log_after h with heq | ⟨_, _, _, _, _, _, _, _, _, _, _, heq⟩
      · rw [heq]; exact hmem
      · rw [heq]; exact List.mem_append_left _ hmem
    · rcases adapterRuns_after h with heq | ⟨i, k, fresh, inp, th, b, run, hadv, hentry, hthi, heq⟩
      · rw [heq] at he
        exact hruns e he
      · rw [heq] at he
        rcases List.mem_append.1 he with he | he
        · exact hruns e he
        · rw [List.mem_singleton.1 he]
          intro hsame
          rcases Thread.advance_adapterRun hadv.advance_eq hentry with
            ⟨svc, spec, n, t, hth, -, rfl⟩ | ⟨sup', req', hth, hth', rfl⟩
          · exact request_excludes hi hd hr hth (hsame.trans hjob.symm) rfl
          · -- the supervisor that enters has the one request of the job, and is not at its launch any more
            obtain ⟨-, ⟨r₁, hr₁, hjob₁⟩, -⟩ := hd.ready i sup' req' hth
            have hid := hd.one_request _ _ r₁ r hr₁ hr ((hjob₁.trans hsame).trans hjob.symm)
            obtain rfl := hd.ready_one i q sup' sup req' req hth hold hid
            rw [hthi, hth'] at hq
            cases hq
  · have hop : ∀ op, Sys.Called cfg s q fresh locked op s' →
        op = .claimExecutionRequest sup.hostId sup.supervisorId locked := by
      intro op hc
      have heq := hc.is_op
      rw [hth] at heq
      cases heq
      rfl
    obtain ⟨op, hc⟩ := Sys.call_some h
    obtain rfl := hop op hc
    obtain ⟨hget, hqueued, ⟨r', hr', hjob', -⟩⟩ := claimExecutionRequest_request hrep
    have hhist := hc.history_eq
    rw [hrep, hth] at hhist
    refine ⟨?_, ⟨r', by rw [hc.db_eq]; exact hr', hjob'⟩, ?_⟩
    · rw [hhist]
      exact List.mem_append_right _ List.mem_cons_self
    · rw [hhist]
      exact queued_fresh hi hd hget hqueued

theorem ready_one_step (hd : DeliveryInv cfg s) (h : Sys.step cfg s a = some s') {q q' : Nat} {sup sup' : Supervisor}
    {req req' : ExecutionRequestRow} (hq : s'.threads q = .supervisor sup (.ready req))
    (hq' : s'.threads q' = .supervisor sup' (.ready req')) (hid : req.executionId = req'.executionId) : q = q' := by
  -- a request claimed in this step was queued, and a request at a launch was not
  have hnew : ∀ {q : Nat} {sup sup' : Supervisor} {req req' : ExecutionRequestRow} {locked : List String},
      s.threads q = .supervisor sup (.ready req) →
      (StoreOp.claimExecutionRequest sup'.hostId sup'.supervisorId locked).reply cfg.backend s.clock s.db =
        .request (some req') → req.executionId ≠ req'.executionId := by
    intro q sup sup' req req' locked hold hrep hsame
    obtain ⟨hget, hqueued, -⟩ := claimExecutionRequest_request hrep
    obtain ⟨r, hr, hleft⟩ := hd.requested _ (hd.ready q sup req hold).1
    rw [hsame, hget] at hr
    cases hr
    exact hleft hqueued
  rcases ready_origin h hq with hold | ⟨fresh, locked, hact, -, hrep⟩
  · rcases ready_origin h hq' with hold' | ⟨fresh', locked', -, -, hrep'⟩
    · exact hd.ready_one q q' sup sup' req req' hold hold' hid
    · exact absurd hid (hnew hold hrep')
  · rcases ready_origin h hq' with hold' | ⟨fresh', locked', hact', -, -⟩
    · exact absurd hid.symm (hnew hold' hrep)
    · rw [hact] at hact'
      cases hact'
      rfl

theorem runs_step (hd : DeliveryInv cfg s) (h : Sys.step cfg s a = some s') {e : AdapterRun}
    (he : e ∈ s'.history.adapterRuns) :
    (e.supervised = true → ∃ x r, s'.db.executionRequests.get x = some r ∧ r.jobId = e.jobId ∧ r.status ≠ .queued) ∧
    (e.supervised = false → ∃ q svc spec pc, s'.threads q = .exec svc spec pc ∧ spec.jobId = e.jobId ∧
      (cfg.service svc).executionMode ≠ .supervised ∧ ∀ k, pc.entered = some k → e.attemptNo ≤ k) := by
  have hold : e ∈ s.history.adapterRuns →
      (e.supervised = true → ∃ x r, s'.db.executionRequests.get x = some r ∧ r.jobId = e.jobId ∧ r.status ≠ .queued) ∧
      (e.supervised = false → ∃ q svc spec pc, s'.threads q = .exec svc spec pc ∧ spec.jobId = e.jobId ∧
        (cfg.service svc).executionMode ≠ .supervised ∧ ∀ k, pc.entered = some k → e.attemptNo ≤ k) := by
    intro he
    refine ⟨fun hsup => ?_, fun hsup => ?_⟩
    · obtain ⟨x, r, hr, hjob, hleft⟩ := hd.supervised e he hsup
      obtain ⟨r', hr', hjob', hleft'⟩ := request_after_step h hr
      exact ⟨x, r', hr', hjob'.trans hjob, hleft' hleft⟩
    · obtain ⟨q, svc, spec, pc, hq, hjob, hmode, hbound⟩ := hd.external e he hsup
      obtain ⟨pc', hq', hbound'⟩ := bound_after h hq hbound
      exact ⟨q, svc, spec, pc', hq', hjob, hmode, hbound'⟩
  rcases adapterRuns_after h with heq | ⟨i, k, fresh, inp, th, b, run, hadv, hentry, hthi, heq⟩
  · rw [heq] at he
    exact hold he
  · rw [heq] at he
    rcases List.mem_append.1 he with he | he
    · exact hold he
    · rw [List.mem_singleton.1 he]
      rcases Thread.advance_adapterRun hadv.advance_eq hentry with
        ⟨svc, spec, n, t, hth, hth', rfl⟩ | ⟨sup, req, hth, -, rfl⟩
      · refine ⟨(fun hsup => by cases hsup), fun _ => ⟨i, svc, spec, .adapter n t, by rw [hthi, hth'], rfl, ?_, ?_⟩⟩
        · exact hd.fits i svc spec _ hth
        · intro m hm
          exact le_of_eq (Option.some.inj hm)
      · refine ⟨fun _ => ?_, (fun hsup => by cases hsup)⟩
        obtain ⟨hmem, ⟨r, hr, hjob⟩, -⟩ := hd.ready i sup req hth
        obtain ⟨r₀, hr₀, hleft⟩ := hd.requested _ hmem
        rw [hr] at hr₀
        cases hr₀
        obtain ⟨r', hr', hjob', hleft'⟩ := request_after_step h hr
        exact ⟨req.executionId, r', hr', hjob'.trans hjob, hleft' hleft⟩

/-- **One step keeps the invariant.** -/
theorem deliveryInv_step (hi : ExecInv cfg s) (hd : DeliveryInv cfg s) (h : Sys.step cfg s a = some s') :
    DeliveryInv cfg s' where
  requested := requested_step hd h
  enqueued _ _ hr := enqueued_step hd h hr
  one_request _ _ _ _ hr hr' hjob := one_request_step hi hd h hr hr' hjob
  fits _ _ _ _ hq := fits_after hd.fits h hq
  ready _ _ _ hq := ready_step hi hd h hq
  ready_one _ _ _ _ _ _ hq hq' hid := ready_one_step hd h hq hq' hid
  supervised _ he := (runs_step hd h he).1
  external _ he := (runs_step hd h he).2

/-- Entries of one job differ in their numbers, and neither is a supervisor's. -/
def Sys.RunsApart (s : Sys) : Prop :=
  s.history.adapterRuns.Pairwise
    (fun e e' => e.jobId = e'.jobId → e.attemptNo ≠ e'.attemptNo ∧ e.supervised = false ∧ e'.supervised = false)

theorem runsApart_step (hi : ExecInv cfg s) (hd : DeliveryInv cfg s) (hr : s.RunsApart)
    (h : Sys.step cfg s a = some s') : s'.RunsApart := by
  unfold Sys.RunsApart
  rcases adapterRuns_after h with heq | ⟨i, k, fresh, inp, th, b, run, hadv, hentry, -, heq⟩
  · rw [heq]; exact hr
  · rw [heq]
    refine List.pairwise_append.2 ⟨hr, List.pairwise_singleton _ _, fun e he e' he' => ?_⟩
    rw [List.mem_singleton.1 he']
    exact launch_apart hi hd hadv hentry e he

end Step

/-! ## Exclusive execution -/

/-- Each Run and each request is handed out once; the adapter is entered once for each Attempt, and once for a job that a
supervisor executes; the Attempts of a job are `1..k`, all but the last `RETRYABLE_FAILURE`, and one at most `RUNNING`. -/
structure ExclusiveExecution (s : Sys) : Prop where
  claims : s.history.claims.Nodup
  requests : s.history.requests.Nodup
  adapterRuns : s.RunsApart
  attempts : ∀ j, ∃ k, s.db.numbered j k
  one_running : ∀ j m n a a', s.db.attempts.get (j, m) = some a → s.db.attempts.get (j, n) = some a' →
    a.status = .running → a'.status = .running → m = n

/-- **Exclusive execution holds in every reachable state.** -/
theorem exclusive_execution (cfg : Config) (acts : List Act) (s : Sys)
    (hmode : ∀ svc, (cfg.service svc).executionMode ≠ .local) (h : Trace.run (Sys.step cfg) Sys.init acts = some s) :
    ExclusiveExecution s := by
  have hinv : (ExecInv cfg s ∧ DeliveryInv cfg s) ∧ s.history.kept = [] ∧ s.history.claims.Nodup ∧
      s.history.requests.Nodup ∧ s.RunsApart := by
    refine Trace.run_preserves (P := fun s => (ExecInv cfg s ∧ DeliveryInv cfg s) ∧ s.history.kept = [] ∧
      s.history.claims.Nodup ∧ s.history.requests.Nodup ∧ s.RunsApart) ?_ ⟨⟨execInv_init cfg, deliveryInv_init cfg⟩, rfl,
      List.nodup_nil, List.nodup_nil, List.Pairwise.nil⟩ h
    rintro s a s' ⟨⟨hi, hd⟩, hkept, hclaims, hrequests, hruns⟩ hstep
    have hkept' : s'.history.kept = [] := kept_nil hmode hstep hkept
    have hsep : s'.Separate := by
      intro j _ hj
      rw [hkept'] at hj
      cases hj
    exact ⟨⟨execInv_step hi hsep hstep, deliveryInv_step hi hd hstep⟩, hkept', claims_nodup_step hi.queue hclaims hstep,
      requests_nodup_step hd hrequests hstep, runsApart_step hi hd hruns hstep⟩
  obtain ⟨⟨hi, -⟩, -, hclaims, hrequests, hruns⟩ := hinv
  have hnum : ∀ j, ∃ k, s.db.numbered j k := by
    intro j
    obtain ⟨p, hp⟩ := s.exists_phase j
    exact Db.inPhase_numbered (hi.attempts j p hp)
  refine ⟨hclaims, hrequests, hruns, hnum, fun j m n a a' ha ha' hrun hrun' => ?_⟩
  obtain ⟨k, hk⟩ := hnum j
  rw [hk.running_last ha hrun, hk.running_last ha' hrun']

theorem overtakenRun_exclusive :
    ∃ s, Trace.run (Sys.step workerConfig) Sys.init overtakenActs = some s ∧ ExclusiveExecution s := by
  have hrun : (Trace.run (Sys.step workerConfig) Sys.init overtakenActs).isSome = true := by decide +kernel
  obtain ⟨s, hs⟩ := Option.isSome_iff_exists.1 hrun
  exact ⟨s, hs, exclusive_execution workerConfig overtakenActs s (fun _ h => by cases h) hs⟩

end EdaLab
