import EdaLab.Exclusive
import EdaLab.Lease
/-!
# Punctual — a lease that is renewed in time is never lost

An Attempt is leased once, and every party that shows a token of it shows the one in its row: its execution, the heartbeat
threads, the supervisor its request went to (`TokenInv`).  So as long as the clock does not pass the expiry in the row
(`InTime`), no recovery takes the Attempt over, and a write that shows its token is refused for its host session only
(`Unfenced`), whatever else is done to the store and whatever becomes of other leases.
-/
namespace EdaLab

open Relational

/-- The Attempt an execution has leased, and its token. -/
def ExecPc.lease (spec : JobSpec) : ExecPc → Option ((String × Nat) × String)
  | register n t _ _   => some ((spec.jobId, n), t)
  | enqueue n t _ _    => some ((spec.jobId, n), t)
  | launch n t         => some ((spec.jobId, n), t)
  | adapter n t        => some ((spec.jobId, n), t)
  | spawned n t _      => some ((spec.jobId, n), t)
  | observe n t _      => some ((spec.jobId, n), t)
  | collect n t _      => some ((spec.jobId, n), t)
  | transition n t _ _ => some ((spec.jobId, n), t)
  | finalize c _       => some ((c.jobId, c.attemptNo), c.token)
  | _                  => none

/-- The Attempt a request delivers, and the token that came with it. -/
def ExecutionRequestRow.lease (r : ExecutionRequestRow) : (String × Nat) × String :=
  ((r.jobId, r.attemptNo), r.payload.leaseToken)

def SupervisorPc.lease : SupervisorPc → Option ((String × Nat) × String)
  | ready req       => some req.lease
  | running req     => some req.lease
  | started req _   => some req.lease
  | witness req _ _ => some req.lease
  | finalize _ c    => some ((c.jobId, c.attemptNo), c.token)
  | _               => none

/-- The Attempt a party has a token of, and the token. -/
def Thread.lease : Thread → Option ((String × Nat) × String)
  | .exec _ spec pc   => pc.lease spec
  | .beat b _         => some ((b.jobId, b.attemptNo), b.token)
  | .supervisor _ pc  => pc.lease
  | _                 => Option.none

/-- The Attempt a call writes by the token it shows, and the token. -/
def StoreOp.fence : StoreOp → Option ((String × Nat) × String)
  | .heartbeatAttempt j n t _              => some ((j, n), t)
  | .recordAttemptProcess j n t _ _ _ _ _  => some ((j, n), t)
  | .recordAttemptExecution j n t _ _      => some ((j, n), t)
  | .transitionAttempt j n t _ _ _ _ _     => some ((j, n), t)
  | .finalizeAttemptAndRun c               => some ((c.jobId, c.attemptNo), c.token)
  | _                                      => none

/-- What such a call asks of the host session besides. -/
def StoreOp.ofSession (now : Time) (db : Db) (a : AttemptRow) : StoreOp → Bool
  | .recordAttemptExecution _ _ _ owner _ =>
    db.currentSession owner.sessionId (fun s =>
      decide (s.hostId = owner.hostId) && decide (s.hostEpoch = owner.hostEpoch) && decide (now ≤ s.leaseExpiresAt))
  | .finalizeAttemptAndRun c => Store.ownerClause db now c.executionOwner a
  | _ => true

/-- The Attempt a call of a recoverer takes over, gives back or abandons. -/
def StoreOp.recovers : StoreOp → Option (String × Nat)
  | .claimRecovery j n _ _ _     => some (j, n)
  | .releaseRecoveryClaim j n _  => some (j, n)
  | .finalizeRecovery j n _ _ _  => some (j, n)
  | _                            => none

/-- The clock has not passed the expiry of the lease of the Attempt. -/
def InTime (k : String × Nat) (s : Sys) (_ : Act) : Prop :=
  (s.db.attempts.get k).all (fun a => !a.isRunning || !a.leaseExpired s.clock) = true

/-- While the Attempt is `RUNNING`: no recovery of it is accepted, it is not leased again, and where its Run is `RUNNING` too
a call that shows a token of it succeeds if the host session it asks for is there. -/
def Unfenced (cfg : Config) (k : String × Nat) (s : Sys) (act : Act) : Prop :=
  ∀ i fresh locked op a, act = .call i fresh locked → (s.threads i).op cfg s locked = some op →
    s.db.attempts.get k = some a → a.status = .running →
    (op.recovers = some k → op.reply cfg.backend s.clock s.db = .flag false) ∧
    (∀ owner token ttl, op = .acquireAttemptLease k.1 k.2 owner token ttl → a.leaseToken = none) ∧
    (∀ t, op.fence = some (k, t) → s.db.runningRun k.1 →
      op.reply cfg.backend s.clock s.db = .flag (op.ofSession s.clock s.db a))

/-! ## Where a token comes from -/

theorem adapterRaised_lease (svc : Service) (spec : JobSpec) (n : Nat) (t : String) (e : AdapterError) :
    (adapterRaised svc spec n t e).lease spec = some ((spec.jobId, n), t) := by
  cases e with
  | cancelled m => rfl
  | timeout m => simp only [adapterRaised]; split <;> rfl
  | connection m => simp only [adapterRaised]; split <;> rfl
  | other m => rfl

theorem collectResult_lease (spec : JobSpec) (n : Nat) (t : String) (r : AdapterReturn) :
    (collectResult spec n t r).lease spec = some ((spec.jobId, n), t) := by
  unfold collectResult
  cases r.parsed with
  | error m => rfl
  | ok result =>
    simp only
    split
    · rfl
    · split
      · rfl
      · split
        · rfl
        · split <;> rfl

/-- A lease comes with an acquisition, and stays the one it is. -/
theorem ExecPc.resume_lease {svc : Service} {spec : JobSpec} {owner : Option ExecutionOwner} {fresh : String}
    {reply : Reply} {pc : ExecPc} {x : (String × Nat) × String} (hwf : pc.Wf spec)
    (h : (pc.resume svc spec owner fresh reply).lease spec = some x) :
    pc.lease spec = some x ∨ (pc = .acquire x.1.2 x.2 ∧ spec.jobId = x.1.1) := by
  cases pc with
  | start => simp only [resume] at h; split at h <;> cases h
  | record n => simp only [resume] at h; split at h <;> cases h
  | acquire n t =>
    refine Or.inr ?_
    simp only [resume] at h
    split at h
    · unfold afterAcquire at h
      split at h
      · cases h; exact ⟨rfl, rfl⟩
      · split at h <;> (cases h; exact ⟨rfl, rfl⟩)
    · cases h; exact ⟨rfl, rfl⟩
  | register n t e o =>
    refine Or.inl ?_
    simp only [resume] at h
    split at h
    · split at h <;> exact h
    · exact h
  | enqueue n t e o =>
    refine Or.inl ?_
    simp only [resume] at h
    split at h
    · cases h
    · exact h
  | observe n t o => exact Or.inl h
  | collect n t r =>
    refine Or.inl ?_
    simp only [resume] at h
    split at h
    · rw [collectResult_lease] at h
      exact h
    · exact h
  | finalize c scope =>
    refine Or.inl ?_
    cases scope with
    | body payload =>
      simp only [resume] at h
      split at h
      · split at h <;> cases h
      · have hjob : c.jobId = spec.jobId := hwf.1
        rw [← h]
        simp only [lease, executionError, hjob]
    | handler => simp only [resume] at h; split at h <;> cases h
  | transition n t e m => simp only [resume] at h; split at h <;> cases h
  | metrics t payload => cases h
  | _ => exact Or.inl h

theorem ExecPc.Advance.lease {svc : Service} {spec : JobSpec} {births : Nat} {pc pc' : ExecPc} {eff : Effect}
    (h : ExecPc.Advance svc spec births pc pc' eff) : pc'.lease spec = pc.lease spec := by
  cases h with
  | raised n t e => exact adapterRaised_lease svc spec n t e
  | _ => rfl

/-- A supervisor claims its request, and keeps it. -/
theorem SupervisorPc.resume_lease {reply : Reply} {pc : SupervisorPc} {x : (String × Nat) × String}
    (h : (pc.resume reply).lease = some x) :
    pc.lease = some x ∨ ∃ req, pc = .claim ∧ reply = .request (some req) ∧ req.lease = x := by
  cases pc with
  | claim =>
    simp only [resume] at h
    split at h
    · rename_i req
      exact Or.inr ⟨req, rfl, rfl, Option.some.inj h⟩
    · cases h
  | started req pid =>
    refine Or.inl ?_
    simp only [resume] at h
    split at h <;> exact h
  | witness req w result =>
    refine Or.inl ?_
    cases result with
    | none => cases h
    | some r =>
      simp only [resume] at h
      split at h
      · unfold SupervisorPc.completion at h
        simp only [SupervisorPc.lease] at h
        split at h <;> exact h
      · cases h
  | finalize req c => simp only [resume] at h; split at h <;> cases h
  | _ => exact Or.inl h

theorem SupervisorPc.Advance.lease {pc pc' : SupervisorPc} {eff : Effect} (h : SupervisorPc.Advance pc pc' eff)
    {x : (String × Nat) × String} (hx : pc'.lease = some x) : pc.lease = some x := by
  cases h <;> first | exact hx | cases hx

/-- A call that shows a token is made by a party that has it. -/
theorem Thread.op_fence {cfg : Config} {s : Sys} {locked : List String} {th : Thread} {op : StoreOp}
    {x : (String × Nat) × String} (h : th.op cfg s locked = some op) (hx : op.fence = some x) : th.lease = some x := by
  cases Thread.op_cases h with
  | submit svc spec pc _ hpc => cases pc <;> cases hpc <;> cases hx
  | exec svc spec pc _ hpc => cases pc <;> cases hpc <;> first | exact hx | cases hx
  | beat b pc _ hpc => cases pc <;> cases hpc <;> first | exact hx | cases hx
  | scan svc r _ _ _ hr => cases RecoverPc.op_cases hr <;> cases hx
  | supervisor sup pc _ hpc => cases pc <;> cases hpc <;> first | exact hx | cases hx
  | _ => cases hx

section Step

variable {cfg : Config} {s s' : Sys} {a : Act}

/-- Where the token of a party comes from: a party had it, a request brought it, or its execution acquires the lease. -/
inductive LeaseOrigin (cfg : Config) (s s' : Sys) (x : (String × Nat) × String) : Prop
  | held (i : Nat) (lease_eq : (s.threads i).lease = some x)
  | requested (e : String) (r : ExecutionRequestRow) (get_eq : s.db.executionRequests.get e = some r)
      (lease_eq : r.lease = x)
  | acquired (q svc : Nat) (spec : JobSpec) (fresh : String) (locked : List String)
      (thread_eq : s.threads q = .exec svc spec (.acquire x.1.2 x.2)) (job_eq : spec.jobId = x.1.1)
      (call : Sys.Called cfg s q fresh locked (.acquireAttemptLease x.1.1 x.1.2 (cfg.service svc).workerId x.2
        (cfg.service svc).leaseSeconds) s')

theorem lease_origin (hi : QueueInv cfg s) (h : Sys.step cfg s a = some s') {i : Nat} {x : (String × Nat) × String}
    (hx : (s'.threads i).lease = some x) : LeaseOrigin cfg s s' x := by
  cases thread_after i h with
  | same heq => exact .held i (by rw [← heq, hx])
  | entered th _ _ hentry heq =>
    rw [heq] at hx
    cases th with
    | exec _ _ _ => cases hentry
    | beat _ _ => cases hentry
    | supervisor sup pc =>
      cases pc with
      | claim => cases hx
      | _ => cases hentry
    | _ => cases hx
  | called fresh locked op _ hc heq =>
    rw [heq] at hx
    have hop := hc.is_op
    have hwf := hi.wf i
    cases hth : s.threads i with
    | exec svc spec pc =>
      rw [hth] at hx hop hwf
      rcases ExecPc.resume_lease hwf hx with hold | ⟨rfl, hjob⟩
      · exact .held i (by rw [hth]; exact hold)
      · cases hop
        exact .acquired i svc spec fresh locked hth hjob (by rw [← hjob]; exact hc)
    | beat b pc => exact .held i (by rw [hth] at hx ⊢; exact hx)
    | supervisor sup pc =>
      rw [hth] at hx hop
      rcases SupervisorPc.resume_lease hx with hold | ⟨req, rfl, hrep, hreq⟩
      · exact .held i (by rw [hth]; exact hold)
      · cases hop
        exact .requested _ req (claimExecutionRequest_request hrep).1 hreq
    | _ => rw [hth] at hx; cases hx
  | advanced k fresh inp th eff _ hadv heq =>
    rw [heq] at hx
    have hadv' := hadv.advance_eq
    cases hth : s.threads i with
    | none => rw [hth] at hadv'; cases hadv'
    | exec svc spec pc =>
      rw [hth] at hadv'
      obtain ⟨⟨pc', eff'⟩, hy, hy'⟩ := Option.map_eq_some_iff.1 hadv'
      cases hy'
      refine .held i ?_
      rw [hth]
      exact (ExecPc.advance_cases hy).lease.symm.trans hx
    | beat b pc =>
      rw [hth] at hadv'
      obtain ⟨pc', hy, hy'⟩ := Option.map_eq_some_iff.1 hadv'
      cases hy'
      exact .held i (by rw [hth]; exact hx)
    | supervisor sup pc =>
      rw [hth] at hadv'
      obtain ⟨⟨pc', eff'⟩, hy, hy'⟩ := Option.map_eq_some_iff.1 hadv'
      cases hy'
      exact .held i (by rw [hth]; exact (SupervisorPc.advance_cases hy).lease hx)
    | _ =>
      rw [hth] at hadv'
      obtain ⟨y, -, hy'⟩ := Option.map_eq_some_iff.1 hadv'
      cases hy'
      cases hx
  | executed _ _ _ _ _ _ _ _ _ _ heq => rw [heq] at hx; cases hx
  | beat p fresh inp th b run _ hadv hentry _ heq =>
    rw [heq] at hx
    refine .held p ?_
    rcases Thread.advance_adapterRun hadv.advance_eq hentry with ⟨svc, spec, n, t, hth, rfl, -⟩ | ⟨sup, req, hth, rfl, -⟩
    · cases hentry
      rw [hth]
      exact hx
    · cases hentry
      rw [hth]
      exact hx
  | cancelled _ _ _ heq => rw [heq] at hx; cases hx

/-- An acquisition is of an Attempt that was never leased. -/
theorem acquired_bare (hi : ExecInv cfg s) {i n : Nat} {locked : List String} {j owner token : String} {ttl : Time}
    (hop : (s.threads i).op cfg s locked = some (.acquireAttemptLease j n owner token ttl)) :
    ∃ a, s.db.attempts.get (j, n) = some a ∧ a.Bare := by
  obtain ⟨svc, spec, pc, hth, hjob, hpc⟩ := Thread.op_ofExecution hop rfl
  cases pc with
  | acquire m t =>
    cases hpc
    obtain ⟨-, -, a, ha, hbare⟩ := hi.attempts spec.jobId (.bare n) (Or.inl ⟨i, svc, spec, _, hth, rfl, rfl⟩)
    exact ⟨a, ha, hbare⟩
  | _ => cases hpc

/-- A recording is of an Attempt that is not there. -/
theorem recorded_new (hi : ExecInv cfg s) {i n : Nat} {locked : List String} {j : String} {st : AttemptStatus}
    {et e ap : Option String} {rc : Option RetryClass}
    (hop : (s.threads i).op cfg s locked = some (.recordAttempt j n st et e ap rc)) :
    s.db.attempts.get (j, n) = none := by
  obtain ⟨svc, spec, pc, hth, hjob, hpc⟩ := Thread.op_ofExecution hop rfl
  cases pc with
  | record m =>
    cases hpc
    have hpos : 1 ≤ n := by
      have hwf := hi.queue.wf i
      rw [hth] at hwf
      exact hwf
    obtain ⟨-, hn, -⟩ := hi.attempts spec.jobId (.between (n - 1)) (Or.inl ⟨i, svc, spec, _, hth, rfl, rfl⟩)
    rw [Option.eq_none_iff_forall_ne_some]
    intro a ha
    have hle := ((hn.isSome_iff n).1 (by rw [ha]; rfl)).2
    omega
  | _ => cases hpc

/-! ## The tokens in the rows -/

/-- The Attempt has been leased under the token. -/
def Db.leasedAs (db : Db) (x : (String × Nat) × String) : Prop :=
  ∃ a, db.attempts.get x.1 = some a ∧ a.leaseToken = some x.2 ∧ a.leaseExpiresAt.isSome = true

/-- **Every token a party or a request has is the one in the row of its Attempt.** -/
structure TokenInv (s : Sys) : Prop where
  party : ∀ i x, (s.threads i).lease = some x → s.db.leasedAs x
  request : ∀ e r, s.db.executionRequests.get e = some r → s.db.leasedAs r.lease

/-- A leased Attempt keeps its token. -/
theorem leasedAs_after (hi : ExecInv cfg s) (h : Sys.step cfg s a = some s') {x : (String × Nat) × String}
    (hx : s.db.leasedAs x) : s'.db.leasedAs x := by
  obtain ⟨row, hrow, htoken, hexpiry⟩ := hx
  rcases Sys.step_db h with hdb | ⟨i, fresh, locked, op, -, hc⟩
  · exact ⟨row, by rw [hdb]; exact hrow, htoken, hexpiry⟩
  · obtain ⟨row', hrow'⟩ := attempt_persists cfg.backend s.clock s.db op hrow
    refine ⟨row', by rw [hc.db_eq]; exact hrow', ?_⟩
    rcases lease_after cfg.backend s.clock s.db op hrow hrow' with ⟨hsame, ht⟩ | ⟨ttl, -, rfl⟩ |
      ⟨owner, token, ttl, rfl, -⟩
    · exact ⟨ht.trans htoken, by rw [hsame]; exact hexpiry⟩
    · exact ⟨htoken, rfl⟩
    · obtain ⟨bare, hget, hbare⟩ := acquired_bare hi hc.is_op
      rw [hrow] at hget
      cases hget
      rw [hbare.no_token] at htoken
      cases htoken

theorem tokenInv_step (hi : ExecInv cfg s) (ht : TokenInv s) (h : Sys.step cfg s a = some s') : TokenInv s' where
  party i x hx := by
    cases lease_origin hi.queue h hx with
    | held q hq => exact leasedAs_after hi h (ht.party q x hq)
    | requested e r hr hrx => exact leasedAs_after hi h (hrx ▸ ht.request e r hr)
    | acquired q svc spec fresh locked hth hjob hc =>
      obtain ⟨row, hrow, hbare⟩ := acquired_bare hi hc.is_op
      have hg : (Store.acquireAttemptLease s.clock x.1.1 x.1.2 (cfg.service svc).workerId x.2
          (cfg.service svc).leaseSeconds).guard row = true := by
        simp [Store.acquireAttemptLease, AttemptRow.isRunning, hbare.running, hbare.no_expiry]
      have hget := AttemptUpdate.get_exec_key _ s.db hrow hg
      exact ⟨_, by rw [hc.db_eq]; exact hget, rfl, rfl⟩
  request e r hr := by
    rcases Sys.step_db h with hdb | ⟨i, fresh, locked, op, -, hc⟩
    · rw [hdb] at hr
      exact leasedAs_after hi h (ht.request e r hr)
    · rw [hc.db_eq] at hr
      rcases request_after cfg.backend s.clock s.db op hr with ⟨r₀, hr₀, hkept⟩ | ⟨rfl, -⟩
      · have hsame : r.lease = r₀.lease := by
          rw [hkept]
          rfl
        rw [hsame]
        exact leasedAs_after hi h (ht.request e r₀ hr₀)
      · obtain ⟨svc, spec, pc, hth, -, hpc⟩ := Thread.op_ofExecution hc.is_op rfl
        refine leasedAs_after hi h (ht.party i r.lease ?_)
        rw [hth]
        cases pc with
        | enqueue n t x o =>
          simp only [ExecPc.op, Option.some.injEq, StoreOp.enqueueExecutionRequest.injEq] at hpc
          obtain ⟨-, hjob, hn, -, hpayload⟩ := hpc
          simp only [Thread.lease, ExecPc.lease, ExecutionRequestRow.lease, ← hjob, ← hn, ← hpayload]
        | _ => cases hpc

/-! ## No recovery of a lease in time -/

theorem InTime.not_expired {k : String × Nat} {act : Act} {row : AttemptRow} (h : InTime k s act)
    (hrow : s.db.attempts.get k = some row) (hrun : row.status = .running) : row.leaseExpired s.clock = false := by
  simpa [InTime, hrow, AttemptRow.isRunning, hrun] using h

/-- No recovery is claimed on the Attempt while it is `RUNNING`. -/
def Unclaimed (k : String × Nat) (s : Sys) : Prop :=
  ∀ row, s.db.attempts.get k = some row → row.status = .running → row.recoveryToken = none

theorem unclaimed_step (hi : ExecInv cfg s) {k : String × Nat} (hu : Unclaimed k s) (htime : InTime k s a)
    (h : Sys.step cfg s a = some s') : Unclaimed k s' := by
  intro row' hrow' hrun
  rcases Sys.step_db h with hdb | ⟨i, fresh, locked, op, -, hc⟩
  · rw [hdb] at hrow'
    exact hu row' hrow' hrun
  · rw [hc.db_eq] at hrow'
    cases attempts_after cfg.backend s.clock s.db op k with
    | same hget =>
      rw [hget] at hrow'
      exact hu row' hrow' hrun
    | recorded st et e ap rc is_op _ hget =>
      subst is_op
      rw [hget, recorded_new hi hc.is_op] at hrow'
      cases hrow'
      rfl
    | renewed _ _ row _ hrow _ hget =>
      rw [hget] at hrow'
      cases hrow'
      exact hu row hrow hrun
    | updated u row is_op _ hrow hg hget _ =>
      rw [hget] at hrow'
      cases hrow'
      have hrunning := attemptUpdate_running is_op hg
      rcases attemptUpdate_recovery is_op with ⟨j, n, owner, token, ttl, rfl⟩ | ⟨j, n, token, rfl⟩ | hsame
      · cases is_op
        simp only [Store.claimRecovery, Bool.and_eq_true] at hg
        rw [htime.not_expired hrow hrunning] at hg
        cases hg.1.2
      · cases is_op
        rfl
      · rw [(hsame row).1]
        exact hu row hrow hrunning

end Step

/-! ## What a call finds -/

section Calls

variable {b : Backend} {now : Time} {db : Db} {op : StoreOp} {k : String × Nat} {a : AttemptRow}

/-- A statement on the row replies with its guard. -/
theorem reply_of_guard {u : AttemptUpdate} (hu : op.exec b now db = Reply.ofFlag (u.exec db))
    (ha : db.attempts.get u.key = some a) : op.reply b now db = .flag (u.guard a) := by
  have hguard : (u.exec db).2 = u.guard a := by
    rw [Bool.eq_iff_iff, u.exec_true_iff db]
    constructor
    · rintro ⟨x, hx, hg⟩
      rw [ha] at hx
      cases hx
      exact hg
    · exact fun hg => ⟨a, ha, hg⟩
  rw [StoreOp.reply, hu, Reply.ofFlag, hguard]

/-- A call that shows the token of a live lease succeeds if its host session is there. -/
theorem fence_reply {t : String} (hop : op.fence = some (k, t)) (hrun : db.runningRun k.1)
    (ha : db.attempts.get k = some a) (hst : a.status = .running) (ht : a.leaseToken = some t)
    (hlive : a.leaseLive now = true) (hnone : a.recoveryToken = none) :
    op.reply b now db = .flag (op.ofSession now db a) := by
  have hrunning : a.isRunning = true := by simp [AttemptRow.isRunning, hst]
  have hholds : a.holdsLease t = true := by simp [AttemptRow.holdsLease, ht]
  have hfree : a.recoveryFree now = true := by simp [AttemptRow.recoveryFree, hnone]
  cases op with
  | heartbeatAttempt j n t' ttl =>
    cases hop
    rw [reply_of_guard rfl ha]
    simp [Store.heartbeatAttempt, StoreOp.ofSession, hrunning, hholds, hlive]
  | recordAttemptProcess j n t' pid st i g d =>
    cases hop
    rw [reply_of_guard rfl ha]
    simp [Store.recordAttemptProcess, StoreOp.ofSession, hrunning, hholds]
  | recordAttemptExecution j n t' o e =>
    cases hop
    rw [reply_of_guard rfl ha]
    simp [Store.recordAttemptExecution, StoreOp.ofSession, hrunning, hholds]
  | transitionAttempt j n t' st et e ap rc =>
    cases hop
    rw [reply_of_guard rfl ha]
    simp [Store.transitionAttempt, StoreOp.ofSession, hrunning, hholds, hlive, hfree]
  | finalizeAttemptAndRun c =>
    cases hop
    have hguard : (Store.completeAttempt db now c).guard a = Store.ownerClause db now c.executionOwner a := by
      simp [Store.completeAttempt, hrunning, hholds, hlive, hfree]
    simp only [StoreOp.ofSession, ← hguard]
    cases finalizer_cases b (rfl : (StoreOp.finalizeAttemptAndRun c).finalizer now db = some _) with
    | accepted hen _ hreply _ _ _ =>
      obtain ⟨x, hx, hg⟩ := hen
      obtain rfl : a = x := Option.some.inj (ha.symm.trans hx)
      rw [hreply, ← hg]
    | noAttempt hne hreply _ =>
      have hg : (Store.completeAttempt db now c).guard a = false := by
        rw [Bool.eq_false_iff]
        exact fun hg => hne ⟨a, ha, hg⟩
      rw [hreply, hg]
    | noRun _ hno _ _ => exact absurd hrun hno
  | _ => cases hop

/-- A recovery of an Attempt whose lease has not expired and that no one has claimed is refused. -/
theorem recovers_refused (hop : op.recovers = some k) (ha : db.attempts.get k = some a)
    (hexpired : a.leaseExpired now = false) (hnone : a.recoveryToken = none) : op.reply b now db = .flag false := by
  cases op with
  | claimRecovery j n owner token ttl =>
    cases hop
    rw [reply_of_guard rfl ha]
    simp [Store.claimRecovery, hexpired]
  | releaseRecoveryClaim j n token =>
    cases hop
    rw [reply_of_guard rfl ha]
    simp [Store.releaseRecoveryClaim, AttemptRow.holdsRecovery, hnone]
  | finalizeRecovery j n token et e =>
    cases hop
    obtain ⟨ok, hreply, hen⟩ := attemptUpdate_reply b
      (rfl : (StoreOp.finalizeRecovery j n token et e).attemptUpdate now db = some _)
    cases ok with
    | false => exact hreply
    | true =>
      obtain ⟨x, hx, hg⟩ := hen rfl
      obtain rfl : a = x := Option.some.inj (ha.symm.trans hx)
      simp [Store.abandonAttempt, AttemptRow.holdsRecovery, hnone] at hg
  | _ => cases hop

end Calls

theorem unfenced_of_inTime {cfg : Config} {k : String × Nat} {s : Sys} {act : Act} (hi : ExecInv cfg s) (ht : TokenInv s)
    (hu : Unclaimed k s) (htime : InTime k s act) : Unfenced cfg k s act := by
  intro i fresh locked op a _ hop ha hst
  have hexpired := htime.not_expired ha hst
  have hnone := hu a ha hst
  refine ⟨fun hrec => recovers_refused hrec ha hexpired hnone, ?_, fun t hfence hrun => ?_⟩
  · rintro owner token ttl rfl
    obtain ⟨x, hx, hbare⟩ := acquired_bare hi hop
    obtain rfl : a = x := Option.some.inj (ha.symm.trans hx)
    exact hbare.no_token
  · obtain ⟨x, hx, htoken, hexpiry⟩ := ht.party i (k, t) (Thread.op_fence hop hfence)
    obtain rfl : a = x := Option.some.inj (ha.symm.trans hx)
    have hlive : a.leaseLive s.clock = true := by
      obtain ⟨e, he⟩ := Option.isSome_iff_exists.1 hexpiry
      refine leaseLive_iff.2 ⟨e, he, ?_⟩
      simpa [AttemptRow.leaseExpired, he] using hexpired
    exact fence_reply hfence hrun ha hst htoken hlive hnone

/-- **In every run in which the lease of an Attempt is renewed in time, nobody takes the Attempt over and no write of it by
its token is refused but for a host session.** -/
theorem punctual_attempt_unfenced (cfg : Config) (k : String × Nat) (acts : List Act) (s : Sys)
    (h : Trace.run (Sys.step cfg) Sys.init acts = some s) (hsep : s.Separate)
    (htime : Trace.Every (Sys.step cfg) (InTime k) Sys.init acts) :
    Trace.Every (Sys.step cfg) (Unfenced cfg k) Sys.init acts := by
  have hevery := Trace.every_and htime (separate_steps h hsep)
  have hinit : TokenInv Sys.init := ⟨(fun i x hx => by cases hx), (fun e r hr => by cases hr)⟩
  refine Trace.every_of_inv (P := fun m => ExecInv cfg m ∧ TokenInv m ∧ Unclaimed k m) ?_ ?_
    ⟨execInv_init cfg, hinit, (fun row hrow => by cases hrow)⟩ hevery
  · rintro m act m' ⟨hi, ht, hu⟩ ⟨hin, hsep'⟩ hstep
    exact ⟨execInv_step hi (hsep' m' hstep) hstep, tokenInv_step hi ht hstep, unclaimed_step hi hu hin hstep⟩
  · rintro m act ⟨hi, ht, hu⟩ ⟨hin, -⟩
    exact unfenced_of_inTime hi ht hu hin

/-- The worker heartbeats at 20 and returns at 40, behind the first expiry and before the second. -/
def punctualActs : List Act :=
  claimActs ++
  [.call 2 "c3" [], .call 2 "c4" [], .advance 2 4 "c5" .go, .tick 20, .advance 4 0 "h1" .go, .call 4 "h2" [], .tick 40,
   .advance 2 0 "c6" (.returned timingReturn), .call 2 "c7" [], .call 2 "c8" []]

theorem punctualActs_unfenced :
    Trace.Every (Sys.step workerConfig) (Unfenced workerConfig ("job", 1)) Sys.init punctualActs := by
  have hrun : (Trace.run (Sys.step workerConfig) Sys.init punctualActs).map (fun s => decide (s.history.kept = [])) =
      some true := by
    decide +kernel
  have htime : Trace.Every (Sys.step workerConfig) (fun s _ => (s.db.attempts.get ("job", 1)).all
      (fun a => !a.isRunning || !a.leaseExpired s.clock) = true) Sys.init punctualActs := by
    decide +kernel
  obtain ⟨s, hs, hkept⟩ := Option.map_eq_some_iff.1 hrun
  refine punctual_attempt_unfenced workerConfig ("job", 1) punctualActs s hs (fun j _ hj => ?_) htime
  rw [of_decide_eq_true hkept] at hj
  cases hj

end EdaLab
