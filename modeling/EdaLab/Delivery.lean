import EdaLab.Execution
import Mathlib.Data.List.Pairwise
/-!
# Delivery — the adapter is entered once for each Attempt

An execution enters its adapter with ever larger Attempt numbers (`ExecPc.entered`).  A supervised one enters none: it
enqueues one request and leaves, the request is claimed once, and its supervisor enters the adapter once
(`DeliveryInv`).  With the phases of the rows this is exclusive execution.
-/
namespace EdaLab

open Relational

/-! ## What a call can do to one execution request -/

inductive RequestChange (b : Backend) (now : Time) (db : Db) (op : StoreOp) (x : String) : Prop
  | same (get_after : (op.after b now db).executionRequests.get x = db.executionRequests.get x)
  | enqueued (j : String) (n : Nat) (h : String) (p : RequestPayload) (r : ExecutionRequestRow)
      (is_op : op = .enqueueExecutionRequest x j n h p) (get_before : db.executionRequests.get x = none)
      (get_after : (op.after b now db).executionRequests.get x = some r) (job_eq : r.jobId = j)
      (replied : op.reply b now db = .flag true)
  | moved (r r' : ExecutionRequestRow) (get_before : db.executionRequests.get x = some r)
      (get_after : (op.after b now db).executionRequests.get x = some r') (job_eq : r'.jobId = r.jobId)
      (left : r'.status ≠ .queued)

/-- An update that moves the requests it matches out of the queue. -/
theorem requests_moved {t : Table ExecutionRequestRow.executionId} (p : ExecutionRequestRow → Bool)
    (f : ExecutionRequestRow → ExecutionRequestRow) (hf : ∀ r, (f r).executionId = r.executionId)
    (hjob : ∀ r, (f r).jobId = r.jobId) (hleft : ∀ r, (f r).status ≠ .queued) (x : String) :
    (t.updateWhere p f hf).get x = t.get x ∨
    ∃ r r', t.get x = some r ∧ (t.updateWhere p f hf).get x = some r' ∧ r'.jobId = r.jobId ∧ r'.status ≠ .queued := by
  rw [Table.get_updateWhere]
  cases ht : t.get x with
  | none => exact Or.inl rfl
  | some r =>
    by_cases hp : p r = true
    · exact Or.inr ⟨r, f r, rfl, by simp [hp], hjob r, hleft r⟩
    · exact Or.inl (by simp [hp])

theorem requests_moved_change {b : Backend} {now : Time} {db : Db} {op : StoreOp} (x : String)
    {p : ExecutionRequestRow → Bool} {f : ExecutionRequestRow → ExecutionRequestRow}
    {hf : ∀ r, (f r).executionId = r.executionId}
    (h : (op.after b now db).executionRequests = db.executionRequests.updateWhere p f hf)
    (hjob : ∀ r, (f r).jobId = r.jobId) (hleft : ∀ r, (f r).status ≠ .queued) : RequestChange b now db op x := by
  rcases requests_moved p f hf hjob hleft x with hs | ⟨r, r', hr, hr', hj, hl⟩
  · exact .same (by rw [h, hs])
  · exact .moved r r' hr (by rw [h, hr']) hj hl

theorem finalizer_requests {b : Backend} {now : Time} {db : Db} {op : StoreOp} {c : Finalizer} (x : String)
    (hop : op.finalizer now db = some c) : RequestChange b now db op x := by
  cases finalizer_cases b hop with
  | accepted _ _ _ rest hrest hafter =>
    rcases hrest with rfl | ⟨j, n, rfl⟩
    · exact .same (by rw [hafter])
    · have h : (op.after b now db).executionRequests =
          db.executionRequests.updateWhere
            (fun e => decide (e.jobId = j) && decide (e.attemptNo = n) && e.isActive)
            (fun e => { e with status := .unavailable }) (fun _ => rfl) := by
        rw [hafter]
        rfl
      exact requests_moved_change x h (fun _ => rfl) (fun _ hq => by cases hq)
  | noAttempt _ _ hafter => exact .same (by rw [hafter])
  | noRun _ _ _ hafter => exact .same (by rw [hafter]; cases b <;> rfl)

/-- **What a call can do to one execution request.** -/
theorem requests_after (b : Backend) (now : Time) (db : Db) (op : StoreOp) (x : String) :
    RequestChange b now db op x := by
  cases op with
  | enqueueExecutionRequest e j n h p =>
    cases hi : db.executionRequests.insertNew
        { executionId := e, jobId := j, attemptNo := n, hostId := h, status := .queued, payload := p, createdAt := now } with
    | none => exact .same (by simp only [StoreOp.after, StoreOp.exec, Store.enqueueExecutionRequest, Reply.ofFlag, hi])
    | some t =>
      have hget := Table.get_insertNew hi x
      by_cases hx : e = x
      · subst hx
        refine .enqueued j n h p
          { executionId := e, jobId := j, attemptNo := n, hostId := h, status := .queued, payload := p, createdAt := now }
          rfl (Table.get_key_of_insertNew hi) ?_ rfl ?_
        · simp only [StoreOp.after, StoreOp.exec, Store.enqueueExecutionRequest, Reply.ofFlag, hi]
          rw [hget]
          exact if_pos rfl
        · simp only [StoreOp.reply, StoreOp.exec, Store.enqueueExecutionRequest, Reply.ofFlag, hi]
      · refine .same ?_
        simp only [StoreOp.after, StoreOp.exec, Store.enqueueExecutionRequest, Reply.ofFlag, hi]
        rw [hget]
        exact if_neg hx
  | claimExecutionRequest h s locked =>
    cases hn : Store.nextRequest db h (b.locked locked) with
    | none => exact .same (by simp only [StoreOp.after, StoreOp.exec, Store.claimExecutionRequest, hn])
    | some row =>
      have hclaim : ((StoreOp.claimExecutionRequest h s locked).after b now db).executionRequests =
          db.executionRequests.updateWhere
            (fun e => decide (e.executionId = row.executionId) && decide (e.status = .queued))
            (fun e => { e with status := .claimed, supervisorId := some s, claimedAt := some now }) (fun _ => rfl) := by
        simp only [StoreOp.after, StoreOp.exec, Store.claimExecutionRequest, hn]
      exact requests_moved_change x hclaim (fun _ => rfl) (fun _ hq => by cases hq)
  | recordSupervisorProcessStarted e s pid =>
    have h : ((StoreOp.recordSupervisorProcessStarted e s pid).after b now db).executionRequests =
        db.executionRequests.updateWhere (Store.isClaimedBy e s)
          (fun r => { r with status := .running, processPid := some pid, processStartedAt := some now })
            (fun _ => rfl) := rfl
    exact requests_moved_change x h (fun _ => rfl) (fun _ hq => by cases hq)
  | recordTerminationWitness e kind code ap detail =>
    cases hr : db.executionRequests.get e with
    | none => exact .same (by simp only [StoreOp.after, StoreOp.exec, Store.recordTerminationWitness, Reply.ofFlag, hr])
    | some row =>
      cases hw : db.executionWitnesses.insertNew ⟨e, kind, now, code, ap, detail⟩ with
      | none => exact .same (by simp only [StoreOp.after, StoreOp.exec, Store.recordTerminationWitness, Reply.ofFlag,
          hr, hw])
      | some ws =>
        have h : ((StoreOp.recordTerminationWitness e kind code ap detail).after b now db).executionRequests =
            db.executionRequests.updateWhere
              (fun r => decide (r.executionId = e) && decide (r.status = .claimed ∨ r.status = .running))
              (fun r => { r with status := .completed }) (fun _ => rfl) := by
          simp only [StoreOp.after, StoreOp.exec, Store.recordTerminationWitness, Reply.ofFlag, hr, hw]
        exact requests_moved_change x h (fun _ => rfl) (fun _ hq => by cases hq)
  | releaseTerminalExecutionRequests =>
    cases b with
    | sqlite => exact .same rfl
    | postgres =>
      have h : ((StoreOp.releaseTerminalExecutionRequests).after .postgres now db).executionRequests =
          db.executionRequests.updateWhere (PostgresStore.isUnwitnessedLeftover db)
            (fun e => { e with status := .unavailable }) (fun _ => rfl) := rfl
      exact requests_moved_change x h (fun _ => rfl) (fun _ hq => by cases hq)
  | finalizeRecovery j n token et e => exact finalizer_requests x rfl
  | finalizeAttemptAndRun c => exact finalizer_requests x rfl
  | createRun j d f g h m p =>
    have hins : ∀ r, (Store.insertRun db r).1.executionRequests = db.executionRequests := by
      intro r
      unfold Store.insertRun
      split <;> rfl
    refine .same ?_
    simp only [StoreOp.after, StoreOp.exec, Store.createRun, Reply.ofCreate]
    split
    · rw [hins]
    · split
      · rfl
      · split
        · rfl
        · rw [hins]
  | updateRun j fields =>
    refine .same ?_
    simp only [StoreOp.after, StoreOp.exec, Store.updateRun]
    split <;> rfl
  | recordAttempt j n st et e ap rc =>
    refine .same ?_
    simp only [StoreOp.after, StoreOp.exec, Store.recordAttempt, Reply.ofExcept]
    split <;> rfl
  | startHostSession owner ttl =>
    refine .same ?_
    simp only [StoreOp.after, StoreOp.exec, Store.startHostSession, Reply.ofExcept]
    split <;> rfl
  | claimNextRun locked =>
    refine .same ?_
    cases b with
    | sqlite => rfl
    | postgres =>
      simp only [StoreOp.after, StoreOp.exec, PostgresStore.claimNextRun]
      split <;> rfl
  | countActiveExecutionRequests h => cases b <;> exact .same rfl
  | _ => exact .same rfl

theorem request_persists (b : Backend) (now : Time) {db : Db} (op : StoreOp) {x : String} {r : ExecutionRequestRow}
    (hr : db.executionRequests.get x = some r) :
    ∃ r', (op.after b now db).executionRequests.get x = some r' ∧ r'.jobId = r.jobId ∧
      (r.status ≠ .queued → r'.status ≠ .queued) := by
  cases requests_after b now db op x with
  | same h => exact ⟨r, by rw [h, hr], rfl, fun h => h⟩
  | enqueued _ _ _ _ _ _ hn => rw [hr] at hn; cases hn
  | moved r₀ r' hr₀ hr' hjob hleft =>
    rw [hr] at hr₀
    cases hr₀
    exact ⟨r', hr', hjob, fun _ => hleft⟩

/-- The request was enqueued as `r` is: it differs in the columns its delivery writes. -/
def ExecutionRequestRow.Kept (r r' : ExecutionRequestRow) : Prop :=
  r' = { r with
    status := r'.status, supervisorId := r'.supervisorId, claimedAt := r'.claimedAt, processPid := r'.processPid,
    processStartedAt := r'.processStartedAt }

theorem requests_kept {t : Table ExecutionRequestRow.executionId} {p : ExecutionRequestRow → Bool}
    {f : ExecutionRequestRow → ExecutionRequestRow} (hf : ∀ r, (f r).executionId = r.executionId) {x : String}
    {r' : ExecutionRequestRow} (hr' : (t.updateWhere p f hf).get x = some r') (hkept : ∀ r : ExecutionRequestRow,
      r.Kept (f r)) :
    ∃ r, t.get x = some r ∧ r.Kept r' := by
  rw [Table.get_updateWhere] at hr'
  obtain ⟨r, hr, rfl⟩ := Option.map_eq_some_iff.1 hr'
  refine ⟨r, hr, ?_⟩
  split
  · exact hkept r
  · rfl

theorem finalizer_kept {b : Backend} {now : Time} {db : Db} {op : StoreOp} {c : Finalizer} {x : String}
    {r' : ExecutionRequestRow} (hop : op.finalizer now db = some c)
    (hr' : (op.after b now db).executionRequests.get x = some r') :
    ∃ r, db.executionRequests.get x = some r ∧ r.Kept r' := by
  cases finalizer_cases b hop with
  | accepted _ _ _ rest hrest hafter =>
    rw [hafter] at hr'
    rcases hrest with rfl | ⟨j, n, rfl⟩
    · exact ⟨r', hr', rfl⟩
    · refine requests_kept (fun _ => ?_) hr' (fun _ => ?_) <;> rfl
  | noAttempt _ _ hafter =>
    rw [hafter] at hr'
    exact ⟨r', hr', rfl⟩
  | noRun _ _ _ hafter =>
    rw [hafter] at hr'
    refine ⟨r', ?_, rfl⟩
    cases b <;> exact hr'

/-- **A request keeps what it was enqueued with.** -/
theorem request_after (b : Backend) (now : Time) (db : Db) (op : StoreOp) {x : String} {r' : ExecutionRequestRow}
    (hr' : (op.after b now db).executionRequests.get x = some r') :
    (∃ r, db.executionRequests.get x = some r ∧ r.Kept r') ∨
    (op = .enqueueExecutionRequest x r'.jobId r'.attemptNo r'.hostId r'.payload ∧ r'.createdAt = now ∧
      r'.status = .queued) := by
  cases requests_after b now db op x with
  | same h => exact Or.inl ⟨r', by rw [← h, hr'], rfl⟩
  | enqueued j n h p r is_op hnone _ _ _ =>
    subst is_op
    simp only [StoreOp.after, StoreOp.exec, Store.enqueueExecutionRequest, Reply.ofFlag] at hr'
    split at hr'
    · rename_i requests hins
      rw [Table.get_insertNew hins, if_pos rfl] at hr'
      cases hr'
      exact Or.inr ⟨rfl, rfl, rfl⟩
    · rw [hnone] at hr'
      cases hr'
  | moved r₀ r₁ hr₀ hr₁ _ _ =>
    refine Or.inl ?_
    cases op with
    | claimExecutionRequest h s locked =>
      simp only [StoreOp.after, StoreOp.exec, Store.claimExecutionRequest] at hr'
      split at hr'
      · exact ⟨r', hr', rfl⟩
      · refine requests_kept (fun _ => ?_) hr' (fun _ => ?_) <;> rfl
    | recordSupervisorProcessStarted e s pid => refine requests_kept (fun _ => ?_) hr' (fun _ => ?_) <;> rfl
    | recordTerminationWitness e kind code ap detail =>
      simp only [StoreOp.after, StoreOp.exec, Store.recordTerminationWitness, Reply.ofFlag] at hr'
      split at hr'
      · exact ⟨r', hr', rfl⟩
      · split at hr'
        · exact ⟨r', hr', rfl⟩
        · refine requests_kept (fun _ => ?_) hr' (fun _ => ?_) <;> rfl
    | releaseTerminalExecutionRequests =>
      cases b with
      | sqlite => exact ⟨r', hr', rfl⟩
      | postgres => refine requests_kept (fun _ => ?_) hr' (fun _ => ?_) <;> rfl
    | enqueueExecutionRequest e j n h p =>
      simp only [StoreOp.after, StoreOp.exec, Store.enqueueExecutionRequest, Reply.ofFlag] at hr'
      split at hr'
      · rename_i requests hins
        rw [Table.get_insertNew hins] at hr'
        split at hr'
        · rename_i hx
          subst hx
          rw [Table.get_key_of_insertNew hins] at hr₀
          cases hr₀
        · exact ⟨r', hr', rfl⟩
      · exact ⟨r', hr', rfl⟩
    | finalizeRecovery j n token et e => exact finalizer_kept rfl hr'
    | finalizeAttemptAndRun c => exact finalizer_kept rfl hr'
    | createRun j d f g h m p =>
      have hins : ∀ r, (Store.insertRun db r).1.executionRequests = db.executionRequests := by
        intro r
        unfold Store.insertRun
        split <;> rfl
      refine ⟨r', ?_, rfl⟩
      simp only [StoreOp.after, StoreOp.exec, Store.createRun, Reply.ofCreate] at hr'
      split at hr'
      · rwa [hins] at hr'
      · split at hr'
        · exact hr'
        · split at hr'
          · exact hr'
          · rwa [hins] at hr'
    | updateRun j fields =>
      simp only [StoreOp.after, StoreOp.exec, Store.updateRun] at hr'
      split at hr' <;> exact ⟨r', hr', rfl⟩
    | recordAttempt j n st et e ap rc =>
      simp only [StoreOp.after, StoreOp.exec, Store.recordAttempt, Reply.ofExcept] at hr'
      split at hr' <;> exact ⟨r', hr', rfl⟩
    | startHostSession owner ttl =>
      simp only [StoreOp.after, StoreOp.exec, Store.startHostSession, Reply.ofExcept] at hr'
      split at hr' <;> exact ⟨r', hr', rfl⟩
    | claimNextRun locked =>
      cases b with
      | sqlite => exact ⟨r', hr', rfl⟩
      | postgres =>
        simp only [StoreOp.after, StoreOp.exec, PostgresStore.claimNextRun] at hr'
        split at hr' <;> exact ⟨r', hr', rfl⟩
    | countActiveExecutionRequests h => cases b <;> exact ⟨r', hr', rfl⟩
    | _ => exact ⟨r', hr', rfl⟩

/-- A claim of a request takes it out of the queue. -/
theorem claimExecutionRequest_request {b : Backend} {now : Time} {db : Db} {h sup : String} {locked : List String}
    {req : ExecutionRequestRow} (hr : (StoreOp.claimExecutionRequest h sup locked).reply b now db = .request (some req)) :
    db.executionRequests.get req.executionId = some req ∧ req.status = .queued ∧
    ∃ r', ((StoreOp.claimExecutionRequest h sup locked).after b now db).executionRequests.get req.executionId = some r' ∧
      r'.jobId = req.jobId ∧ r'.status ≠ .queued := by
  cases hn : Store.nextRequest db h (b.locked locked) with
  | none =>
    simp only [StoreOp.reply, StoreOp.exec, Store.claimExecutionRequest, hn] at hr
    cases hr
  | some row =>
    simp only [StoreOp.reply, StoreOp.exec, Store.claimExecutionRequest, hn, Reply.request.injEq, Option.some.injEq] at hr
    subst hr
    have hm := List.argmin_mem hn
    rw [List.mem_filter] at hm
    simp only [Bool.and_eq_true, decide_eq_true_eq] at hm
    obtain ⟨hmem, ⟨-, hq⟩, -⟩ := hm
    have hget := db.executionRequests.get_of_mem hmem
    refine ⟨hget, hq, { row with status := .claimed, supervisorId := some sup, claimedAt := some now }, ?_, rfl,
      (by intro h; cases h)⟩
    simp only [StoreOp.after, StoreOp.exec, Store.claimExecutionRequest, hn, Table.get_updateWhere, hget, Option.map_some]
    simp [hq]

/-! ## The Attempt numbers an execution entered its adapter with -/

/-- While the execution can still enter its adapter: the largest Attempt number it may have entered it with. -/
def ExecPc.entered : ExecPc → Option Nat
  | pending | start | cancelled      => some 0
  | record n                         => some (n - 1)
  | acquire n _                      => some (n - 1)
  | register n _ _ _                 => some (n - 1)
  | enqueue n _ _ _                  => some (n - 1)
  | launch n _                       => some (n - 1)
  | adapter n _                      => some n
  | spawned n _ _                    => some n
  | observe n _ _                    => some n
  | collect n _ _                    => some n
  | transition n _ _ _               => some n
  | finalize c _                     => some c.attemptNo
  | metrics _ _ | returned | raised  => none

/-- The number never falls. -/
theorem ExecPc.resume_entered {svc : Service} {spec : JobSpec} {owner : Option ExecutionOwner} {fresh : String}
    {reply : Reply} {pc : ExecPc} {k : Nat} (h : (pc.resume svc spec owner fresh reply).entered = some k) :
    ∃ i, pc.entered = some i ∧ i ≤ k := by
  have hcases := pc.resume_cases svc spec owner fresh reply
  generalize pc.resume svc spec owner fresh reply = pc' at hcases h
  -- a completion is of the Attempt the execution was at
  have hcompletion : ∀ n c scope, (ExecPc.finalize c scope).entered = some k → c.attemptNo = n → n = k :=
    fun n c scope hc hn => by rw [← hn]; exact Option.some.inj hc
  cases hcases with
  | begun => exact ⟨0, rfl, Nat.zero_le k⟩
  | recorded n => exact ⟨n - 1, rfl, le_of_eq (Option.some.inj h)⟩
  | owned n t o _ => exact ⟨n - 1, rfl, le_of_eq (Option.some.inj h)⟩
  | leased n t _ => exact ⟨n - 1, rfl, le_of_eq (Option.some.inj h)⟩
  | unleased n t c _ hn =>
    have := hcompletion n c _ h hn
    exact ⟨n - 1, rfl, by omega⟩
  | registered n t e o _ => exact ⟨n - 1, rfl, le_of_eq (Option.some.inj h)⟩
  | delivering n t e o _ => exact ⟨n - 1, rfl, le_of_eq (Option.some.inj h)⟩
  | unregistered n t e o c _ hn =>
    have := hcompletion n c _ h hn
    exact ⟨n - 1, rfl, by omega⟩
  | unenqueued n t e o c _ hn =>
    have := hcompletion n c _ h hn
    exact ⟨n - 1, rfl, by omega⟩
  | observed n t o => exact ⟨n, rfl, le_of_eq (Option.some.inj h)⟩
  | collected n t r c scope _ hn => exact ⟨n, rfl, le_of_eq (hcompletion n c _ h hn)⟩
  | refused c c' scope _ hn => exact ⟨c.attemptNo, rfl, le_of_eq (hcompletion _ c' _ h hn)⟩
  | retried n t e m _ =>
    have : n + 1 - 1 = k := Option.some.inj h
    exact ⟨n, rfl, by omega⟩
  | idle _ _ => exact ⟨k, h, le_refl k⟩
  | _ => cases h

theorem ExecPc.Advance.entered {svc : Service} {spec : JobSpec} {births : Nat} {pc pc' : ExecPc} {eff : Effect} {k : Nat}
    (h : ExecPc.Advance svc spec births pc pc' eff) (hk : pc'.entered = some k) : ∃ i, pc.entered = some i ∧ i ≤ k := by
  cases h with
  | begin => exact ⟨0, rfl, Nat.zero_le k⟩
  | launch n t =>
    have : n = k := Option.some.inj hk
    exact ⟨n - 1, rfl, by omega⟩
  | child n t pid group identity => exact ⟨n, rfl, le_of_eq (Option.some.inj hk)⟩
  | returned n t r => exact ⟨n, rfl, le_of_eq (Option.some.inj hk)⟩
  | raised n t e =>
    refine ⟨n, rfl, le_of_eq ?_⟩
    rcases adapterRaised_cases svc spec n t e with ⟨et, m, heq⟩ | ⟨c, heq, -, hn⟩
    · rw [heq] at hk
      exact Option.some.inj hk
    · rw [heq] at hk
      rw [← hn]
      exact Option.some.inj hk
  | observed n t o => exact ⟨n, rfl, le_of_eq (Option.some.inj hk)⟩

/-- What the mode of the service has to do with the program counter. -/
def ExecPc.Fits (mode : ExecutionMode) : ExecPc → Prop
  | launch _ _      => mode ≠ .supervised
  | enqueue _ _ _ _ => mode = .supervised
  | _               => True

theorem ExecPc.resume_fits {svc : Service} {spec : JobSpec} {owner : Option ExecutionOwner} {fresh : String}
    {reply : Reply} {pc : ExecPc} (h : pc.Fits svc.executionMode) :
    (pc.resume svc spec owner fresh reply).Fits svc.executionMode := by
  have hcases := pc.resume_cases svc spec owner fresh reply
  generalize pc.resume svc spec owner fresh reply = pc' at hcases ⊢
  cases hcases with
  | leased n t hmode => exact hmode
  | registered n t e o hmode => exact hmode
  | delivering n t e o hmode => exact hmode
  | idle _ _ => exact h
  | _ => trivial

theorem ExecPc.Advance.fits {svc : Service} {spec : JobSpec} {births : Nat} {pc pc' : ExecPc} {eff : Effect}
    (h : ExecPc.Advance svc spec births pc pc' eff) : pc'.Fits svc.executionMode := by
  cases h with
  | raised n t e =>
    rcases adapterRaised_cases svc spec n t e with ⟨k, m, heq⟩ | ⟨c, heq, -, -⟩
    · rw [heq]
      trivial
    · rw [heq]
      trivial
  | _ => trivial

end EdaLab
