import EdaLab.Finishing
import EdaLab.Punctual
/-!
# Agreement — a Run and its Attempts say the same

An accepted finalizer closes the Attempt and its Run together, so a closed Attempt shows in the status of its Run and a Run
that succeeded has an Attempt that did.  Two calls can part them: an `update_run`, which asks nothing of the Attempts, and
PostgreSQL's finalizers, which keep the Attempt they closed where the Run was not `RUNNING`.
-/
namespace EdaLab

open Relational

/-- The status of a Run whose Attempt was closed with this one. -/
def AttemptStatus.closes : AttemptStatus → Option RunStatus
  | succeeded                  => some .succeeded
  | failed                     => some .failed
  | cancelled                  => some .cancelled
  | abandoned                  => some .failed
  | running | retryableFailure => none

structure Db.Agrees (db : Db) : Prop where
  closed : ∀ j n a st, db.attempts.get (j, n) = some a → a.status.closes = some st →
    ∃ r, db.runs.get j = some r ∧ r.status = st
  succeeded : ∀ j r, db.runs.get j = some r → r.status = .succeeded →
    ∃ n a, db.attempts.get (j, n) = some a ∧ a.status = .succeeded

/-- An `update_run` writes what the closed Attempts of the Run say; a finalizer on PostgreSQL that closes an Attempt finds
its Run `RUNNING`, or closed so already. -/
def StoreOp.Agrees (b : Backend) (now : Time) (db : Db) : StoreOp → Prop
  | .updateRun j f => ∀ n a st, db.attempts.get (j, n) = some a → a.status.closes = some st → ∀ st' ∈ f.status, st' = st
  | op => ∀ c, op.finalizer now db = some c → b = .postgres → ∀ a st, db.attempts.get c.update.key = some a →
      c.update.guard a = true → (c.update.write a).status.closes = some st →
      ∃ r, db.runs.get c.jobId = some r ∧ (r.status = .running ∨ r.status = st)

/-! ## What the parties write together -/

/-- The two statuses of a completion belong together. -/
structure Completion.Paired (c : Completion) : Prop where
  closes : ∀ st, c.attemptStatus.closes = some st → c.runStatus = st
  succeeds : c.runStatus = .succeeded → c.attemptStatus = .succeeded

/-- A call as the parties make it. -/
def StoreOp.Paired (db : Db) : StoreOp → Prop
  | .updateRun _ f                      => f.status ≠ some .succeeded ∧ f.status.isSome = true
  | .recordAttempt j n st _ _ _ _       => st = .running ∧ db.attempts.get (j, n) = none
  | .transitionAttempt _ _ _ st _ _ _ _ => st = .retryableFailure
  | .finalizeAttemptAndRun c            => c.Paired
  | _                                   => True

theorem AttemptStatus.closes_terminal {st : AttemptStatus} {r : RunStatus} (h : st.closes = some r) :
    r ≠ .running ∧ r ≠ .queued ∧ st ≠ .running := by
  cases st <;> cases h <;> simp

theorem Finalizer.closes {now : Time} {db : Db} {op : StoreOp} {c : Finalizer} (hp : op.Paired db)
    (h : op.finalizer now db = some c) (a : AttemptRow) : c.update.key.1 = c.jobId ∧ ∃ st, c.fields.status = some st ∧
      (∀ st', (c.update.write a).status.closes = some st' → st = st') ∧
      (st = .succeeded → (c.update.write a).status = .succeeded) := by
  cases op with
  | finalizeRecovery j n token et e =>
    cases h
    refine ⟨rfl, .failed, rfl, fun st' hst => ?_, fun hst => by cases hst⟩
    cases hst
    rfl
  | finalizeAttemptAndRun c =>
    cases h
    exact ⟨rfl, c.runStatus, rfl, hp.closes, hp.succeeds⟩
  | _ => cases h

/-- An accepted completion found its Attempt running and leaves it in the state it writes. -/
theorem completion_accepted {b : Backend} {now : Time} {db : Db} {c : Completion}
    (h : (StoreOp.finalizeAttemptAndRun c).reply b now db = .flag true) :
    (∃ a, db.attempts.get (c.jobId, c.attemptNo) = some a ∧ a.status = .running) ∧
    ∃ a, ((StoreOp.finalizeAttemptAndRun c).after b now db).attempts.get (c.jobId, c.attemptNo) = some a ∧
      a.status = c.attemptStatus := by
  have hop : (StoreOp.finalizeAttemptAndRun c).finalizer now db =
      some ⟨Store.completeAttempt db now c, c.jobId, c.fields⟩ := rfl
  refine ⟨?_, ?_⟩
  · cases finalizer_cases b hop with
    | accepted hen _ _ _ _ _ =>
      obtain ⟨a, ha, hg⟩ := hen
      exact ⟨a, ha, attemptUpdate_running (finalizer_attemptUpdate hop) hg⟩
    | noAttempt _ hreply _ => rw [hreply] at h; cases h
    | noRun _ _ hreply _ => rw [hreply] at h; cases h
  · obtain ⟨a, r, ha, -, hout⟩ := finalizer_moves hop h
    simp only [StoreOp.outcome, Option.some.injEq, Prod.mk.injEq] at hout
    exact ⟨a, ha, hout.1.symm⟩

section Calls

variable {b : Backend} {now : Time} {db : Db} {op : StoreOp} {k : String × Nat}

/-- A closed Attempt is left alone. -/
theorem closed_kept (hp : op.Paired db) {a : AttemptRow} (ha : db.attempts.get k = some a) (hst : a.status ≠ .running) :
    (op.after b now db).attempts.get k = some a := by
  cases attempts_after b now db op k with
  | same h => rw [h, ha]
  | recorded st et e ap rc hop =>
    subst hop
    obtain ⟨-, hnone⟩ := hp
    rw [hnone] at ha
    cases ha
  | updated u a' hop _ ha' hg =>
    rw [ha] at ha'
    cases ha'
    exact absurd (attemptUpdate_running hop hg) hst
  | renewed s ttl a' _ ha' hg =>
    rw [ha] at ha'
    cases ha'
    simp only [Store.isQueuedDelivery, Bool.and_eq_true] at hg
    exact absurd (by simpa [AttemptRow.isRunning] using hg.1.1.1) hst

/-- **A closed Attempt was closed before, or a finalizer has just closed it.** -/
theorem closed_origin (hp : op.Paired db) {a' : AttemptRow} {st : RunStatus}
    (ha' : (op.after b now db).attempts.get k = some a') (hst : a'.status.closes = some st) :
    db.attempts.get k = some a' ∨ ∃ c a, op.finalizer now db = some c ∧ c.update.key = k ∧ db.attempts.get k = some a ∧
      c.update.guard a = true ∧ a' = c.update.write a := by
  cases attempts_after b now db op k with
  | same h => exact Or.inl (by rw [← h, ha'])
  | recorded status et e ap rc hop _ hget =>
    subst hop
    obtain ⟨rfl, hnone⟩ := hp
    rw [hget, hnone] at ha'
    cases ha'
    cases hst
  | renewed s ttl a _ _ hg hget =>
    simp only [Store.isQueuedDelivery, Bool.and_eq_true] at hg
    rw [hget] at ha'
    cases ha'
    have hrun : a.status = .running := by simpa [AttemptRow.isRunning] using hg.1.1.1
    exact absurd hrun (AttemptStatus.closes_terminal hst).2.2
  | updated u a hop hkey ha hg hget _ =>
    rw [hget] at ha'
    cases ha'
    have hrun := attemptUpdate_running hop hg
    -- only the finalizers write a status that closes
    have hsame : (u.write a).status = a.status → False := fun heq =>
      (AttemptStatus.closes_terminal hst).2.2 (heq.trans hrun)
    cases op with
    | finalizeRecovery j n token et e => cases hop; exact Or.inr ⟨_, a, rfl, hkey, ha, hg, rfl⟩
    | finalizeAttemptAndRun c => cases hop; exact Or.inr ⟨_, a, rfl, hkey, ha, hg, rfl⟩
    | transitionAttempt j n t status et e ap rc =>
      cases hop
      obtain rfl : status = .retryableFailure := hp
      cases hst
    | acquireAttemptLease => cases hop; exact (hsame rfl).elim
    | heartbeatAttempt => cases hop; exact (hsame rfl).elim
    | recordAttemptProcess => cases hop; exact (hsame rfl).elim
    | recordAttemptExecution => cases hop; exact (hsame rfl).elim
    | claimRecovery => cases hop; exact (hsame rfl).elim
    | releaseRecoveryClaim => cases hop; exact (hsame rfl).elim
    | _ => cases hop

/-- The Run of a closed Attempt keeps what it shows. -/
theorem shown_kept (hp : op.Paired db) (hok : op.Agrees b now db) {n : Nat} {j : String} {a : AttemptRow} {st : RunStatus}
    {r : RunRow} (ha : db.attempts.get (j, n) = some a) (hst : a.status.closes = some st) (hr : db.runs.get j = some r)
    (hrst : r.status = st) : ∃ r', (op.after b now db).runs.get j = some r' ∧ r'.status = st := by
  obtain ⟨hrunning, hqueued, -⟩ := AttemptStatus.closes_terminal hst
  cases runs_after b now db op j with
  | same h => exact ⟨r, by rw [h, hr], hrst⟩
  | created _ _ _ _ _ _ _ hnone =>
    rw [hr] at hnone
    cases hnone
  | updated f r₀ hop hr₀ hget =>
    subst hop
    rw [hr] at hr₀
    cases hr₀
    obtain ⟨st', hst'⟩ := Option.isSome_iff_exists.1 hp.2
    refine ⟨_, hget, ?_⟩
    simp only [RunFields.write, hst', Option.getD_some]
    exact hok n a st ha hst st' hst'
  | claimed _ r₀ _ _ hr₀ hwas =>
    rw [hr] at hr₀
    cases hr₀
    exact absurd (hrst.symm.trans hwas) hqueued
  | closed c r₀ _ _ _ hr₀ hwas =>
    rw [hr] at hr₀
    cases hr₀
    exact absurd (hrst.symm.trans hwas) hrunning

/-- **A call that may keeps the agreement.** -/
theorem agrees_after (hi : db.Agrees) (hp : op.Paired db) (hok : op.Agrees b now db) : (op.after b now db).Agrees where
  closed j n a' st ha' hst := by
    rcases closed_origin hp ha' hst with ha | ⟨c, a, hc, hkey, ha, hg, rfl⟩
    · obtain ⟨r, hr, hrst⟩ := hi.closed j n a' st ha hst
      exact shown_kept hp hok ha hst hr hrst
    · obtain ⟨hjob, st', hfields, hcloses, -⟩ := Finalizer.closes hp hc a
      rw [hkey] at hjob
      obtain rfl : j = c.jobId := hjob
      obtain rfl : st' = st := hcloses st hst
      cases finalizer_cases b hc with
      | accepted _ hrun _ rest _ hafter =>
        obtain ⟨r, hr, hwas⟩ := hrun
        refine ⟨c.fields.write now r, ?_, by simp only [RunFields.write, hfields, Option.getD_some]⟩
        have hget : (op.after b now db).runs.get c.jobId =
            ((c.update.exec db).1.updateRuns now c.jobId Store.runIsRunning c.fields).1.runs.get c.jobId := by rw [hafter]
        rw [hget, Db.get_updateRuns, AttemptUpdate.exec_runs, hr]
        simp [Store.runIsRunning, hwas]
      | noAttempt hno => exact absurd ⟨a, by rw [hkey]; exact ha, hg⟩ hno
      | noRun _ hno _ hafter =>
        rw [hafter, Backend.refused_runs]
        cases b with
        | sqlite =>
          -- rolled back: the Attempt is still `RUNNING`
          rw [hafter] at ha'
          have hsame : some a = some (c.update.write a) := ha.symm.trans ha'
          have hrun := attemptUpdate_running (finalizer_attemptUpdate hc) hg
          rw [← Option.some.inj hsame] at hst
          exact absurd hrun (AttemptStatus.closes_terminal hst).2.2
        | postgres =>
          have hfinal : ∃ r, db.runs.get c.jobId = some r ∧ (r.status = .running ∨ r.status = st') := by
            cases op with
            | updateRun => cases hc
            | _ => exact hok c hc rfl a st' (by rw [hkey]; exact ha) hg hst
          obtain ⟨r, hr, hwas | hsame⟩ := hfinal
          · exact absurd ⟨r, hr, hwas⟩ hno
          · exact ⟨r, hr, hsame⟩
  succeeded j r' hr' hst := by
    have hkeep : (∃ n a, db.attempts.get (j, n) = some a ∧ a.status = .succeeded) →
        ∃ n a, (op.after b now db).attempts.get (j, n) = some a ∧ a.status = .succeeded := by
      rintro ⟨n, a, ha, hsucc⟩
      exact ⟨n, a, closed_kept hp ha (by rw [hsucc]; simp), hsucc⟩
    cases runs_after b now db op j with
    | same h => exact hkeep (hi.succeeded j r' (by rw [← h, hr']) hst)
    | created d f g h m p _ _ hget =>
      rw [hget] at hr'
      cases hr'
      cases hst
    | updated f r hop hr hget =>
      subst hop
      obtain ⟨st, hf⟩ := Option.isSome_iff_exists.1 hp.2
      rw [hget] at hr'
      cases hr'
      simp only [RunFields.write, hf, Option.getD_some] at hst
      exact absurd (by rw [hf, hst]) hp.1
    | claimed locked r _ _ _ _ hget =>
      rw [hget] at hr'
      cases hr'
      cases hst
    | closed c r hc hjob hen hr hwas hget =>
      obtain ⟨a, ha, hg⟩ := hen
      obtain ⟨hkey, st, hfields, -, hsucceeds⟩ := Finalizer.closes hp hc a
      rw [hget] at hr'
      cases hr'
      simp only [RunFields.write, hfields, Option.getD_some] at hst
      refine ⟨c.update.key.2, c.update.write a, ?_, hsucceeds hst⟩
      have hpair : (j, c.update.key.2) = c.update.key := by rw [← hjob, ← hkey]
      rw [hpair]
      cases finalizer_cases b hc with
      | accepted _ _ _ rest _ hafter =>
        have hattempts : (op.after b now db).attempts.get c.update.key = (c.update.exec db).1.attempts.get c.update.key := by
          rw [hafter]
          rfl
        rw [hattempts, AttemptUpdate.get_exec, ha]
        simp [hg]
      | noAttempt hno => exact absurd ⟨a, ha, hg⟩ hno
      | noRun _ hno => exact absurd ⟨r, by rw [hjob]; exact hr, hwas⟩ hno

/-- And a call that may not parts them. -/
theorem agrees_of_after (hi : db.Agrees) (hp : op.Paired db) (h : (op.after b now db).Agrees) : op.Agrees b now db := by
  have hfinal : ∀ c, op.finalizer now db = some c → b = .postgres → ∀ a st, db.attempts.get c.update.key = some a →
      c.update.guard a = true → (c.update.write a).status.closes = some st →
      ∃ r, db.runs.get c.jobId = some r ∧ (r.status = .running ∨ r.status = st) := by
    rintro c hc rfl a st ha hg hst
    by_cases hrun : db.runningRun c.jobId
    · obtain ⟨r, hr, hwas⟩ := hrun
      exact ⟨r, hr, Or.inl hwas⟩
    · cases finalizer_cases .postgres hc with
      | accepted _ hyes => exact absurd hyes hrun
      | noAttempt hno => exact absurd ⟨a, ha, hg⟩ hno
      | noRun _ _ _ hafter =>
        obtain ⟨hjob, -⟩ := Finalizer.closes hp hc a
        have hget : (op.after .postgres now db).attempts.get c.update.key = some (c.update.write a) := by
          rw [hafter]
          show (c.update.exec db).1.attempts.get c.update.key = _
          rw [AttemptUpdate.get_exec, ha]
          simp [hg]
        obtain ⟨r, hr, hrst⟩ := h.closed c.update.key.1 c.update.key.2 _ st hget hst
        rw [hjob, hafter, Backend.refused_runs] at hr
        exact ⟨r, hr, Or.inr hrst⟩
  cases op with
  | updateRun j f =>
    intro n a st ha hst st' hst'
    obtain ⟨r, hr, -⟩ := hi.closed j n a st ha hst
    have hf : f ≠ {} := by
      rintro rfl
      cases hst'
    have hget := Db.get_updateRuns db now j (fun _ => true) f j
    rw [hr, Option.map_some, if_pos ⟨rfl, rfl⟩] at hget
    obtain ⟨r', hr', hrst⟩ := h.closed j n a st (by rw [updateRun_attempts, ha]) hst
    simp only [StoreOp.after, StoreOp.exec, Store.updateRun, if_neg hf] at hr'
    rw [hget] at hr'
    cases hr'
    rw [Option.mem_def] at hst'
    simpa only [RunFields.write, hst', Option.getD_some] using hrst
  | _ => exact hfinal

end Calls

/-! ## The parties -/

theorem Completion.Paired.of_failed {c : Completion} (ha : c.attemptStatus = .failed) (hr : c.runStatus = .failed) :
    c.Paired := by
  refine ⟨fun st hst => ?_, fun h => ?_⟩
  · rw [ha] at hst
    cases hst
    exact hr
  · rw [hr] at h
    cases h

theorem Completion.Paired.of_succeeded {c : Completion} (ha : c.attemptStatus = .succeeded) (hr : c.runStatus = .succeeded) :
    c.Paired := by
  refine ⟨fun st hst => ?_, fun _ => ha⟩
  rw [ha] at hst
  cases hst
  exact hr

theorem adapterRaised_paired {svc : Service} {spec : JobSpec} {n : Nat} {t : String} {e : AdapterError} {c : Completion}
    (h : (adapterRaised svc spec n t e).finishing = some c) : c.Paired := by
  cases e with
  | cancelled m =>
    cases h
    refine ⟨fun st hst => ?_, fun h => by cases h⟩
    cases hst
    rfl
  | timeout m =>
    simp only [adapterRaised] at h
    split at h
    · cases h
    · cases h
      exact ⟨(fun st hst => by cases hst), fun h => by cases h⟩
  | connection m =>
    simp only [adapterRaised] at h
    split at h
    · cases h
    · cases h
      exact ⟨(fun st hst => by cases hst), fun h => by cases h⟩
  | other m => cases h; exact .of_failed rfl rfl

theorem collectResult_paired {spec : JobSpec} {n : Nat} {t : String} {r : AdapterReturn} {c : Completion}
    (h : (collectResult spec n t r).finishing = some c) : c.Paired := by
  unfold collectResult at h
  cases hparsed : r.parsed with
  | error m =>
    rw [hparsed] at h
    cases h
    exact .of_failed rfl rfl
  | ok result =>
    rw [hparsed] at h
    simp only at h
    split at h
    · cases h; exact .of_failed rfl rfl
    · split at h
      · cases h; exact .of_failed rfl rfl
      · split at h
        · cases h; exact .of_failed rfl rfl
        · split at h
          · cases h; exact .of_failed rfl rfl
          · cases h; exact .of_succeeded rfl rfl

theorem SupervisorPc.completion_paired (req : ExecutionRequestRow) (r : AdapterReturn) (parsed : ParseResult) :
    (SupervisorPc.completion req r parsed).Paired := by
  unfold SupervisorPc.completion
  split
  · exact .of_succeeded rfl rfl
  · exact .of_failed rfl rfl

/-- **Every completion pairs its two statuses.** -/
theorem Completion.Made.paired {c : Completion} (h : c.Made) : c.Paired := by
  cases h with
  | failed spec n t m c h => cases h; exact .of_failed rfl rfl
  | raised svc spec n t e c h => exact adapterRaised_paired h
  | collected spec n t r c h => exact collectResult_paired h
  | supervised req r parsed => exact SupervisorPc.completion_paired req r parsed

theorem Thread.op_paired {cfg : Config} {s : Sys} (hi : ExecInv cfg s) (hm : FinishingMade s) {i : Nat}
    {locked : List String} {op : StoreOp} (h : (s.threads i).op cfg s locked = some op) : op.Paired s.db := by
  have hwf := (hi.queue.wf i).op_wf h
  cases op with
  | finalizeAttemptAndRun c =>
    obtain ⟨c₀, owner, hc, rfl⟩ := Thread.op_finalize h
    have hpaired := (hm i c₀ hc).paired
    exact ⟨hpaired.closes, hpaired.succeeds⟩
  | recordAttempt j n st et e ap rc => exact ⟨hwf, recorded_new hi h⟩
  | transitionAttempt j n t st et e ap rc => exact hwf
  | updateRun j f =>
    generalize s.threads i = th at h
    cases Thread.op_cases h with
    | cancel svc => exact ⟨by simp, rfl⟩
    | exec svc spec pc _ hpc =>
      cases pc with
      | start => cases hpc; exact ⟨by simp, rfl⟩
      | _ => cases hpc
    | scan svc r _ _ _ hr =>
      cases RecoverPc.op_cases hr with
      | failNoAttempt sc run => exact ⟨by simp, rfl⟩
    | submit svc spec pc _ hpc => cases pc <;> cases hpc
    | beat b pc _ hpc => cases pc <;> cases hpc
    | supervisor sup pc _ hpc => cases pc <;> cases hpc
  | _ => trivial

/-! ## Runs -/

/-- Where the step is an `update_run` or a finalizer, it does not part a Run and its Attempt. -/
def ClosesTogether (cfg : Config) (s : Sys) (act : Act) : Prop :=
  ∀ i fresh locked op, act = .call i fresh locked → s.isFresh fresh = true → (s.threads i).op cfg s locked = some op →
    op.Agrees cfg.backend s.clock s.db

theorem agrees_init : Sys.init.db.Agrees := ⟨(fun j n a st h => by cases h), fun j r h => by cases h⟩

/-- **One step** keeps the agreement exactly where its call does not part the two. -/
theorem step_agrees_iff {cfg : Config} {s : Sys} (hi : ExecInv cfg s) (hm : FinishingMade s) (ha : s.db.Agrees) (act : Act) :
    (∀ s', Sys.step cfg s act = some s' → s'.db.Agrees) ↔ ClosesTogether cfg s act := by
  constructor
  · rintro h i fresh locked op rfl hfresh hop
    obtain ⟨s', hstep⟩ := Option.isSome_iff_exists.1 (Sys.call_isSome_iff.2 ⟨⟨op, hop⟩, hfresh⟩)
    obtain ⟨op', hc⟩ := Sys.call_some hstep
    obtain rfl : op = op' := Option.some.inj (hop.symm.trans hc.is_op)
    have hafter := h s' hstep
    rw [hc.db_eq] at hafter
    exact agrees_of_after ha (Thread.op_paired hi hm hop) hafter
  · intro hok s' hstep
    rcases Sys.step_db hstep with hdb | ⟨i, fresh, locked, op, hact, hc⟩
    · rw [hdb]
      exact ha
    · rw [hc.db_eq]
      exact agrees_after ha (Thread.op_paired hi hm hc.is_op) (hok i fresh locked op hact hc.is_fresh hc.is_op)

/-- **In every run a Run and its Attempts say the same in every state, exactly where no write parts them**: a closed Attempt
shows in the status of its Run, and a Run that succeeded has an Attempt that did. -/
theorem run_agrees_iff (cfg : Config) (acts : List Act) (s : Sys) (h : Trace.run (Sys.step cfg) Sys.init acts = some s)
    (hsep : s.Separate) :
    (∀ pre post m, acts = pre ++ post → Trace.run (Sys.step cfg) Sys.init pre = some m → m.db.Agrees) ↔
      Trace.Every (Sys.step cfg) (ClosesTogether cfg) Sys.init acts := by
  refine Trace.always_iff_every (P := fun m => ExecInv cfg m ∧ FinishingMade m) ?_ ?_
    ⟨execInv_init cfg, finishing_made_init⟩ agrees_init (separate_steps h hsep)
  · rintro m act m' ⟨hi, hm⟩ hsep' hstep
    exact ⟨execInv_step hi (hsep' m' hstep) hstep, finishing_made_step hm hstep⟩
  · rintro m act ⟨hi, hm⟩ - hagrees
    exact step_agrees_iff hi hm hagrees act

/-- The recovery that fails the Run its execution has completed. -/
theorem overtakenActs_parted :
    ¬Trace.Every (Sys.step workerConfig) (ClosesTogether workerConfig) Sys.init (overtakenActs ++ [.call 3 "d7" []]) := by
  have hrun : (Trace.run (Sys.step workerConfig) Sys.init (overtakenActs ++ [.call 3 "d7" []])).map (fun s =>
      (decide (s.history.kept = []), (s.db.runs.get "job").map (·.status), (s.db.attempts.get ("job", 1)).map (·.status))) =
      some (true, some .failed, some .succeeded) := by
    decide +kernel
  obtain ⟨s, hs, hview⟩ := Option.map_eq_some_iff.1 hrun
  obtain ⟨hkept, hview⟩ := Prod.mk.inj hview
  obtain ⟨hstatus, hattempt⟩ := Prod.mk.inj hview
  have hsep : s.Separate := by
    intro j _ hj
    rw [of_decide_eq_true hkept] at hj
    cases hj
  intro hevery
  have hagrees := (run_agrees_iff workerConfig _ s hs hsep).2 hevery _ [] s (List.append_nil _).symm hs
  obtain ⟨a, ha, hsucceeded⟩ := Option.map_eq_some_iff.1 hattempt
  obtain ⟨r, hr, hfailed⟩ := Option.map_eq_some_iff.1 hstatus
  obtain ⟨r', hr', hshown⟩ := hagrees.closed "job" 1 a .succeeded ha (by rw [hsucceeded]; rfl)
  rw [hr] at hr'
  cases hr'
  rw [hfailed] at hshown
  cases hshown

end EdaLab
