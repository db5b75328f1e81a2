import EdaLab.Claims
/-!
# Attempts — the Attempts of a Run are numbered, and only the last one is open

Only the execution of a Run records, leases and retries its Attempts, and a Run has one execution (`Sole`).  So the
program counter of the execution says how many Attempts there are and how far the last one got (`ExecPc.phase`,
`Db.inPhase`), whatever the recoverers, supervisors and heartbeats did to their rows (`inPhase_foreign`).
-/
namespace EdaLab

open Relational

/-! ## One row -/

/-- Leased once: no call takes the token or the expiry away again. -/
structure AttemptRow.Leased (a : AttemptRow) : Prop where
  token : ∃ t, a.leaseToken = some t ∧ t ≠ ""
  expiry : a.leaseExpiresAt.isSome = true

/-- Recorded and not leased yet. -/
structure AttemptRow.Bare (a : AttemptRow) : Prop where
  running : a.status = .running
  no_token : a.leaseToken = none
  no_expiry : a.leaseExpiresAt = none
  no_recovery : a.recoveryToken = none
  no_session : a.executionHostSession = none

/-- What a call of another party leaves of a row. -/
structure AttemptRow.Kept (a a' : AttemptRow) : Prop where
  of_ended : a.status ≠ .running → a' = a
  of_bare : a.Bare → a' = a
  leased : a.Leased → a'.Leased

theorem AttemptRow.Kept.refl (a : AttemptRow) : a.Kept a := ⟨fun _ => rfl, fun _ => rfl, fun h => h⟩

/-- A row that was written with its token kept and its expiry set, in a state that was not bare. -/
theorem AttemptRow.Kept.of_running {a a' : AttemptRow} (hrun : a.status = .running) (hbare : ¬ a.Bare)
    (htoken : a'.leaseToken = a.leaseToken) (hexpiry : a.leaseExpiresAt.isSome = true → a'.leaseExpiresAt.isSome = true) :
    a.Kept a' where
  of_ended h := absurd hrun h
  of_bare h := absurd h hbare
  leased h := ⟨by rw [htoken]; exact h.token, hexpiry h.expiry⟩

/-- A call that is not the execution of this job recording, leasing or retrying an Attempt, or starting. -/
def StoreOp.Foreign (j : String) : StoreOp → Prop
  | .updateRun i f                       => i = j → f.status ≠ some .running
  | .recordAttempt i _ _ _ _ _ _         => i ≠ j
  | .acquireAttemptLease i _ _ _ _       => i ≠ j
  | .transitionAttempt i _ _ _ _ _ _ _   => i ≠ j
  | _                                    => True

/-- A finalizer whose first statement takes effect leaves no `RUNNING` Run. -/
theorem finalizer_ends {b : Backend} {now : Time} {db : Db} {op : StoreOp} {c : Finalizer} (hw : op.Wf)
    (hop : op.finalizer now db = some c) (he : c.update.Enabled db) : ¬ (op.after b now db).runningRun c.jobId := by
  rintro ⟨r', hr', hrun⟩
  cases finalizer_cases b hop with
  | noAttempt hne _ _ => exact hne he
  | noRun _ hno _ hafter =>
    rw [hafter, Backend.refused_runs] at hr'
    exact hno ⟨r', hr', hrun⟩
  | accepted _ hr _ rest _ hafter =>
    obtain ⟨r, hr, hst⟩ := hr
    obtain ⟨st, hfields, hterm⟩ := finalizer_fields hw hop
    have hget : (op.after b now db).runs.get c.jobId = some (c.fields.write now r) := by
      rw [hafter]
      show ((c.update.exec db).1.updateRuns now c.jobId Store.runIsRunning c.fields).1.runs.get c.jobId = _
      rw [Db.get_updateRuns, AttemptUpdate.exec_runs, hr, Option.map_some, if_pos ⟨rfl, by simp [Store.runIsRunning, hst]⟩]
    rw [hget] at hr'
    cases hr'
    simp only [RunFields.write, hfields, Option.getD_some] at hrun
    rw [hrun] at hterm
    cases hterm

/-- **What a call of another party can do to an Attempt of the job**: it keeps the row as `Kept` says, and closes it only
together with the Run. -/
theorem attempt_foreign (b : Backend) (now : Time) {db : Db} {op : StoreOp} {j : String} {m : Nat} {a : AttemptRow}
    (hw : op.Wf) (hf : op.Foreign j) (ha : db.attempts.get (j, m) = some a) :
    ∃ a', (op.after b now db).attempts.get (j, m) = some a' ∧ a.Kept a' ∧
      (a.status = .running → (op.after b now db).runningRun j → a'.status = .running) := by
  cases attempts_after b now db op (j, m) with
  | same h => exact ⟨a, by rw [h, ha], .refl a, fun hrun _ => hrun⟩
  | recorded st et e ap rc hop _ _ =>
    subst hop
    exact absurd rfl hf
  | renewed session ttl a' hop ha' hg hget =>
    rw [ha] at ha'
    cases ha'
    simp only [Store.isQueuedDelivery, Bool.and_eq_true, decide_eq_true_eq] at hg
    obtain ⟨⟨⟨hrun, hsession⟩, -⟩, -⟩ := hg
    have hstatus : a.status = .running := by simpa [AttemptRow.isRunning] using hrun
    refine ⟨_, hget, .of_running hstatus (fun hb => ?_) rfl (fun _ => rfl), fun h _ => h⟩
    rw [hb.no_session] at hsession
    cases hsession
  | updated u a' hop hkey ha' hg hget _ =>
    rw [ha] at ha'
    cases ha'
    have hstatus := attemptUpdate_running hop hg
    refine ⟨_, hget, ?_, ?_⟩
    · cases op with
      | acquireAttemptLease i n owner token ttl =>
        cases hop
        exact absurd (congrArg Prod.fst hkey) hf
      | transitionAttempt i n token st et e ap rc =>
        cases hop
        exact absurd (congrArg Prod.fst hkey) hf
      | heartbeatAttempt i n token ttl =>
        cases hop
        simp only [Store.heartbeatAttempt, Bool.and_eq_true, AttemptRow.holdsLease, decide_eq_true_eq] at hg
        exact .of_running hstatus (fun hb => by rw [hb.no_token] at hg; exact absurd hg.1.2 (by simp)) rfl (fun _ => rfl)
      | recordAttemptProcess i n token pid at_ identity group deadline =>
        cases hop
        simp only [Store.recordAttemptProcess, Bool.and_eq_true, AttemptRow.holdsLease, decide_eq_true_eq] at hg
        exact .of_running hstatus (fun hb => by rw [hb.no_token] at hg; exact absurd hg.2 (by simp)) rfl (fun h => h)
      | recordAttemptExecution i n token owner e =>
        cases hop
        simp only [Store.recordAttemptExecution, Bool.and_eq_true, AttemptRow.holdsLease, decide_eq_true_eq] at hg
        exact .of_running hstatus (fun hb => by rw [hb.no_token] at hg; exact absurd hg.1.2 (by simp)) rfl (fun h => h)
      | claimRecovery i n owner token ttl =>
        cases hop
        simp only [Store.claimRecovery, Bool.and_eq_true, AttemptRow.leaseExpired] at hg
        exact .of_running hstatus (fun hb => by rw [hb.no_expiry] at hg; exact absurd hg.1.2 (by simp)) rfl (fun h => h)
      | releaseRecoveryClaim i n token =>
        cases hop
        simp only [Store.releaseRecoveryClaim, Bool.and_eq_true, AttemptRow.holdsRecovery, decide_eq_true_eq] at hg
        exact .of_running hstatus (fun hb => by rw [hb.no_recovery] at hg; exact absurd hg.2 (by simp)) rfl (fun h => h)
      | finalizeRecovery i n token et e =>
        cases hop
        simp only [Store.abandonAttempt, Bool.and_eq_true, AttemptRow.holdsRecovery, decide_eq_true_eq] at hg
        exact .of_running hstatus (fun hb => by rw [hb.no_recovery] at hg; exact absurd hg.2 (by simp)) rfl (fun h => h)
      | finalizeAttemptAndRun c =>
        cases hop
        simp only [Store.completeAttempt, Bool.and_eq_true, AttemptRow.holdsLease, decide_eq_true_eq] at hg
        exact .of_running hstatus (fun hb => by rw [hb.no_token] at hg; exact absurd hg.1.1.1.2 (by simp)) rfl (fun h => h)
      | _ => cases hop
    · intro _ hrunning
      have hends : ∀ c, op.finalizer now db = some c → c.update = u → c.jobId = j → (u.write a).status = .running := by
        rintro c hc rfl rfl
        exact absurd hrunning (finalizer_ends hw hc ⟨a, by rw [hkey]; exact ha, hg⟩)
      cases op with
      | finalizeRecovery i n token et e => cases hop; exact hends _ rfl rfl (congrArg Prod.fst hkey)
      | finalizeAttemptAndRun c => cases hop; exact hends _ rfl rfl (congrArg Prod.fst hkey)
      | transitionAttempt i n token st et e ap rc =>
        cases hop
        exact absurd (congrArg Prod.fst hkey) hf
      | acquireAttemptLease i n owner token ttl => cases hop; exact hstatus
      | heartbeatAttempt i n token ttl => cases hop; exact hstatus
      | recordAttemptProcess i n token pid at_ identity group deadline => cases hop; exact hstatus
      | recordAttemptExecution i n token owner e => cases hop; exact hstatus
      | claimRecovery i n owner token ttl => cases hop; exact hstatus
      | releaseRecoveryClaim i n token => cases hop; exact hstatus
      | _ => cases hop

/-- A call of another party records no Attempt of the job. -/
theorem attempt_foreign_none {b : Backend} {now : Time} {db : Db} {op : StoreOp} {j : String} {m : Nat}
    (hf : op.Foreign j) (ha : db.attempts.get (j, m) = none) : (op.after b now db).attempts.get (j, m) = none := by
  cases attempts_after b now db op (j, m) with
  | same h => rw [h, ha]
  | recorded st et e ap rc hop _ _ =>
    subst hop
    exact absurd rfl hf
  | updated u a' _ _ ha' => rw [ha] at ha'; cases ha'
  | renewed session ttl a' _ ha' => rw [ha] at ha'; cases ha'

/-- A Run that is `RUNNING` after the call of another party was so before. -/
theorem runningRun_foreign {b : Backend} {now : Time} {db : Db} {op : StoreOp} {j : String} (hw : op.Wf)
    (hf : op.Foreign j) (hm : db.moved j) (hrun : (op.after b now db).runningRun j) : db.runningRun j := by
  obtain ⟨r', hr', hst⟩ := hrun
  obtain ⟨r, hr, hq⟩ := hm
  cases runs_after b now db op j with
  | same h =>
    rw [h] at hr'
    exact ⟨r', hr', hst⟩
  | created _ _ _ _ _ _ _ hn => rw [hr] at hn; cases hn
  | updated fields r₀ hop hr₀ hget =>
    subst hop
    rw [hget] at hr'
    cases hr'
    refine ⟨r₀, hr₀, ?_⟩
    have hne : fields.status ≠ some .running := hf rfl
    cases hs : fields.status with
    | none => simpa [RunFields.write, hs] using hst
    | some st =>
      simp only [RunFields.write, hs, Option.getD_some] at hst
      rw [hs, hst] at hne
      exact absurd rfl hne
  | claimed locked r₀ _ _ hr₀ hqueued =>
    rw [hr] at hr₀
    cases hr₀
    exact absurd hqueued hq
  | closed c r₀ _ _ _ hr₀ hrunning => exact ⟨r₀, hr₀, hrunning⟩

/-! ## The Attempts of a job -/

/-- How far the execution of a job has got. -/
inductive Phase
  /-- No Attempt is recorded. -/
  | none
  /-- Attempt `n` failed and is to be retried; none was recorded where `n` is zero. -/
  | between (n : Nat)
  | bare (n : Nat)
  | leased (n : Nat)
  /-- The execution has left. -/
  | closed

def ExecPc.phase : ExecPc → Phase
  | pending | start | cancelled    => .none
  | record n                       => .between (n - 1)
  | acquire n _                    => .bare n
  | register n _ _ _               => .leased n
  | enqueue n _ _ _                => .leased n
  | launch n _                     => .leased n
  | adapter n _                    => .leased n
  | spawned n _ _                  => .leased n
  | observe n _ _                  => .leased n
  | collect n _ _                  => .leased n
  | transition n _ _ _             => .leased n
  | finalize c _                   => .leased c.attemptNo
  | metrics _ _ | returned | raised => .closed

/-- The Attempts of the job are numbered `1..k`, and all but the last are `RETRYABLE_FAILURE`. -/
structure Db.numbered (db : Db) (j : String) (k : Nat) : Prop where
  isSome_iff : ∀ m, (db.attempts.get (j, m)).isSome = true ↔ 1 ≤ m ∧ m ≤ k
  retried : ∀ m a, m < k → db.attempts.get (j, m) = some a → a.status = .retryableFailure

def Db.inPhase (db : Db) (j : String) : Phase → Prop
  | .none      => db.numbered j 0
  | .between n => db.moved j ∧ db.numbered j n ∧
    ∀ a, db.attempts.get (j, n) = some a → a.status = .retryableFailure ∧ a.Leased
  | .bare n    => db.moved j ∧ db.numbered j n ∧ ∃ a, db.attempts.get (j, n) = some a ∧ a.Bare
  | .leased n  => db.moved j ∧ db.numbered j n ∧
    ∃ a, db.attempts.get (j, n) = some a ∧ a.Leased ∧ (db.runningRun j → a.status = .running)
  | .closed    => db.moved j ∧ ∃ n, db.numbered j n ∧
    ∀ a, db.attempts.get (j, n) = some a → a.Leased ∧ (db.runningRun j → a.status = .running)

/-- Only the last of the numbered Attempts is open. -/
theorem Db.numbered.running_last {db : Db} {j : String} {k m : Nat} {a : AttemptRow} (hn : db.numbered j k)
    (ha : db.attempts.get (j, m) = some a) (hrun : a.status = .running) : m = k := by
  have hle := ((hn.isSome_iff m).1 (by rw [ha]; rfl)).2
  by_cases hlt : m < k
  · have hst := hn.retried m a hlt ha
    rw [hrun] at hst
    cases hst
  · omega

theorem Db.inPhase_numbered {db : Db} {j : String} {p : Phase} (h : db.inPhase j p) : ∃ k, db.numbered j k := by
  cases p with
  | none => exact ⟨0, h⟩
  | between n => exact ⟨n, h.2.1⟩
  | bare n => exact ⟨n, h.2.1⟩
  | leased n => exact ⟨n, h.2.1⟩
  | closed =>
    obtain ⟨-, n, hn, -⟩ := h
    exact ⟨n, hn⟩

theorem Db.inPhase_closed {db : Db} {j : String} {n : Nat} (h : db.inPhase j (.leased n)) : db.inPhase j .closed := by
  obtain ⟨hm, hn, a, ha, hleased, hrun⟩ := h
  refine ⟨hm, n, hn, fun a' ha' => ?_⟩
  rw [ha] at ha'
  cases ha'
  exact ⟨hleased, hrun⟩

theorem numbered_foreign (b : Backend) (now : Time) {db : Db} {op : StoreOp} {j : String} {k : Nat} (hw : op.Wf)
    (hf : op.Foreign j) (hn : db.numbered j k) : (op.after b now db).numbered j k where
  isSome_iff m := by
    rw [← hn.isSome_iff m]
    cases ha : db.attempts.get (j, m) with
    | none => rw [attempt_foreign_none hf ha]
    | some a =>
      obtain ⟨a', ha', -, -⟩ := attempt_foreign b now hw hf ha
      rw [ha']
      rfl
  retried m a' hm ha' := by
    cases ha : db.attempts.get (j, m) with
    | none =>
      rw [attempt_foreign_none hf ha] at ha'
      cases ha'
    | some a =>
      have hst := hn.retried m a hm ha
      obtain ⟨a'', ha'', hkept, -⟩ := attempt_foreign b now hw hf ha
      rw [ha'] at ha''
      cases ha''
      rw [hkept.of_ended (by rw [hst]; decide)]
      exact hst

/-- **Calls of other parties keep the phase.** -/
theorem inPhase_foreign (b : Backend) (now : Time) {db : Db} {op : StoreOp} {j : String} {p : Phase} (hw : op.Wf)
    (hf : op.Foreign j) (hp : db.inPhase j p) : (op.after b now db).inPhase j p := by
  -- a row after the call was there before it
  have hback : ∀ m a', (op.after b now db).attempts.get (j, m) = some a' → ∃ a, db.attempts.get (j, m) = some a ∧
      a.Kept a' ∧ (a.status = .running → (op.after b now db).runningRun j → a'.status = .running) := by
    intro m a' ha'
    cases ha : db.attempts.get (j, m) with
    | none =>
      rw [attempt_foreign_none hf ha] at ha'
      cases ha'
    | some a =>
      obtain ⟨a'', ha'', hkept, hrun⟩ := attempt_foreign b now hw hf ha
      rw [ha'] at ha''
      cases ha''
      exact ⟨a, rfl, hkept, hrun⟩
  cases p with
  | none => exact numbered_foreign b now hw hf hp
  | between n =>
    obtain ⟨hm, hn, hlast⟩ := hp
    refine ⟨moved_after b now hw hm, numbered_foreign b now hw hf hn, fun a' ha' => ?_⟩
    obtain ⟨a, ha, hkept, -⟩ := hback n a' ha'
    obtain ⟨hst, hleased⟩ := hlast a ha
    rw [hkept.of_ended (by rw [hst]; decide)]
    exact ⟨hst, hleased⟩
  | bare n =>
    obtain ⟨hm, hn, a, ha, hbare⟩ := hp
    obtain ⟨a', ha', hkept, -⟩ := attempt_foreign b now hw hf ha
    rw [hkept.of_bare hbare] at ha'
    exact ⟨moved_after b now hw hm, numbered_foreign b now hw hf hn, a, ha', hbare⟩
  | leased n =>
    obtain ⟨hm, hn, a, ha, hleased, hrun⟩ := hp
    obtain ⟨a', ha', hkept, hrun'⟩ := attempt_foreign b now hw hf ha
    refine ⟨moved_after b now hw hm, numbered_foreign b now hw hf hn, a', ha', hkept.leased hleased, fun hr => ?_⟩
    exact hrun' (hrun (runningRun_foreign hw hf hm hr)) hr
  | closed =>
    obtain ⟨hm, n, hn, hlast⟩ := hp
    refine ⟨moved_after b now hw hm, n, numbered_foreign b now hw hf hn, fun a' ha' => ?_⟩
    obtain ⟨a, ha, hkept, hrun'⟩ := hback n a' ha'
    obtain ⟨hleased, hrun⟩ := hlast a ha
    exact ⟨hkept.leased hleased, fun hr => hrun' (hrun (runningRun_foreign hw hf hm hr)) hr⟩

end EdaLab
