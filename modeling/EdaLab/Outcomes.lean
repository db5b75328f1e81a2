import EdaLab.Abandoned
import EdaLab.Agreement
/-!
# Outcomes — what the status of a Run says of its Attempts

`_execute` counts its Attempts itself, while recoveries and cancellations fail them beside it.  Whatever they do, an
execution records no more Attempts than its service allows, and a Run that ended otherwise than `FAILED` shows in its
Attempts why: it succeeded or was cancelled with the last of them, or was cancelled before the first, or timed out when
every one that was allowed had failed (`outcome_shows`).
-/
namespace EdaLab

/-! ## The count of an execution -/

/-- The Attempt the execution is at is allowed, and it times out with the last one only. -/
def ExecPc.Allowed (limit : Nat) : ExecPc → Prop
  | record n                        => n ≤ limit
  | acquire n _ | launch n _        => n ≤ limit
  | register n _ _ _                => n ≤ limit
  | enqueue n _ _ _                 => n ≤ limit
  | adapter n _                     => n ≤ limit
  | spawned n _ _ | observe n _ _   => n ≤ limit
  | collect n _ _                   => n ≤ limit
  | transition n _ _ _              => n < limit
  | finalize c _                    =>
    c.attemptNo ≤ limit ∧ (c.runStatus = .timedOut → c.attemptNo = limit ∧ c.attemptStatus = .retryableFailure)
  | _                               => True

section Count

variable {svc : Service} {spec : JobSpec} {n : Nat} {t m : String}

theorem executionError_allowed {limit : Nat} (h : n ≤ limit) : (executionError spec n t m).Allowed limit :=
  ⟨h, fun hst => by cases hst⟩

theorem adapterRaised_allowed (e : AdapterError) (h : n ≤ svc.maxAttempts) :
    (adapterRaised svc spec n t e).Allowed svc.maxAttempts := by
  cases e with
  | cancelled m => exact ⟨h, fun hst => by cases hst⟩
  | timeout m =>
    simp only [adapterRaised]
    split
    · assumption
    · exact ⟨h, fun _ => ⟨by show n = _; omega, rfl⟩⟩
  | connection m =>
    simp only [adapterRaised]
    split
    · assumption
    · exact ⟨h, fun hst => by cases hst⟩
  | other m => exact executionError_allowed h

theorem collectResult_allowed {limit : Nat} (r : AdapterReturn) (h : n ≤ limit) :
    (collectResult spec n t r).Allowed limit := by
  unfold collectResult
  cases r.parsed with
  | error m => exact executionError_allowed h
  | ok result =>
    simp only
    split
    · exact ⟨h, fun hst => by cases hst⟩
    · split
      · exact ⟨h, fun hst => by cases hst⟩
      · split
        · exact ⟨h, fun hst => by cases hst⟩
        · split
          · exact ⟨h, fun hst => by cases hst⟩
          · exact ⟨h, fun hst => by cases hst⟩

theorem ExecPc.resume_allowed {owner : Option ExecutionOwner} {fresh : String} {reply : Reply} {pc : ExecPc}
    (h : pc.Allowed svc.maxAttempts) : (pc.resume svc spec owner fresh reply).Allowed svc.maxAttempts := by
  cases pc with
  | start =>
    simp only [resume]
    split
    · assumption
    · trivial
  | record n =>
    cases reply with
    | unit => exact h
    | _ => trivial
  | acquire n t =>
    simp only [resume]
    split
    · unfold afterAcquire
      split
      · exact h
      · split
        · exact executionError_allowed h
        · exact h
    · exact executionError_allowed h
  | register n t e o =>
    simp only [resume]
    split
    · split <;> exact h
    · exact executionError_allowed h
  | enqueue n t e o =>
    simp only [resume]
    split
    · trivial
    · exact executionError_allowed h
  | collect n t r =>
    simp only [resume]
    split
    · exact collectResult_allowed r h
    · exact executionError_allowed h
  | finalize c scope =>
    cases scope with
    | body payload =>
      simp only [resume]
      split
      · split <;> trivial
      · exact executionError_allowed h.1
    | handler => simp only [resume]; split <;> trivial
  | transition n t k m =>
    simp only [resume]
    split
    · exact h
    · trivial
  | metrics t payload => trivial
  | _ => exact h

theorem ExecPc.Advance.allowed {births : Nat} {pc pc' : ExecPc} {eff : Effect}
    (h : ExecPc.Advance svc spec births pc pc' eff) (hpc : pc.Allowed svc.maxAttempts) : pc'.Allowed svc.maxAttempts := by
  cases h with
  | begin => trivial
  | raised n t e => exact adapterRaised_allowed e hpc
  | _ => exact hpc

end Count

/-- A supervisor completes an Attempt once, and does not time it out. -/
def SupervisorPc.Untimed : SupervisorPc → Prop
  | finalize _ c => c.runStatus ≠ .timedOut
  | _            => True

theorem SupervisorPc.resume_untimed {pc : SupervisorPc} {reply : Reply} (h : pc.Untimed) : (pc.resume reply).Untimed := by
  cases pc with
  | claim => simp only [resume]; split <;> trivial
  | started req pid => simp only [resume]; split <;> trivial
  | witness req w result =>
    cases result with
    | none => trivial
    | some r =>
      simp only [resume]
      split
      · simp only [Untimed, completion]
        split <;> simp
      · trivial
  | finalize req c => simp only [resume]; split <;> trivial
  | _ => exact h

/-- The parties count their Attempts. -/
structure Counted (cfg : Config) (s : Sys) : Prop where
  exec : ∀ q svc spec pc, s.threads q = .exec svc spec pc → pc.Allowed (cfg.service svc).maxAttempts
  supervisor : ∀ q sup pc, s.threads q = .supervisor sup pc → pc.Untimed

theorem counted_init (cfg : Config) : Counted cfg Sys.init := ⟨(fun _ _ _ _ h => by cases h), fun _ _ _ h => by cases h⟩

section Step

variable {cfg : Config} {s s' : Sys} {a : Act}

theorem counted_step (hc : Counted cfg s) (h : Sys.step cfg s a = some s') : Counted cfg s' where
  exec q svc spec pc' hq := by
    cases exec_after h hq with
    | same hth => exact hc.exec q svc spec pc' hth
    | called fresh locked pc op _ _ hth _ hpc =>
      subst hpc
      exact ExecPc.resume_allowed (hc.exec q svc spec pc hth)
    | advanced _ fresh inp pc eff _ hth hadv => exact hadv.allowed (hc.exec q svc spec pc hth)
    | executed i _ _ _ hpc => subst hpc; trivial
    | cancelled _ hpc => subst hpc; trivial
  supervisor q sup pc' hq := by
    cases supervisor_after h hq with
    | same hth => exact hc.supervisor q sup pc' hth
    | entered _ hpc => subst hpc; trivial
    | called pc fresh locked op hth _ _ _ hpc =>
      subst hpc
      exact SupervisorPc.resume_untimed (hc.supervisor q sup pc hth)
    | advanced pc eff hth _ _ _ _ hadv => cases hadv <;> trivial

/-! ## Cancellations -/

/-- A cancelled future stays one. -/
theorem cancelled_after (h : Sys.step cfg s a = some s') {q svc : Nat} {spec : JobSpec}
    (hq : s.threads q = .exec svc spec .cancelled) : s'.threads q = .exec svc spec .cancelled := by
  obtain ⟨pc', hq'⟩ := exec_persists h hq
  rw [hq']
  cases exec_after h hq' with
  | same hth => rw [hq] at hth; cases hth; rfl
  | called fresh locked pc op _ _ hth hop _ => rw [hq] at hth; cases hth; cases hop
  | advanced _ fresh inp pc eff _ hth hadv => rw [hq] at hth; cases hth; cases hadv
  | executed i _ _ hnone _ => rw [hq] at hnone; cases hnone
  | cancelled hth _ => rw [hq] at hth; cases hth

/-- The execution of the job was cancelled before it began. -/
def NeverBegan (s : Sys) (j : String) : Prop := ∃ q svc spec, s.threads q = .exec svc spec .cancelled ∧ spec.jobId = j

theorem NeverBegan.step {j : String} (hn : NeverBegan s j) (h : Sys.step cfg s a = some s') : NeverBegan s' j := by
  obtain ⟨q, svc, spec, hq, hj⟩ := hn
  exact ⟨q, svc, spec, cancelled_after h hq, hj⟩

/-- `cancel` writes where it has cancelled the future. -/
def CancelWrites (s : Sys) : Prop := ∀ q svc j, s.threads q = .cancel svc j .write → NeverBegan s j

/-- The future that `cancel` found waiting. -/
theorem futureState_cancellable (hf : FutureInv s) {svc : Nat} {j : String} (h : s.futureState svc j = .cancellable) :
    ∃ k spec pc, s.future svc j = some k ∧ s.threads k = .exec svc spec pc ∧ spec.jobId = j ∧
      (pc = .pending ∨ pc = .cancelled) := by
  cases hk : s.future svc j with
  | none => simp [Sys.futureState, hk] at h
  | some k =>
    obtain ⟨l₁, l₂, heq, -⟩ := List.lookup_eq_some_iff.1 hk
    obtain ⟨spec, pc, hth, hj⟩ := hf svc (j, k) (by rw [heq]; simp)
    refine ⟨k, spec, pc, rfl, hth, hj, ?_⟩
    simp only [Sys.futureState, hk, Option.bind_some, Sys.execPc, hth] at h
    cases pc with
    | pending => exact Or.inl rfl
    | cancelled => exact Or.inr rfl
    | _ => cases h

/-- Where `cancel` goes on to write, the future it found is cancelled. -/
theorem cancel_wrote (hf : FutureInv s) {q k : Nat} {fresh : String} {inp : Input}
    (h : Sys.step cfg s (.advance q k fresh inp) = some s') {svc : Nat} {j : String}
    (hth : s.threads q = .cancel svc j .lookup) (hq : s'.threads q = .cancel svc j .write) : NeverBegan s' j := by
  obtain ⟨th, eff, hadv, happ⟩ := Sys.proceed_some h
  have hx := hadv.advance_eq
  rw [hth] at hx
  obtain ⟨⟨pc, eff'⟩, hy, hy'⟩ := Option.map_eq_some_iff.1 hx
  cases hy'
  have hreturned : ∀ b, s' = s.put q fresh (.cancel svc j (.returned b)) → NeverBegan s' j := by
    rintro b rfl
    simp only [Sys.put, Function.update_self] at hq
    cases hq
  simp only [CancelPc.advance] at hy
  split at hy
  · cases hy; exact hreturned _ (Option.some.inj happ).symm
  · rename_i hstate
    cases hy
    obtain ⟨m, spec, pc, hm, hexec, hj, hpc⟩ := futureState_cancellable hf hstate
    have hne : m ≠ q := by
      rintro rfl
      rw [hth] at hexec
      cases hexec
    have hput : (s.put q fresh (.cancel svc j .write)).threads m = .exec svc spec pc := by
      simp only [Sys.put, Function.update_of_ne hne, hexec]
    have hfuture : (s.put q fresh (.cancel svc j .write)).future svc j = some m := hm
    cases happ
    refine ⟨m, svc, spec, ?_, hj⟩
    simp only [Sys.cancelFuture, hfuture, hput]
    rcases hpc with rfl | rfl
    · simp
    · exact hput
  · cases hy; exact hreturned _ (Option.some.inj happ).symm
  · cases hy

theorem cancelWrites_step (hf : FutureInv s) (hc : CancelWrites s) (h : Sys.step cfg s a = some s') : CancelWrites s' := by
  intro q svc j hq
  cases thread_after q h with
  | same heq => exact (hc q svc j (by rw [← heq, hq])).step h
  | entered th _ _ hentry heq =>
    rw [heq] at hq
    subst hq
    cases hentry
  | called fresh locked op _ hcall heq =>
    rw [heq] at hq
    cases hth : s.threads q with
    | cancel v i pc =>
      rw [hth] at hq
      cases pc with
      | lookup =>
        have hop := hcall.is_op
        rw [hth] at hop
        cases hop
      | write => cases hq
      | returned b => cases hq
    | _ => rw [hth] at hq; cases hq
  | advanced k fresh inp th eff hact hadv heq =>
    subst hact
    rw [heq] at hq
    subst hq
    have hx := hadv.advance_eq
    cases hth : s.threads q with
    | none => rw [hth] at hx; cases hx
    | cancel v i pc =>
      rw [hth] at hx
      obtain ⟨⟨pc', eff'⟩, hy, hy'⟩ := Option.map_eq_some_iff.1 hx
      cases hy'
      cases pc with
      | lookup => exact cancel_wrote hf h hth heq
      | write => cases hy
      | returned b => cases hy
    | _ =>
      rw [hth] at hx
      obtain ⟨x, -, hx'⟩ := Option.map_eq_some_iff.1 hx
      cases hx'
  | executed i fresh inp th spec v _ _ _ _ heq _ => rw [heq] at hq; cases hq
  | beat i fresh inp th b run _ _ _ _ heq => rw [heq] at hq; cases hq
  | cancelled v spec _ heq => rw [heq] at hq; cases hq

/-! ## What a status says -/

def Executes (s : Sys) (svc : Nat) (j : String) : Prop := ∃ q spec pc, s.threads q = .exec svc spec pc ∧ spec.jobId = j

/-- An Attempt of the job ended so. -/
def Ended (s : Sys) (j : String) (st : AttemptStatus) : Prop := ∃ n a, s.db.attempts.get (j, n) = some a ∧ a.status = st

/-- The status of a Run, and what the parties have done for it. -/
structure Explained (cfg : Config) (s : Sys) (j : String) (st : RunStatus) : Prop where
  succeeded : st = .succeeded → Ended s j .succeeded
  cancelled : st = .cancelled → NeverBegan s j ∨ Ended s j .cancelled
  timedOut : st = .timedOut → ∃ svc, Executes s svc j ∧ ∀ n, 1 ≤ n → n ≤ (cfg.service svc).maxAttempts →
    ∃ a, s.db.attempts.get (j, n) = some a ∧ a.status = .retryableFailure

structure OutcomeInv (cfg : Config) (s : Sys) : Prop where
  exec : ExecInv cfg s
  made : FinishingMade s
  futures : FutureInv s
  counted : Counted cfg s
  cancels : CancelWrites s
  /-- Every Attempt was recorded by an execution that was allowed it. -/
  allowed : ∀ j n a, s.db.attempts.get (j, n) = some a →
    ∃ svc, Executes s svc j ∧ n ≤ (cfg.service svc).maxAttempts
  explained : ∀ j r, s.db.runs.get j = some r → Explained cfg s j r.status

theorem outcomeInv_init (cfg : Config) : OutcomeInv cfg Sys.init where
  exec := execInv_init cfg
  made := finishing_made_init
  futures _ _ h := by cases h
  counted := counted_init cfg
  cancels _ _ _ h := by cases h
  allowed _ _ _ h := by cases h
  explained _ _ h := by cases h

theorem Executes.step {svc : Nat} {j : String} (he : Executes s svc j) (h : Sys.step cfg s a = some s') :
    Executes s' svc j := by
  obtain ⟨q, spec, pc, hq, hj⟩ := he
  obtain ⟨pc', hq'⟩ := exec_persists h hq
  exact ⟨q, spec, pc', hq', hj⟩

/-- A closed Attempt stays as it is. -/
theorem closed_step (hi : OutcomeInv cfg s) (h : Sys.step cfg s a = some s') {k : String × Nat} {row : AttemptRow}
    (hrow : s.db.attempts.get k = some row) (hst : row.status ≠ .running) : s'.db.attempts.get k = some row := by
  rcases Sys.step_db h with hdb | ⟨i, fresh, locked, op, -, hc⟩
  · rw [hdb, hrow]
  · rw [hc.db_eq]
    exact closed_kept (Thread.op_paired hi.exec hi.made hc.is_op) hrow hst

theorem Ended.step {j : String} {st : AttemptStatus} (he : Ended s j st) (hi : OutcomeInv cfg s)
    (h : Sys.step cfg s a = some s') (hst : st ≠ .running) : Ended s' j st := by
  obtain ⟨n, row, hrow, rfl⟩ := he
  exact ⟨n, row, closed_step hi h hrow hst, rfl⟩

/-- What explains a status goes on explaining it. -/
theorem Explained.step {j : String} {st : RunStatus} (he : Explained cfg s j st) (hi : OutcomeInv cfg s)
    (h : Sys.step cfg s a = some s') : Explained cfg s' j st where
  succeeded hst := (he.succeeded hst).step hi h (by simp)
  cancelled hst := (he.cancelled hst).imp (fun hn => hn.step h) (fun hended => hended.step hi h (by simp))
  timedOut hst := by
    obtain ⟨svc, hexec, hall⟩ := he.timedOut hst
    refine ⟨svc, hexec.step h, fun n hpos hle => ?_⟩
    obtain ⟨row, hrow, hfailed⟩ := hall n hpos hle
    exact ⟨row, closed_step hi h hrow (by rw [hfailed]; simp), hfailed⟩

/-- An open status needs no explanation, and no more does `FAILED`. -/
theorem explained_other {j : String} {st : RunStatus} (hs : st ≠ .succeeded) (hc : st ≠ .cancelled) (ht : st ≠ .timedOut) :
    Explained cfg s j st :=
  ⟨fun h => absurd h hs, fun h => absurd h hc, fun h => absurd h ht⟩

theorem allowed_step (hi : OutcomeInv cfg s) (h : Sys.step cfg s a = some s') {j : String} {n : Nat} {row : AttemptRow}
    (hrow : s'.db.attempts.get (j, n) = some row) : ∃ svc, Executes s' svc j ∧ n ≤ (cfg.service svc).maxAttempts := by
  have hold : ∀ row, s.db.attempts.get (j, n) = some row →
      ∃ svc, Executes s' svc j ∧ n ≤ (cfg.service svc).maxAttempts := by
    intro row hrow
    obtain ⟨svc, hexec, hle⟩ := hi.allowed j n row hrow
    exact ⟨svc, hexec.step h, hle⟩
  rcases Sys.step_db h with hdb | ⟨i, fresh, locked, op, -, hc⟩
  · rw [hdb] at hrow
    exact hold row hrow
  · rw [hc.db_eq] at hrow
    cases attempts_after cfg.backend s.clock s.db op (j, n) with
    | same hget => rw [hget] at hrow; exact hold row hrow
    | recorded st et e ap rc hop =>
      have hop' := hc.is_op
      rw [hop] at hop'
      obtain ⟨svc, spec, pc, hth, hj, hpc⟩ := Thread.op_ofExecution hop' rfl
      have hcount := hi.counted.exec i svc spec pc hth
      have hexec : Executes s svc j := ⟨i, spec, pc, hth, hj⟩
      refine ⟨svc, hexec.step h, ?_⟩
      cases pc with
      | record m => cases hpc; exact hcount
      | _ => cases hpc
    | updated u row₀ _ _ hrow₀ => exact hold row₀ hrow₀
    | renewed t ttl row₀ _ hrow₀ => exact hold row₀ hrow₀

/-- A `CANCELLED` completion cancels its Attempt. -/
theorem Completion.Made.cancels {c : Completion} (h : c.Made) (hst : c.runStatus = .cancelled) :
    c.attemptStatus = .cancelled := by
  cases h with
  | failed spec n t m c h => cases h; cases hst
  | raised svc spec n t e c h =>
    cases e with
    | cancelled m => cases h; rfl
    | timeout m =>
      simp only [adapterRaised] at h
      split at h
      · cases h
      · cases h; cases hst
    | connection m =>
      simp only [adapterRaised] at h
      split at h
      · cases h
      · cases h; cases hst
    | other m => cases h; cases hst
  | collected spec n t r c h =>
    unfold collectResult at h
    cases hparsed : r.parsed with
    | error m => rw [hparsed] at h; cases h; cases hst
    | ok result =>
      rw [hparsed] at h
      simp only at h
      split at h
      · cases h; cases hst
      · split at h
        · cases h; cases hst
        · split at h
          · cases h; cases hst
          · split at h
            · cases h; cases hst
            · cases h; cases hst
  | supervised req r parsed =>
    unfold SupervisorPc.completion at hst
    split at hst <;> cases hst

/-- Who writes `TIMED_OUT`: an execution, with the last Attempt it is allowed. -/
theorem timedOut_writer (hi : OutcomeInv cfg s) {i : Nat} {locked : List String} {c : Completion}
    (hop : (s.threads i).op cfg s locked = some (.finalizeAttemptAndRun c)) (hst : c.runStatus = .timedOut) :
    ∃ svc, Executes s svc c.jobId ∧ c.attemptNo = (cfg.service svc).maxAttempts ∧ c.attemptStatus = .retryableFailure := by
  obtain ⟨c, owner, hfin, rfl⟩ := Thread.op_finalize hop
  have hwf := hi.exec.queue.wf i
  cases hth : s.threads i with
  | exec svc spec pc =>
    have hcount := hi.counted.exec i svc spec pc hth
    rw [hth] at hfin hwf
    cases pc with
    | finalize c₀ scope =>
      cases hfin
      obtain ⟨hno, hfailed⟩ := hcount.2 hst
      exact ⟨svc, ⟨i, spec, _, hth, hwf.1.symm⟩, hno, hfailed⟩
    | _ => cases hfin
  | supervisor sup pc =>
    have huntimed := hi.counted.supervisor i sup pc hth
    rw [hth] at hfin
    cases pc with
    | finalize req c₀ => cases hfin; exact absurd hst huntimed
    | _ => cases hfin
  | _ => rw [hth] at hfin; cases hfin

/-- **What an accepted completion leaves explains the status it writes.** -/
theorem explained_completion (hi : OutcomeInv cfg s) {i : Nat} {fresh : String} {locked : List String} {c : Completion}
    (hc : Sys.Called cfg s i fresh locked (.finalizeAttemptAndRun c) s')
    (hrep : (StoreOp.finalizeAttemptAndRun c).reply cfg.backend s.clock s.db = .flag true)
    (h : Sys.step cfg s (.call i fresh locked) = some s') : Explained cfg s' c.jobId c.runStatus := by
  obtain ⟨⟨row₀, hrow₀, hrunning⟩, row, hrow, hrowst⟩ := completion_accepted hrep
  rw [← hc.db_eq] at hrow
  have hpaired : c.Paired := Thread.op_paired hi.exec hi.made hc.is_op
  refine ⟨fun hst => ⟨_, row, hrow, hrowst.trans (hpaired.succeeds hst)⟩, fun hst => Or.inr ⟨_, row, hrow, ?_⟩,
    fun hst => ?_⟩
  · obtain ⟨c₀, owner, hfin, rfl⟩ := Thread.op_finalize hc.is_op
    exact hrowst.trans ((hi.made i c₀ hfin).cancels hst)
  · obtain ⟨svc, hexec, hlast, hfailed⟩ := timedOut_writer hi hc.is_op hst
    refine ⟨svc, hexec.step h, fun n hpos hle => ?_⟩
    by_cases hn : n = c.attemptNo
    · subst hn
      exact ⟨row, hrow, hrowst.trans hfailed⟩
    · -- the Attempt that ran was the last one, so an earlier one had failed
      obtain ⟨p, hp⟩ := s.exists_phase c.jobId
      obtain ⟨k, hk⟩ := Db.inPhase_numbered (hi.exec.attempts c.jobId p hp)
      have hk' := hk.running_last hrow₀ hrunning
      obtain ⟨earlier, hget⟩ := Option.isSome_iff_exists.1 ((hk.isSome_iff n).2 ⟨hpos, by omega⟩)
      have hretried := hk.retried n earlier (by omega) hget
      exact ⟨earlier, closed_step hi h hget (by rw [hretried]; simp), hretried⟩

/-- An `update_run` that cancels the Run is that of `cancel`. -/
theorem explained_update (hi : OutcomeInv cfg s) {i : Nat} {locked : List String} {j : String} {f : RunFields}
    (hop : (s.threads i).op cfg s locked = some (.updateRun j f)) (h : Sys.step cfg s a = some s') (r : RunRow) :
    Explained cfg s' j (f.write s.clock r).status := by
  generalize hth : s.threads i = th at hop
  cases Thread.op_cases hop with
  | cancel svc =>
    exact ⟨(fun hst => by cases hst), fun _ => Or.inl ((hi.cancels i svc j hth).step h), fun hst => by cases hst⟩
  | exec svc spec pc _ hpc =>
    cases pc with
    | start =>
      cases hpc
      exact explained_other (by simp [RunFields.write]) (by simp [RunFields.write]) (by simp [RunFields.write])
    | _ => cases hpc
  | scan svc r _ _ _ hr =>
    cases RecoverPc.op_cases hr with
    | failNoAttempt sc run =>
      exact explained_other (by simp [RunFields.write]) (by simp [RunFields.write]) (by simp [RunFields.write])
  | submit svc spec pc _ hpc => cases pc <;> cases hpc
  | beat b pc _ hpc => cases pc <;> cases hpc
  | supervisor sup pc _ hpc => cases pc <;> cases hpc

/-- **One step** leaves every Run explained. -/
theorem explained_step (hi : OutcomeInv cfg s) (h : Sys.step cfg s a = some s') {j : String} {r' : RunRow}
    (hr' : s'.db.runs.get j = some r') : Explained cfg s' j r'.status := by
  rcases Sys.step_db h with hdb | ⟨i, fresh, locked, op, rfl, hc⟩
  · rw [hdb] at hr'
    exact (hi.explained j r' hr').step hi h
  · rw [hc.db_eq] at hr'
    cases runs_after cfg.backend s.clock s.db op j with
    | same hget =>
      rw [hget] at hr'
      exact (hi.explained j r' hr').step hi h
    | created _ _ _ _ _ _ _ _ hget _ =>
      rw [hget] at hr'
      cases hr'
      exact explained_other (by simp [Store.newRun]) (by simp [Store.newRun]) (by simp [Store.newRun])
    | claimed _ _ _ _ _ _ hget _ =>
      rw [hget] at hr'
      cases hr'
      exact explained_other (by simp [RunFields.write]) (by simp [RunFields.write]) (by simp [RunFields.write])
    | updated f r hop _ hget =>
      rw [hget] at hr'
      cases hr'
      have hop' := hc.is_op
      rw [hop] at hop'
      exact explained_update hi hop' h r
    | closed c r hfin hjob _ _ _ hget hrep =>
      rw [hget] at hr'
      cases hr'
      cases op with
      | finalizeRecovery k n token et e =>
        cases hfin
        exact explained_other (by simp [RunFields.write]) (by simp [RunFields.write]) (by simp [RunFields.write])
      | finalizeAttemptAndRun c =>
        cases hfin
        obtain rfl : c.jobId = j := hjob
        exact explained_completion hi hc hrep h
      | _ => cases hfin

/-- **One step** keeps the account of every Run. -/
theorem outcomeInv_step (hi : OutcomeInv cfg s) (hsep : s'.Separate) (h : Sys.step cfg s a = some s') :
    OutcomeInv cfg s' where
  exec := execInv_step hi.exec hsep h
  made := finishing_made_step hi.made h
  futures := futureInv_step hi.futures h
  counted := counted_step hi.counted h
  cancels := cancelWrites_step hi.futures hi.cancels h
  allowed _ _ _ hrow := allowed_step hi h hrow
  explained _ _ hr := explained_step hi h hr

end Step

/-! ## Runs -/

/-- How a Run with so many Attempts ended. -/
structure Db.EndedAfter (db : Db) (j : String) (k : Nat) (st : RunStatus) : Prop where
  succeeded : st = .succeeded → ∃ a, db.attempts.get (j, k) = some a ∧ a.status = .succeeded
  cancelled : st = .cancelled → k = 0 ∨ ∃ a, db.attempts.get (j, k) = some a ∧ a.status = .cancelled
  timedOut  : st = .timedOut → ∀ n a, db.attempts.get (j, n) = some a → a.status = .retryableFailure

section Last

variable {cfg : Config} {s : Sys} {j : String} {k : Nat}

theorem Db.numbered.unique {db : Db} {m : Nat} (h : db.numbered j k) (h' : db.numbered j m) : k = m := by
  by_contra hne
  rcases Nat.lt_or_gt_of_ne hne with hlt | hlt
  · exact absurd ((h.isSome_iff m).1 ((h'.isSome_iff m).2 ⟨by omega, le_refl m⟩)).2 (by omega)
  · exact absurd ((h'.isSome_iff k).1 ((h.isSome_iff k).2 ⟨by omega, le_refl k⟩)).2 (by omega)

/-- An Attempt that ended otherwise than to be retried is the last one. -/
theorem Ended.last {st : AttemptStatus} (he : Ended s j st) (hn : s.db.numbered j k) (hst : st ≠ .retryableFailure) :
    ∃ a, s.db.attempts.get (j, k) = some a ∧ a.status = st := by
  obtain ⟨n, row, hrow, rfl⟩ := he
  have hle := ((hn.isSome_iff n).1 (by rw [hrow]; rfl)).2
  by_cases hlt : n < k
  · exact absurd (hn.retried n row hlt hrow) hst
  · obtain rfl : n = k := by omega
    exact ⟨row, hrow, rfl⟩

/-- A job whose execution never began has no Attempt. -/
theorem NeverBegan.numbered (hb : NeverBegan s j) (hi : ExecInv cfg s) (hn : s.db.numbered j k) : k = 0 := by
  obtain ⟨q, svc, spec, hq, hj⟩ := hb
  exact hn.unique (hi.attempts j .none (Or.inl ⟨q, svc, spec, .cancelled, hq, hj, rfl⟩))

/-- The Attempts of a job are allowed by whoever executes it. -/
theorem OutcomeInv.budget (hi : OutcomeInv cfg s) (hn : s.db.numbered j k) {svc : Nat} (he : Executes s svc j) :
    k ≤ (cfg.service svc).maxAttempts := by
  by_cases hk : k = 0
  · omega
  · obtain ⟨row, hrow⟩ := Option.isSome_iff_exists.1 ((hn.isSome_iff k).2 ⟨by omega, le_refl k⟩)
    obtain ⟨v, ⟨q, spec, pc, hq, hj⟩, hle⟩ := hi.allowed j k row hrow
    obtain ⟨q', spec', pc', hq', hj'⟩ := he
    obtain ⟨-, rfl, -⟩ := one_mode hi.exec.sole hq hq' (hj.trans hj'.symm)
    exact hle

/-- All the Attempts of a job whose Run timed out were allowed and failed. -/
theorem OutcomeInv.exhausted (hi : OutcomeInv cfg s) (hn : s.db.numbered j k) {st : RunStatus} (he : Explained cfg s j st)
    (hst : st = .timedOut) : (∃ svc, Executes s svc j ∧ k = (cfg.service svc).maxAttempts) ∧
      ∀ n a, s.db.attempts.get (j, n) = some a → a.status = .retryableFailure := by
  obtain ⟨svc, hexec, hall⟩ := he.timedOut hst
  have hle := hi.budget hn hexec
  refine ⟨⟨svc, hexec, ?_⟩, fun n row hrow => ?_⟩
  · by_contra hne
    obtain ⟨row, hrow, -⟩ := hall (k + 1) (by omega) (by omega)
    exact absurd ((hn.isSome_iff (k + 1)).1 (by rw [hrow]; rfl)).2 (by omega)
  · obtain ⟨hpos, hnk⟩ := (hn.isSome_iff n).1 (by rw [hrow]; rfl)
    obtain ⟨row', hrow', hfailed⟩ := hall n hpos (by omega)
    rw [hrow] at hrow'
    cases hrow'
    exact hfailed

theorem OutcomeInv.endedAfter (hi : OutcomeInv cfg s) (hn : s.db.numbered j k) {r : RunRow}
    (hr : s.db.runs.get j = some r) : s.db.EndedAfter j k r.status where
  succeeded hst := ((hi.explained j r hr).succeeded hst).last hn (by simp)
  cancelled hst := ((hi.explained j r hr).cancelled hst).imp (fun hb => hb.numbered hi.exec hn)
    (fun he => he.last hn (by simp))
  timedOut hst := (hi.exhausted hn (hi.explained j r hr) hst).2

end Last

/-- **In every run the status of a Run shows in its Attempts.**  They are numbered from 1 and no more than the service that
executes the job allows; a Run succeeded with the last of them, was cancelled with the last or before the first, and timed
out when all that were allowed had failed and could have been retried. -/
theorem outcome_shows (cfg : Config) (acts : List Act) (s : Sys) (h : Trace.run (Sys.step cfg) Sys.init acts = some s)
    (hsep : s.Separate) (j : String) :
    ∃ k, s.db.numbered j k ∧ (∀ svc, Executes s svc j → k ≤ (cfg.service svc).maxAttempts) ∧
      ∀ r, s.db.runs.get j = some r → s.db.EndedAfter j k r.status ∧
        (r.status = .timedOut → ∃ svc, Executes s svc j ∧ k = (cfg.service svc).maxAttempts) := by
  have hi : OutcomeInv cfg s := by
    refine Trace.run_preserves_of_every ?_ (outcomeInv_init cfg) (separate_steps h hsep) h
    intro m act m' hm hsep' hstep
    exact outcomeInv_step hm (hsep' m' hstep) hstep
  obtain ⟨p, hp⟩ := s.exists_phase j
  obtain ⟨k, hn⟩ := Db.inPhase_numbered (hi.exec.attempts j p hp)
  refine ⟨k, hn, fun svc hexec => hi.budget hn hexec, fun r hr => ⟨hi.endedAfter hn hr, fun hst => ?_⟩⟩
  exact (hi.exhausted hn (hi.explained j r hr) hst).1

/-- The adapter times out twice. -/
def exhaustedActs : List Act :=
  claimActs ++
  [.call 2 "c3" [], .call 2 "c4" [], .advance 2 4 "c5" .go, .advance 2 0 "c6" (.raised (.timeout "late")), .call 2 "c7" [],
   .call 2 "c8" [], .call 2 "c9" [], .advance 2 5 "c10" .go, .advance 2 0 "c11" (.raised (.timeout "late")),
   .call 2 "c12" []]

theorem exhausted_timedOut : ∃ s, Trace.run (Sys.step workerConfig) Sys.init exhaustedActs = some s ∧
    (s.db.runs.get "job").map (·.status) = some .timedOut ∧
    ∃ k, s.db.numbered "job" k ∧ (∀ svc, Executes s svc "job" → k ≤ (workerConfig.service svc).maxAttempts) ∧
      ∀ r, s.db.runs.get "job" = some r → s.db.EndedAfter "job" k r.status ∧
        (r.status = .timedOut → ∃ svc, Executes s svc "job" ∧ k = (workerConfig.service svc).maxAttempts) := by
  have hrun : (Trace.run (Sys.step workerConfig) Sys.init exhaustedActs).map (fun s =>
      (decide (s.history.kept = []), (s.db.runs.get "job").map (·.status))) = some (true, some .timedOut) := by
    decide +kernel
  obtain ⟨s, hs, hend⟩ := Option.map_eq_some_iff.1 hrun
  obtain ⟨hkept, hstatus⟩ := Prod.mk.inj hend
  refine ⟨s, hs, hstatus, outcome_shows workerConfig exhaustedActs s hs (fun j _ hj => ?_) "job"⟩
  rw [of_decide_eq_true hkept] at hj
  cases hj

end EdaLab
