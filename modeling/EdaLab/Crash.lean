import EdaLab.Classification
/-!
# Crash — which dead executions one recovery scan closes

The holder of a `RUNNING` Run died and every lease and recovery claim of the job is over.  A scan of another service closes
the Run, except where the holder had recorded the Attempt and not leased it, where it had given the last Attempt up and not
recorded the next one, where a process has the recorded process id, and where a probe of the scan raises before it has got
to the Run (`crash_recovery_closes_iff`).
-/
namespace EdaLab

open Relational

/-- The holder of the job is dead: every lease and recovery claim of its Attempts is over, and the Run is `RUNNING`. -/
structure Crashed (cfg : Config) (s : Sys) (q svc : Nat) (j : String) : Prop where
  reached : ∃ acts, Trace.run (Sys.step cfg) Sys.init acts = some s
  separate : s.Separate
  holds : (s.threads q).holds = some j
  service : (s.threads q).service = some svc
  no_owner : s.owners svc = none
  running : s.db.runningRun j
  leases_over : ∀ a ∈ Store.attemptsOf s.db j, a.leaseExpiresAt.all (fun e => decide (e < s.clock)) = true
  claims_over : ∀ a ∈ Store.attemptsOf s.db j, a.recoveryFree s.clock = true

/-- The holder is between `record_attempt` and `acquire_attempt_lease`, or between a retry and its `record_attempt`. -/
def Thread.unleased : Thread → Bool
  | .exec _ _ (.acquire _ _) => true
  | .exec _ _ (.record n)    => decide (2 ≤ n)
  | _                        => false

theorem attempts_mem {db : Db} {j : String} {n : Nat} {a : AttemptRow} (h : db.attempts.get (j, n) = some a) :
    a ∈ Store.attemptsOf db j := by
  have hkey : a.key = (j, n) := Table.key_of_get h
  rw [Store.attemptsOf, List.mem_insertionSort, List.mem_filter, decide_eq_true_eq]
  exact ⟨Table.mem_of_get h, congrArg Prod.fst hkey⟩

/-- What is left of the job of a holder at a point of that kind. -/
structure Remains (s : Sys) (j : String) (unleased : Bool) (k : Nat) : Prop where
  left : s.Left j k (s.db.attempts.get (j, k))
  leased : unleased = false → ∀ a, s.db.attempts.get (j, k) = some a →
    a.status = .running ∧ a.leaseToken.isSome = true ∧ a.leaseExpired s.clock = true
  refused : unleased = true → ∃ a, s.db.attempts.get (j, k) = some a ∧
    ¬ (a.status = .running ∧ a.leaseExpired s.clock = true)

section Crash

variable {cfg : Config} {s : Sys} {q svc : Nat} {j : String}

theorem Crashed.scanInv (hc : Crashed cfg s q svc j) : ScanInv cfg s := by
  obtain ⟨acts, hrun⟩ := hc.reached
  exact scanInv_run (scanInv_init cfg) hrun hc.separate

/-- The phase of the crashed execution; a holder that is about to start one has none. -/
theorem Crashed.phase (hc : Crashed cfg s q svc j) :
    (∃ spec pc, s.threads q = .exec svc spec pc ∧ spec.jobId = j ∧ s.db.inPhase j pc.phase) ∨
    ((s.threads q).unleased = false ∧ s.db.numbered j 0) := by
  have hi := hc.scanInv
  by_cases hex : ∃ q' svc' spec pc, s.threads q' = .exec svc' spec pc ∧ spec.jobId = j
  · obtain ⟨q', svc', spec, pc, hq', hj⟩ := hex
    obtain rfl := hi.exec.sole q' q j (by rw [hq']; exact congrArg some hj) hc.holds
    have hserv := hc.service
    rw [hq'] at hserv
    cases hserv
    exact Or.inl ⟨spec, pc, hq', hj, hi.exec.attempts j _ (Or.inl ⟨q', svc, spec, pc, hq', hj, rfl⟩)⟩
  · have hnone : s.db.numbered j 0 :=
      hi.exec.attempts j .none (Or.inr ⟨fun q svc spec pc hq hj => hex ⟨q, svc, spec, pc, hq, hj⟩, rfl⟩)
    refine Or.inr ⟨?_, hnone⟩
    cases hth : s.threads q with
    | exec svc' spec pc =>
      have hheld := hc.holds
      rw [hth] at hheld
      exact absurd ⟨q, svc', spec, pc, hth, Option.some.inj hheld⟩ hex
    | _ => rfl

theorem Crashed.no_session (hc : Crashed cfg s q svc j) {n : Nat} {a : AttemptRow}
    (ha : s.db.attempts.get (j, n) = some a) : a.executionHostSession = none := by
  rcases hc.phase with ⟨spec, pc, hq, rfl, -⟩ | ⟨-, hn⟩
  · exact (hc.scanInv.owners q svc spec pc hq hc.no_owner).1 n a ha
  · have := (hn.isSome_iff n).1 (by rw [ha]; rfl)
    omega

/-- An Attempt left `RUNNING` under a lease is one the scan can claim. -/
theorem Crashed.expired (hc : Crashed cfg s q svc j) {n : Nat} {a : AttemptRow}
    (ha : s.db.attempts.get (j, n) = some a) (hl : a.Leased) : a.leaseExpired s.clock = true := by
  have hover := hc.leases_over a (attempts_mem ha)
  obtain ⟨e, he⟩ := Option.isSome_iff_exists.1 hl.expiry
  rw [he] at hover
  rw [AttemptRow.leaseExpired, he]
  exact hover

/-- **What each crash point has left**: the last Attempt is open under a lease, or there is none, exactly where the holder
was at no unleased point. -/
theorem Crashed.left (hc : Crashed cfg s q svc j) : ∃ k, Remains s j (s.threads q).unleased k := by
  obtain ⟨row, hrow, hst⟩ := hc.running
  have hrun : ∃ r, s.db.runs.get j = some r ∧ r.status = .running ∧ r.updatedAt ≤ s.clock :=
    ⟨row, hrow, hst, hc.scanInv.updated j row hrow⟩
  -- no Attempt at all
  have hnone : s.db.numbered j 0 → (s.threads q).unleased = false → ∃ k, Remains s j (s.threads q).unleased k := by
    intro hn hq
    rw [hq]
    refine ⟨0, ⟨hrun, hn, rfl⟩, fun _ a ha => ?_, fun h => by cases h⟩
    have := (hn.isSome_iff 0).1 (by rw [ha]; rfl)
    omega
  -- an Attempt that was leased and not closed
  have hleased : ∀ n, s.db.numbered j n → (s.threads q).unleased = false →
      (∀ a, s.db.attempts.get (j, n) = some a → a.Leased ∧ (s.db.runningRun j → a.status = .running)) →
      ∃ k, Remains s j (s.threads q).unleased k := by
    intro n hn hq hlast
    rw [hq]
    refine ⟨n, ⟨hrun, hn, rfl⟩, fun _ a ha => ?_, fun h => by cases h⟩
    obtain ⟨hl, hopen⟩ := hlast a ha
    obtain ⟨t, ht, -⟩ := hl.token
    exact ⟨hopen hc.running, by rw [ht]; rfl, hc.expired ha hl⟩
  rcases hc.phase with ⟨spec, pc, hq, rfl, hphase⟩ | ⟨hq, hn⟩
  · rw [hq] at hnone hleased ⊢
    cases pc with
    | pending => exact hnone hphase rfl
    | start => exact hnone hphase rfl
    | cancelled => exact hnone hphase rfl
    | record n =>
      obtain ⟨-, hn, hlast⟩ := hphase
      by_cases htwo : 2 ≤ n
      · refine ⟨n - 1, ⟨hrun, hn, rfl⟩, fun h => ?_, fun _ => ?_⟩
        · simp [Thread.unleased, htwo] at h
        · obtain ⟨a, ha⟩ := Option.isSome_iff_exists.1 ((hn.isSome_iff (n - 1)).2 ⟨by omega, le_refl _⟩)
          refine ⟨a, ha, fun hopen => ?_⟩
          rw [(hlast a ha).1] at hopen
          cases hopen.1
      · have hzero : n - 1 = 0 := by omega
        rw [hzero] at hn
        exact hnone hn (by simp [Thread.unleased, htwo])
    | acquire n t =>
      obtain ⟨-, hn, a, ha, hbare⟩ := hphase
      refine ⟨n, ⟨hrun, hn, rfl⟩, (fun h => by cases h), fun _ => ⟨a, ha, fun hopen => ?_⟩⟩
      rw [AttemptRow.leaseExpired, hbare.no_expiry] at hopen
      cases hopen.2
    | metrics t payload =>
      obtain ⟨-, n, hn, hlast⟩ := hphase
      exact hleased n hn rfl hlast
    | returned =>
      obtain ⟨-, n, hn, hlast⟩ := hphase
      exact hleased n hn rfl hlast
    | raised =>
      obtain ⟨-, n, hn, hlast⟩ := hphase
      exact hleased n hn rfl hlast
    | _ =>
      obtain ⟨-, n, hn, hlast⟩ := Db.inPhase_closed hphase
      exact hleased n hn rfl hlast
  · exact hnone hn hq

end Crash

/-! ## Calls that raise -/

section Raising

variable {cfg : Config} {s s' : Sys} {p svc : Nat} {j : String} {refused : Nat → Prop} {acts : List Act}

/-- The call ends where its probe raises. -/
theorem ProbeRaises.ends {pid : Nat} {a : Act} (h : ProbeRaises p s pid a) {r : RecoverPc}
    (hp : s.threads p = .recover svc r) (hstep : Sys.step cfg s a = some s') :
    s'.threads p = .recover svc .raised ∧ s'.db = s.db := by
  obtain ⟨r', hp', hchange⟩ := scan_change hp hstep
  have hne : r ≠ .raised := by
    rintro rfl
    cases h with
    | denied _ _ _ _ _ _ _ hat => rw [hp] at hat; cases hat
    | unidentified _ _ _ _ _ _ _ hat => rw [hp] at hat; cases hat
  obtain rfl := (scan_raises hp hchange hne).2 ⟨pid, h⟩
  refine ⟨hp', ?_⟩
  rcases Sys.step_db hstep with hdb | ⟨i, fresh, locked, op, rfl, -⟩
  · exact hdb
  · cases h

/-- A scan asks `ps` about a process that it has found. -/
theorem RecoverPc.Advance.inspects {owner : Option ExecutionOwner} {live : String → Bool} {clock : Time}
    {observed : Nat → Option (Nat × Option String)} {fresh : String} {r r' : RecoverPc} {sc : Scan} {run : Snapshot}
    {row : AttemptRow} {t : String} {pid : Nat} (h : RecoverPc.Advance owner live clock observed fresh r r')
    (hr : r' = .inspect sc run row t pid) : (observed pid).isSome = true := by
  cases h with
  | there _ _ _ _ _ hfound => cases hr; exact hfound
  | visited =>
    unfold RecoverPc.visit at hr
    split at hr
    · cases hr
    · split at hr
      · cases hr
      · split at hr
        · cases hr
        · cases hr
  | _ => cases hr

end Raising

end EdaLab
