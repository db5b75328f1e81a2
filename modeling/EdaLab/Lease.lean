import EdaLab.HostSession
import EdaLab.RecoveryClaim
/-!
# Lease — when an expired lease stays expired

`heartbeat_attempt` asks for the token and for a lease that has not expired; `heartbeat_queued_execution_attempts` asks for
neither and not for the absence of a recovery claim.  So a lease that has expired stays so in exactly the runs where the
second finds no such Attempt and no lease is taken anew under a standing claim and then renewed (`LeaseKept`).
-/
namespace EdaLab

open Relational

/-- A recovery claim that has not expired. -/
def AttemptRow.recoveryActive (a : AttemptRow) (now : Time) : Bool :=
  a.recoveryToken.isSome && a.recoveryExpiresAt.any (fun e => decide (now ≤ e))

def StoreOp.isHeartbeat : StoreOp → Bool
  | .heartbeatAttempt _ _ _ _              => true
  | .heartbeatQueuedExecutionAttempts _ _  => true
  | _                                      => false

/-- The lease term a heartbeat gives the row `a` of the Attempt `k`, where its guard matches it. -/
def StoreOp.renews (now : Time) (db : Db) (k : String × Nat) (a : AttemptRow) : StoreOp → Option Time
  | .heartbeatAttempt j n token ttl =>
    if (j, n) = k ∧ (Store.heartbeatAttempt now j n token ttl).guard a = true then some ttl else none
  | .heartbeatQueuedExecutionAttempts s ttl => if Store.isQueuedDelivery db now s a = true then some ttl else none
  | _ => none

/-- A heartbeat leaves the expiry of an Attempt that has expired or is claimed where it is, or behind the clock; a lease
starts by an acquisition with a token of its own. -/
structure Irrevocable (b : Backend) (k : String × Nat) (s : Clocked) (c : Call) : Prop where
  heartbeat : ∀ a a', s.db.attempts.get k = some a → a.status = .running → c.op.isHeartbeat = true →
    (a.leaseExpired c.now = true ∨ a.recoveryActive c.now = true) →
    (c.op.after b c.now s.db).attempts.get k = some a' → a'.leaseLive c.now = true → a'.leaseExpiresAt = a.leaseExpiresAt
  start : ∀ a a', s.db.attempts.get k = some a → a.status = .running → a.leaseLive c.now = false →
    (c.op.after b c.now s.db).attempts.get k = some a' → a'.leaseLive c.now = true →
    ∃ owner token ttl, c.op = .acquireAttemptLease k.1 k.2 owner token ttl ∧ a.leaseToken ≠ some token

/-- No heartbeat matches the Attempt while its lease is not live or a recovery claim on it is, but to set an expiry behind
the clock or the one it has; and the Attempt is not leased again under the token it had. -/
structure LeaseKept (k : String × Nat) (s : Clocked) (c : Call) : Prop where
  renewal : ∀ a ttl, s.db.attempts.get k = some a → c.op.renews c.now s.db k a = some ttl →
    (a.leaseLive c.now = false ∨ a.recoveryActive c.now = true) → ttl < 0 ∨ a.leaseExpiresAt = some (c.now + ttl)
  acquisition : ∀ a owner token ttl, s.db.attempts.get k = some a → a.status = .running → a.leaseLive c.now = false →
    c.op = .acquireAttemptLease k.1 k.2 owner token ttl → 0 ≤ ttl → a.leaseToken ≠ some token

theorem leaseLive_iff {a : AttemptRow} {now : Time} : a.leaseLive now = true ↔ ∃ e, a.leaseExpiresAt = some e ∧ now ≤ e := by
  unfold AttemptRow.leaseLive
  cases a.leaseExpiresAt with
  | none => simp
  | some e => simp

theorem leaseExpired_iff {a : AttemptRow} {now : Time} :
    a.leaseExpired now = true ↔ ∃ e, a.leaseExpiresAt = some e ∧ e < now := by
  unfold AttemptRow.leaseExpired
  cases a.leaseExpiresAt with
  | none => simp
  | some e => simp

theorem not_leaseLive_of_expired {a : AttemptRow} {now : Time} (h : a.leaseExpired now = true) :
    a.leaseLive now = false := by
  obtain ⟨e, he, hlt⟩ := leaseExpired_iff.1 h
  rw [Bool.eq_false_iff]
  intro hl
  obtain ⟨e', he', hle⟩ := leaseLive_iff.1 hl
  rw [he] at he'
  cases he'
  linarith

/-! ## What a call does to the lease columns -/

/-- A renewal writes the row. -/
theorem renews_after {b : Backend} {now : Time} {db : Db} {k : String × Nat} {op : StoreOp} {a : AttemptRow} {ttl : Time}
    (ha : db.attempts.get k = some a) (h : op.renews now db k a = some ttl) :
    op.isHeartbeat = true ∧ a.status = .running ∧ (op.after b now db).attempts.get k = some (a.renew now ttl) := by
  cases op with
  | heartbeatAttempt j n token ttl' =>
    simp only [StoreOp.renews] at h
    split at h
    · rename_i hm
      cases h
      obtain ⟨rfl, hg⟩ := hm
      refine ⟨rfl, ?_, (Store.heartbeatAttempt now j n token ttl).get_exec_key db ha hg⟩
      exact attemptUpdate_running (rfl : (StoreOp.heartbeatAttempt j n token ttl).attemptUpdate now db = some _) hg
    · cases h
  | heartbeatQueuedExecutionAttempts s ttl' =>
    simp only [StoreOp.renews] at h
    split at h
    · rename_i hm
      cases h
      have hget := Store.heartbeatQueuedExecutionAttempts_get db now s ttl k
      rw [ha, Option.map_some, if_pos hm] at hget
      have hrun := hm
      simp only [Store.isQueuedDelivery, Bool.and_eq_true] at hrun
      exact ⟨rfl, by simpa [AttemptRow.isRunning] using hrun.1.1.1, hget⟩
    · cases h
  | _ => cases h

/-- **What a call can do to the lease of an Attempt**: nothing, a renewal, or an acquisition of a lease that is not live. -/
theorem lease_after (b : Backend) (now : Time) (db : Db) (op : StoreOp) {k : String × Nat} {a a' : AttemptRow}
    (ha : db.attempts.get k = some a) (ha' : (op.after b now db).attempts.get k = some a') :
    (a'.leaseExpiresAt = a.leaseExpiresAt ∧ a'.leaseToken = a.leaseToken) ∨
    (∃ ttl, op.renews now db k a = some ttl ∧ a' = a.renew now ttl) ∨
    (∃ owner token ttl, op = .acquireAttemptLease k.1 k.2 owner token ttl ∧ a.status = .running ∧
      a.leaseLive now = false ∧ a'.leaseExpiresAt = some (now + ttl) ∧ op.reply b now db = .flag true) := by
  cases attempts_after b now db op k with
  | same h =>
    rw [h, ha] at ha'
    cases ha'
    exact Or.inl ⟨rfl, rfl⟩
  | recorded st et e ap rc is_op _ hget =>
    rw [hget, ha] at ha'
    cases ha'
    exact Or.inl ⟨rfl, rfl⟩
  | renewed s ttl x is_op hx hg hget =>
    rw [ha] at hx
    cases hx
    rw [hget] at ha'
    cases ha'
    subst is_op
    exact Or.inr (Or.inl ⟨ttl, by simp [StoreOp.renews, hg], rfl⟩)
  | updated u x is_op hk hx hg hget hreply =>
    rw [ha] at hx
    cases hx
    rw [hget] at ha'
    cases ha'
    have hst := attemptUpdate_running is_op hg
    cases op with
    | heartbeatAttempt j n token ttl =>
      cases is_op
      exact Or.inr (Or.inl ⟨ttl, if_pos ⟨hk, hg⟩, rfl⟩)
    | acquireAttemptLease j n owner token ttl =>
      cases is_op
      subst hk
      refine Or.inr (Or.inr ⟨owner, token, ttl, rfl, hst, ?_, rfl, ?_⟩)
      · simp only [Store.acquireAttemptLease, Bool.and_eq_true, Bool.or_eq_true] at hg
        rcases hg.2 with hnull | hexp
        · simp [AttemptRow.leaseLive, Option.isNone_iff_eq_none.1 hnull]
        · exact not_leaseLive_of_expired hexp
      · rcases hreply with h | ⟨-, -, f, hf, -⟩
        · exact h
        · cases hf
    | recordAttemptProcess => cases is_op; exact Or.inl ⟨rfl, rfl⟩
    | recordAttemptExecution => cases is_op; exact Or.inl ⟨rfl, rfl⟩
    | transitionAttempt => cases is_op; exact Or.inl ⟨rfl, rfl⟩
    | claimRecovery => cases is_op; exact Or.inl ⟨rfl, rfl⟩
    | releaseRecoveryClaim => cases is_op; exact Or.inl ⟨rfl, rfl⟩
    | finalizeRecovery => cases is_op; exact Or.inl ⟨rfl, rfl⟩
    | finalizeAttemptAndRun => cases is_op; exact Or.inl ⟨rfl, rfl⟩
    | _ => cases is_op

theorem renew_leaseLive {a : AttemptRow} {now ttl : Time} : (a.renew now ttl).leaseLive now = true ↔ 0 ≤ ttl := by
  rw [leaseLive_iff]
  constructor
  · rintro ⟨e, he, hle⟩
    cases he
    linarith
  · intro h
    exact ⟨now + ttl, rfl, by linarith⟩

/-- **One step**: the lease is irrevocable exactly where it is kept. -/
theorem irrevocable_iff_leaseKept (b : Backend) (k : String × Nat) (s : Clocked) (c : Call) :
    Irrevocable b k s c ↔ LeaseKept k s c := by
  constructor
  · intro h
    refine ⟨?_, ?_⟩
    · intro a ttl ha hren hbad
      obtain ⟨hbeat, hrun, hafter⟩ := renews_after (b := b) ha hren
      by_cases hneg : ttl < 0
      · exact Or.inl hneg
      have hlive : (a.renew c.now ttl).leaseLive c.now = true := renew_leaseLive.2 (by linarith)
      by_cases hl : a.leaseLive c.now = false
      · obtain ⟨owner, token, ttl', hop, -⟩ := h.start a _ ha hrun hl hafter hlive
        rw [hop] at hbeat
        cases hbeat
      · rcases hbad with hl' | hact
        · exact absurd hl' hl
        · have hsame := h.heartbeat a _ ha hrun hbeat (Or.inr hact) hafter hlive
          exact Or.inr hsame.symm
    · intro a owner token ttl ha hrun hl hop httl
      have hkey : (Store.acquireAttemptLease c.now k.1 k.2 owner token ttl).key = k := rfl
      have hguard : (Store.acquireAttemptLease c.now k.1 k.2 owner token ttl).guard a = true := by
        have hr : a.isRunning = true := by simp [AttemptRow.isRunning, hrun]
        have hfree : (a.leaseExpiresAt.isNone || a.leaseExpired c.now) = true := by
          cases he : a.leaseExpiresAt with
          | none => rfl
          | some e =>
            simp only [AttemptRow.leaseLive, he, Option.any_some, decide_eq_false_iff_not, not_le] at hl
            simp [AttemptRow.leaseExpired, he, hl]
        simp only [Store.acquireAttemptLease, hr, hfree, Bool.and_self]
      have hafter := (Store.acquireAttemptLease c.now k.1 k.2 owner token ttl).get_exec_key s.db ha hguard
      obtain ⟨owner', token', ttl', hop', hne⟩ := h.start a _ ha hrun hl (by rw [hop]; exact hafter)
        (leaseLive_iff.2 ⟨c.now + ttl, rfl, by linarith⟩)
      rw [hop] at hop'
      cases hop'
      exact hne
  · intro h
    refine ⟨?_, ?_⟩
    · intro a a' ha hrun hbeat hbad ha' hlive
      rcases lease_after b c.now s.db c.op ha ha' with ⟨hsame, -⟩ | ⟨ttl, hren, rfl⟩ | ⟨owner, token, ttl, hop, -⟩
      · exact hsame
      · have hbad' : a.leaseLive c.now = false ∨ a.recoveryActive c.now = true :=
          hbad.imp not_leaseLive_of_expired id
        rcases h.renewal a ttl ha hren hbad' with hneg | hsame
        · have := renew_leaseLive.1 hlive
          linarith
        · exact hsame.symm
      · rw [hop] at hbeat
        cases hbeat
    · intro a a' ha hrun hl ha' hlive
      rcases lease_after b c.now s.db c.op ha ha' with ⟨hsame, -⟩ | ⟨ttl, hren, rfl⟩ |
        ⟨owner, token, ttl, hop, -, -, hexp, -⟩
      · simp only [AttemptRow.leaseLive, hsame] at hl hlive
        rw [hl] at hlive
        cases hlive
      · have hpos := renew_leaseLive.1 hlive
        rcases h.renewal a ttl ha hren (Or.inl hl) with hneg | hsame
        · linarith
        · simp only [AttemptRow.leaseLive, hsame, Option.any_some, decide_eq_false_iff_not, not_le] at hl
          linarith
      · obtain ⟨e, he, hle⟩ := leaseLive_iff.1 hlive
        rw [hexp] at he
        cases he
        exact ⟨owner, token, ttl, hop, h.acquisition a owner token ttl ha hrun hl hop (by linarith)⟩

/-- An acquisition of the Attempt's lease is accepted. -/
def AcquiredAt (b : Backend) (k : String × Nat) (s : Clocked) (c : Call) : Prop :=
  (∃ owner token ttl, c.op = .acquireAttemptLease k.1 k.2 owner token ttl) ∧ c.op.reply b c.now s.db = .flag true

/-- The lease of the Attempt is behind the clock. -/
def ExpiredAt (k : String × Nat) (s : Clocked) : Prop :=
  ∃ a, s.db.attempts.get k = some a ∧ a.leaseExpired s.clock = true

/-- **An expired lease that is kept stays expired until it is acquired.** -/
theorem expired_step {b : Backend} {k : String × Nat} {s s' : Clocked} {c : Call} (hexp : ExpiredAt k s)
    (hkept : LeaseKept k s c) (hacq : ¬ AcquiredAt b k s c) (h : Call.tick b s c = some s') : ExpiredAt k s' := by
  obtain ⟨a, ha, hlt⟩ := hexp
  obtain ⟨hclock, hnow, hdb⟩ := tick_clock h
  obtain ⟨a', ha'⟩ := attempt_persists b c.now s.db c.op ha
  obtain ⟨e, he, hes⟩ := leaseExpired_iff.1 hlt
  have hl : a.leaseLive c.now = false := not_leaseLive_of_expired (leaseExpired_iff.2 ⟨e, he, by linarith⟩)
  refine ⟨a', by rw [hdb]; exact ha', ?_⟩
  rw [hnow]
  rcases lease_after b c.now s.db c.op ha ha' with ⟨hsame, -⟩ | ⟨ttl, hren, rfl⟩ | ⟨owner, token, ttl, hop, -, -, -, hrep⟩
  · exact leaseExpired_iff.2 ⟨e, by rw [hsame, he], by linarith⟩
  · refine leaseExpired_iff.2 ⟨c.now + ttl, rfl, ?_⟩
    rcases hkept.renewal a ttl ha hren (Or.inl hl) with hneg | hsame
    · linarith
    · rw [he] at hsame
      cases hsame
      linarith
  · exact absurd ⟨⟨owner, token, ttl, hop⟩, hrep⟩ hacq

/-- **Lease expiry is irrevocable for heartbeats in exactly the runs that keep the lease**, and there an expired lease is
expired in every state reached until an acquisition is accepted. -/
theorem lease_expiry_irrevocable_iff (b : Backend) (k : String × Nat) (s : Clocked) (cs : List Call) :
    (Trace.Every (Call.tick b) (Irrevocable b k) s cs ↔ Trace.Every (Call.tick b) (LeaseKept k) s cs) ∧
    (Trace.Every (Call.tick b) (LeaseKept k) s cs → ∀ s', ExpiredAt k s →
      Trace.Every (Call.tick b) (fun m c => ¬ AcquiredAt b k m c) s cs → Trace.run (Call.tick b) s cs = some s' →
      ExpiredAt k s') := by
  refine ⟨⟨?_, ?_⟩, ?_⟩
  · exact Trace.Every.mono (fun m c => (irrevocable_iff_leaseKept b k m c).1)
  · exact Trace.Every.mono (fun m c => (irrevocable_iff_leaseKept b k m c).2)
  · intro hkept s' hexp hacq hrun
    have hboth : Trace.Every (Call.tick b) (fun m c => LeaseKept k m c ∧ ¬ AcquiredAt b k m c) s cs := by
      rw [Trace.every_iff_forall_split] at hkept hacq ⊢
      intro pre c post m hs hm
      exact ⟨hkept pre c post m hs hm, hacq pre c post m hs hm⟩
    exact Trace.run_preserves_of_every (fun m c m' hm hc hstep => expired_step hm hc.1 hc.2 hstep) hexp hboth hrun

/-! ### A claim, then the heartbeat of a Host Agent that was paused -/

/-- The calls up to the recovery claim and the heartbeat of the session. -/
def pausedCalls : List Call :=
  ownedCalls ++
  [⟨2, .startHostSession firstSession 30⟩,
   ⟨2, .recordAttemptExecution "job" 1 "token" firstSession "execution"⟩,
   ⟨2, .enqueueExecutionRequest "execution" "job" 1 "host" ⟨strandedSpec, "token", firstSession⟩⟩,
   ⟨40, .claimRecovery "job" 1 "other" "recovery" 30⟩,
   ⟨41, .heartbeatHostSession "session-1" 30⟩]

def refreshCall : Call := ⟨41, .heartbeatQueuedExecutionAttempts "session-1" 30⟩

/-- **The refresh of the queued deliveries moves an expired and claimed lease from 32 to 71.** -/
theorem refreshCall_revives : ¬ Trace.Every (Call.tick .postgres) (Irrevocable .postgres ("job", 1)) ⟨0, Db.empty⟩
    (pausedCalls ++ [refreshCall]) := by
  intro h
  have hsome : (Trace.run (Call.tick .postgres) ⟨0, Db.empty⟩ pausedCalls).isSome = true := by decide +kernel
  obtain ⟨m, hm⟩ := Option.isSome_iff_exists.1 hsome
  have hbefore : (Trace.run (Call.tick .postgres) ⟨0, Db.empty⟩ pausedCalls).bind (fun m =>
      (m.db.attempts.get ("job", 1)).map (fun a => (a.status, a.leaseExpiresAt))) =
        some (.running, some 32) := by decide +kernel
  have hafter : (Trace.run (Call.tick .postgres) ⟨0, Db.empty⟩ pausedCalls).bind (fun m =>
      ((refreshCall.op.after .postgres 41 m.db).attempts.get ("job", 1)).map (fun a => a.leaseExpiresAt)) =
        some (some 71) := by decide +kernel
  rw [hm, Option.bind_some] at hbefore hafter
  obtain ⟨a, ha, hval⟩ := Option.map_eq_some_iff.1 hbefore
  obtain ⟨a', ha', hval'⟩ := Option.map_eq_some_iff.1 hafter
  obtain ⟨hst, hexp⟩ := Prod.mk.inj hval
  have hstep := Trace.every_iff_forall_split.1 h pausedCalls refreshCall [] m rfl hm
  have hexpired : a.leaseExpired refreshCall.now = true :=
    leaseExpired_iff.2 ⟨32, hexp, by simp only [refreshCall]; norm_num⟩
  have hlive : a'.leaseLive refreshCall.now = true :=
    leaseLive_iff.2 ⟨71, hval', by simp only [refreshCall]; norm_num⟩
  have hsame := hstep.heartbeat a a' ha hst rfl (Or.inl hexpired) ha' hlive
  rw [hexp, hval'] at hsame
  norm_num at hsame

end EdaLab
