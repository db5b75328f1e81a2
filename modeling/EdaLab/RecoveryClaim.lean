import EdaLab.Finalizers
import Mathlib.Tactic.Linarith
/-!
# RecoveryClaim — a recovery claim and a completion exclude each other

A recovery claim is a token and an expiry on the Attempt row, beside the lease's.  While it is held (`HeldBy`) the guards
of a transition, of a completion and of another claim are false, whatever the lease says; once another recoverer has
claimed the Attempt, the old token is on no row (`LostBy`), and a fresh token per claim keeps it so.
-/
namespace EdaLab

open Relational

/-! ## Runs under the clock -/

theorem tick_clock {b : Backend} {s s' : Clocked} {c : Call} (h : Call.tick b s c = some s') :
    s.clock ≤ c.now ∧ s'.clock = c.now ∧ s'.db = c.op.after b c.now s.db := by
  unfold Call.tick at h
  split at h
  · rename_i hle
    cases h
    exact ⟨hle, rfl, rfl⟩
  · cases h

/-! ## What a call does to the recovery columns -/

/-- Only a claim and a release write the recovery columns. -/
theorem attemptUpdate_recovery {now : Time} {db : Db} {op : StoreOp} {u : AttemptUpdate}
    (h : op.attemptUpdate now db = some u) :
    (∃ j n owner token ttl, op = .claimRecovery j n owner token ttl) ∨
    (∃ j n token, op = .releaseRecoveryClaim j n token) ∨
    ∀ a, (u.write a).recoveryToken = a.recoveryToken ∧ (u.write a).recoveryExpiresAt = a.recoveryExpiresAt := by
  cases op with
  | claimRecovery j n owner token ttl => exact Or.inl ⟨j, n, owner, token, ttl, rfl⟩
  | releaseRecoveryClaim j n token => exact Or.inr (Or.inl ⟨j, n, token, rfl⟩)
  | acquireAttemptLease => cases h; exact Or.inr (Or.inr (fun _ => ⟨rfl, rfl⟩))
  | heartbeatAttempt => cases h; exact Or.inr (Or.inr (fun _ => ⟨rfl, rfl⟩))
  | recordAttemptProcess => cases h; exact Or.inr (Or.inr (fun _ => ⟨rfl, rfl⟩))
  | recordAttemptExecution => cases h; exact Or.inr (Or.inr (fun _ => ⟨rfl, rfl⟩))
  | transitionAttempt => cases h; exact Or.inr (Or.inr (fun _ => ⟨rfl, rfl⟩))
  | finalizeRecovery => cases h; exact Or.inr (Or.inr (fun _ => ⟨rfl, rfl⟩))
  | finalizeAttemptAndRun => cases h; exact Or.inr (Or.inr (fun _ => ⟨rfl, rfl⟩))
  | _ => cases h

/-- Only a transition and the finalizers write the status of a `RUNNING` Attempt. -/
theorem attemptUpdate_ends {now : Time} {db : Db} {op : StoreOp} {u : AttemptUpdate} {a : AttemptRow}
    (h : op.attemptUpdate now db = some u) (hst : (u.write a).status ≠ a.status) :
    (∃ j n token st et e ap rc, op = .transitionAttempt j n token st et e ap rc) ∨
    (∃ j n token et e, op = .finalizeRecovery j n token et e) ∨ (∃ c, op = .finalizeAttemptAndRun c) := by
  cases op with
  | transitionAttempt j n token st et e ap rc => exact Or.inl ⟨j, n, token, st, et, e, ap, rc, rfl⟩
  | finalizeRecovery j n token et e => exact Or.inr (Or.inl ⟨j, n, token, et, e, rfl⟩)
  | finalizeAttemptAndRun c => exact Or.inr (Or.inr ⟨c, rfl⟩)
  | claimRecovery => cases h; exact absurd rfl hst
  | releaseRecoveryClaim => cases h; exact absurd rfl hst
  | acquireAttemptLease => cases h; exact absurd rfl hst
  | heartbeatAttempt => cases h; exact absurd rfl hst
  | recordAttemptProcess => cases h; exact absurd rfl hst
  | recordAttemptExecution => cases h; exact absurd rfl hst
  | _ => cases h

/-- A call on the Attempt that a claim excludes. -/
def StoreOp.excludedBy (k : String × Nat) : StoreOp → Prop
  | .transitionAttempt j n _ _ _ _ _ _ => (j, n) = k
  | .finalizeAttemptAndRun c           => (c.jobId, c.attemptNo) = k
  | .claimRecovery j n _ _ _           => (j, n) = k
  | _                                  => False

/-- The calls the claim's exclusion is about: the Attempt is not recorded again, and no claim on it reuses the token. -/
def StoreOp.respects (k : String × Nat) (token : String) : StoreOp → Prop
  | .recordAttempt j n _ _ _ _ _   => (j, n) ≠ k
  | .claimRecovery j n _ token' _  => (j, n) = k → token' ≠ token
  | _                              => True

section Claim

variable {b : Backend} {k : String × Nat} {token : String} {until_ : Time}

/-- The claim stands on the row. -/
def HeldBy (k : String × Nat) (token : String) (until_ : Time) (db : Db) : Prop :=
  ∃ a, db.attempts.get k = some a ∧ a.recoveryToken = some token ∧ a.recoveryExpiresAt = some until_

/-- The token is not on the row. -/
def LostBy (k : String × Nat) (token : String) (db : Db) : Prop :=
  ∀ a, db.attempts.get k = some a → a.recoveryToken ≠ some token

theorem recoveryFree_of_held {a : AttemptRow} {now : Time} (ht : a.recoveryToken = some token)
    (he : a.recoveryExpiresAt = some until_) (hnow : now ≤ until_) : a.recoveryFree now = false := by
  simp [AttemptRow.recoveryFree, ht, he, hnow]

/-- **Under a claim the guards of a transition, of a completion and of another claim are false.** -/
theorem excluded_guard {now : Time} {db : Db} {op : StoreOp} {u : AttemptUpdate} {a : AttemptRow}
    (hop : op.attemptUpdate now db = some u) (hex : op.excludedBy k) (hfree : a.recoveryFree now = false) :
    u.key = k ∧ u.guard a = false := by
  cases op with
  | transitionAttempt j n token st et e ap rc =>
    cases hop
    exact ⟨hex, by simp [Store.transitionAttempt, hfree]⟩
  | finalizeAttemptAndRun c =>
    cases hop
    exact ⟨hex, by simp [Store.completeAttempt, hfree]⟩
  | claimRecovery j n owner token ttl =>
    cases hop
    exact ⟨hex, by simp [Store.claimRecovery, hfree]⟩
  | _ => exact hex.elim

theorem excluded_statement (now : Time) (db : Db) {op : StoreOp} (hex : op.excludedBy k) :
    ∃ u, op.attemptUpdate now db = some u := by
  cases op with
  | transitionAttempt => exact ⟨_, rfl⟩
  | finalizeAttemptAndRun => exact ⟨_, rfl⟩
  | claimRecovery => exact ⟨_, rfl⟩
  | _ => exact hex.elim

/-- **What the claim refuses.** -/
theorem held_refuses (b : Backend) {now : Time} {db : Db} {op : StoreOp} (hheld : HeldBy k token until_ db)
    (hnow : now ≤ until_) (hex : op.excludedBy k) : op.reply b now db = .flag false := by
  obtain ⟨u, hu⟩ := excluded_statement now db hex
  obtain ⟨a, ha, ht, he⟩ := hheld
  obtain ⟨hk, hg⟩ := excluded_guard hu hex (recoveryFree_of_held ht he hnow)
  obtain ⟨ok, hreply, henabled⟩ := attemptUpdate_reply b hu
  cases ok with
  | false => exact hreply
  | true =>
    obtain ⟨a', ha', hg'⟩ := henabled rfl
    rw [hk, ha] at ha'
    cases ha'
    rw [hg] at hg'
    cases hg'

/-- **Only the claimant's recovery ends the Attempt.** -/
theorem held_ends {now : Time} {db : Db} {op : StoreOp} (hheld : HeldBy k token until_ db) (hnow : now ≤ until_)
    (hop : op.respects k token) {a a' : AttemptRow} (ha : db.attempts.get k = some a) (hrun : a.status = .running)
    (ha' : (op.after b now db).attempts.get k = some a') (hend : a'.status ≠ .running) :
    ∃ et e, op = .finalizeRecovery k.1 k.2 token et e := by
  obtain ⟨x, hx, ht, he⟩ := hheld
  rw [ha] at hx
  cases hx
  have hfree := recoveryFree_of_held ht he hnow
  cases attempts_after b now db op k with
  | same h =>
    rw [h, ha] at ha'
    cases ha'
    exact absurd hrun hend
  | recorded st et e ap rc is_op =>
    subst is_op
    exact absurd rfl hop
  | renewed s ttl x is_op hx hg hget =>
    rw [ha] at hx
    cases hx
    rw [hget] at ha'
    cases ha'
    exact absurd hrun hend
  | updated u x is_op hk hx hg hget =>
    rw [ha] at hx
    cases hx
    rw [hget] at ha'
    cases ha'
    have hne : (u.write a).status ≠ a.status := by
      rw [hrun]
      exact hend
    rcases attemptUpdate_ends is_op hne with ⟨j, n, tok, st, et, e, ap, rc, rfl⟩ | ⟨j, n, tok, et, e, rfl⟩ | ⟨c, rfl⟩
    · have hex : (StoreOp.transitionAttempt j n tok st et e ap rc).excludedBy k := by
        cases is_op
        exact hk
      rw [(excluded_guard is_op hex hfree).2] at hg
      cases hg
    · cases is_op
      simp only [Store.abandonAttempt, Bool.and_eq_true, AttemptRow.holdsRecovery, decide_eq_true_eq, ht,
        Option.some.injEq] at hg
      obtain ⟨-, rfl⟩ := hg
      subst hk
      exact ⟨et, e, rfl⟩
    · have hex : (StoreOp.finalizeAttemptAndRun c).excludedBy k := by
        cases is_op
        exact hk
      rw [(excluded_guard is_op hex hfree).2] at hg
      cases hg

/-- The claimant gives the claim back. -/
def ReleasedAt (b : Backend) (k : String × Nat) (token : String) (s : Clocked) (c : Call) : Prop :=
  c.op = .releaseRecoveryClaim k.1 k.2 token ∧ c.op.reply b c.now s.db = .flag true

/-- **The claim stands until it is released or has expired.** -/
theorem held_step {s : Clocked} {c : Call} (hheld : HeldBy k token until_ s.db) (hnow : c.now ≤ until_)
    (hop : c.op.respects k token) (hrel : ¬ ReleasedAt b k token s c) :
    HeldBy k token until_ (c.op.after b c.now s.db) := by
  have hheld' := hheld
  obtain ⟨a, ha, ht, he⟩ := hheld'
  cases attempts_after b c.now s.db c.op k with
  | same h => exact ⟨a, by rw [h, ha], ht, he⟩
  | recorded st et e ap rc is_op =>
    rw [is_op] at hop
    exact absurd rfl hop
  | renewed x ttl a' _ ha' _ hget =>
    rw [ha] at ha'
    cases ha'
    exact ⟨_, hget, ht, he⟩
  | updated u a' is_op hk ha' hg hget hreply =>
    rw [ha] at ha'
    cases ha'
    rcases attemptUpdate_recovery is_op with ⟨j, n, owner, tok, ttl, hc⟩ | ⟨j, n, tok, hc⟩ | hkeep
    · have hex : c.op.excludedBy k := by
        rw [hc] at is_op ⊢
        cases is_op
        exact hk
      rw [(excluded_guard is_op hex (recoveryFree_of_held ht he hnow)).2] at hg
      cases hg
    · -- a release needs the token, so it is the claimant's, and it was accepted
      rw [hc] at is_op
      cases is_op
      simp only [Store.releaseRecoveryClaim, Bool.and_eq_true, AttemptRow.holdsRecovery, decide_eq_true_eq, ht,
        Option.some.injEq] at hg
      obtain ⟨-, rfl⟩ := hg
      subst hk
      rcases hreply with hreply | ⟨-, -, f, hf, -⟩
      · exact absurd ⟨hc, hreply⟩ hrel
      · rw [hc] at hf
        cases hf
    · exact ⟨_, hget, (hkeep a).1.trans ht, (hkeep a).2.trans he⟩

theorem held_run {cs : List Call} {s s' : Clocked} (hheld : HeldBy k token until_ s.db)
    (hops : Trace.Every (Call.tick b) (fun s c => c.op.respects k token ∧ ¬ ReleasedAt b k token s c) s cs)
    (h : Trace.run (Call.tick b) s cs = some s') (hnow : s'.clock ≤ until_) : HeldBy k token until_ s'.db := by
  refine Trace.run_preserves_of_every (P := fun s => s.clock ≤ until_ → HeldBy k token until_ s.db) ?_
    (fun _ => hheld) hops h hnow
  rintro m c m' hm ⟨hop, hrel⟩ hstep hle
  obtain ⟨hclock, hnow', hdb⟩ := tick_clock hstep
  rw [hnow'] at hle
  rw [hdb]
  exact held_step (hm (by linarith)) hle hop hrel

/-- **A token that has left the row does not come back.** -/
theorem lost_step {s : Clocked} {c : Call} (hlost : LostBy k token s.db) (hop : c.op.respects k token) :
    LostBy k token (c.op.after b c.now s.db) := by
  intro a' ha'
  cases attempts_after b c.now s.db c.op k with
  | same h =>
    rw [h] at ha'
    exact hlost a' ha'
  | recorded st et e ap rc is_op =>
    rw [is_op] at hop
    exact absurd rfl hop
  | renewed x ttl a _ ha _ hget =>
    rw [hget] at ha'
    cases ha'
    exact hlost a ha
  | updated u a is_op hk ha hg hget =>
    rw [hget] at ha'
    cases ha'
    rcases attemptUpdate_recovery is_op with ⟨j, n, owner, tok, ttl, hc⟩ | ⟨j, n, tok, hc⟩ | hkeep
    · rw [hc] at is_op hop
      cases is_op
      have hne := hop hk
      simpa [Store.claimRecovery] using hne
    · rw [hc] at is_op
      cases is_op
      simp [Store.releaseRecoveryClaim]
    · rw [(hkeep a).1]
      exact hlost a ha

theorem lost_run {cs : List Call} {s s' : Clocked} (hlost : LostBy k token s.db)
    (hops : Trace.Every (Call.tick b) (fun _ c => c.op.respects k token) s cs)
    (h : Trace.run (Call.tick b) s cs = some s') : LostBy k token s'.db := by
  refine Trace.run_preserves_of_every (P := fun s => LostBy k token s.db) ?_ hlost hops h
  intro m c m' hm hop hstep
  rw [(tick_clock hstep).2.2]
  exact lost_step hm hop

/-- The calls of a recoverer that holds the token. -/
def StoreOp.usesClaim (k : String × Nat) (token : String) : StoreOp → Prop
  | .finalizeRecovery j n token' _ _  => (j, n) = k ∧ token' = token
  | .releaseRecoveryClaim j n token'  => (j, n) = k ∧ token' = token
  | _                                 => False

/-- **Without the token on the row its recoverer is refused.** -/
theorem lost_refuses (b : Backend) (now : Time) {db : Db} {op : StoreOp} (hlost : LostBy k token db)
    (hop : op.usesClaim k token) : op.reply b now db = .flag false := by
  have hguard : ∃ u, op.attemptUpdate now db = some u ∧ ¬ u.Enabled db := by
    cases op with
    | finalizeRecovery j n tok et e =>
      obtain ⟨rfl, rfl⟩ := hop
      refine ⟨_, rfl, ?_⟩
      rintro ⟨a, ha, hg⟩
      simp only [Store.abandonAttempt, Bool.and_eq_true, AttemptRow.holdsRecovery, decide_eq_true_eq] at hg
      exact hlost a ha hg.2
    | releaseRecoveryClaim j n tok =>
      obtain ⟨rfl, rfl⟩ := hop
      refine ⟨_, rfl, ?_⟩
      rintro ⟨a, ha, hg⟩
      simp only [Store.releaseRecoveryClaim, Bool.and_eq_true, AttemptRow.holdsRecovery, decide_eq_true_eq] at hg
      exact hlost a ha hg.2
    | _ => exact hop.elim
  obtain ⟨u, hu, hn⟩ := hguard
  obtain ⟨ok, hreply, henabled⟩ := attemptUpdate_reply b hu
  cases ok with
  | false => exact hreply
  | true => exact absurd (henabled rfl) hn

/-- An accepted claim stands on the row. -/
theorem held_of_claimed {now ttl : Time} {db : Db} {j owner : String} {n : Nat}
    (h : (StoreOp.claimRecovery j n owner token ttl).reply b now db = .flag true) :
    HeldBy (j, n) token (now + ttl) ((StoreOp.claimRecovery j n owner token ttl).after b now db) := by
  obtain ⟨ok, hreply, henabled⟩ := attemptUpdate_reply b
    (rfl : (StoreOp.claimRecovery j n owner token ttl).attemptUpdate now db = some _)
  rw [hreply] at h
  cases h
  obtain ⟨a, ha, hg⟩ := henabled rfl
  exact ⟨_, (Store.claimRecovery now j n owner token ttl).get_exec_key db ha hg, rfl, rfl⟩

/-- A claim takes the row from every other token. -/
theorem lost_of_claimed {now ttl : Time} {db : Db} {j owner tok : String} {n : Nat}
    (h : (StoreOp.claimRecovery j n owner tok ttl).reply b now db = .flag true) (hne : tok ≠ token) :
    LostBy (j, n) token ((StoreOp.claimRecovery j n owner tok ttl).after b now db) := by
  obtain ⟨a, ha, ht, -⟩ := held_of_claimed h
  intro a' ha'
  rw [ha] at ha'
  cases ha'
  rw [ht]
  simpa using hne

end Claim

/-- **Recovery claim and completion exclude each other.**  From an accepted claim until its release is accepted or the clock
has passed its expiry, every transition, completion or claim on the Attempt is refused and only the claimant's
`finalize_recovery` can end it; once another recoverer has claimed the Attempt, the old token is refused. -/
theorem recovery_claim_excludes (b : Backend) (j : String) (n : Nat) (owner token : String) (t ttl : Time) (db : Db)
    (cs : List Call) (hclaim : (StoreOp.claimRecovery j n owner token ttl).reply b t db = .flag true)
    (hfresh : ∀ c ∈ cs, c.op.respects (j, n) token) :
    (∀ pre c post m, cs = pre ++ c :: post →
      Trace.run (Call.tick b) ⟨t, (StoreOp.claimRecovery j n owner token ttl).after b t db⟩ pre = some m →
      Trace.Every (Call.tick b) (fun s c => ¬ ReleasedAt b (j, n) token s c)
        ⟨t, (StoreOp.claimRecovery j n owner token ttl).after b t db⟩ pre →
      m.clock ≤ c.now → c.now ≤ t + ttl →
      (c.op.excludedBy (j, n) → c.op.reply b c.now m.db = .flag false) ∧
      (∀ a a', m.db.attempts.get (j, n) = some a → a.status = .running →
        (c.op.after b c.now m.db).attempts.get (j, n) = some a' → a'.status ≠ .running →
        ∃ et e, c.op = .finalizeRecovery j n token et e)) ∧
    (∀ pre c mid d post m m' owner' token' ttl', cs = pre ++ c :: (mid ++ d :: post) →
      Trace.run (Call.tick b) ⟨t, (StoreOp.claimRecovery j n owner token ttl).after b t db⟩ pre = some m →
      c.op = .claimRecovery j n owner' token' ttl' → c.op.reply b c.now m.db = .flag true →
      Trace.run (Call.tick b) m (c :: mid) = some m' → d.op.usesClaim (j, n) token →
      d.op.reply b d.now m'.db = .flag false) := by
  have hheld := held_of_claimed hclaim
  refine ⟨?_, ?_⟩
  · rintro pre c post m rfl hm hrel hclock hnow
    have hops : Trace.Every (Call.tick b) (fun s c => c.op.respects (j, n) token ∧ ¬ ReleasedAt b (j, n) token s c)
        ⟨t, (StoreOp.claimRecovery j n owner token ttl).after b t db⟩ pre := by
      rw [Trace.every_iff_forall_split] at hrel ⊢
      intro p x q s hs hrun
      have hx : x ∈ pre ++ c :: post := by
        rw [hs]
        simp
      exact ⟨hfresh x hx, hrel p x q s hs hrun⟩
    have hat : HeldBy (j, n) token (t + ttl) m.db := held_run hheld hops hm (by linarith)
    have hc := hfresh c (by simp)
    exact ⟨held_refuses b hat hnow, fun a a' ha hrun ha' hend => held_ends hat hnow hc ha hrun ha' hend⟩
  · rintro pre c mid d post m m' owner' token' ttl' rfl - hc hreply hm' hd
    have hne : token' ≠ token := by
      have := hfresh c (by simp)
      rw [hc] at this
      exact this rfl
    obtain ⟨m₁, hstep, hmid⟩ := Trace.run_cons.1 hm'
    have hlost : LostBy (j, n) token m₁.db := by
      rw [(tick_clock hstep).2.2]
      rw [hc] at hreply ⊢
      exact lost_of_claimed hreply hne
    have hops : Trace.Every (Call.tick b) (fun _ c => c.op.respects (j, n) token) m₁ mid := by
      rw [Trace.every_iff_forall_split]
      intro p x q s hs _
      exact hfresh x (by simp [hs])
    exact lost_refuses b d.now (lost_run hlost hops hmid) hd

/-- The worker of `ownedDb` is late; a recoverer claims the Attempt, and the completion is refused. -/
theorem claimed_completion_refused :
    (StoreOp.finalizeAttemptAndRun ownedCompletion).reply .postgres 41
      ((StoreOp.claimRecovery "job" 1 "other" "recovery" 5).after .postgres 40 ownedDb) = .flag false := by
  have hclaim : (StoreOp.claimRecovery "job" 1 "other" "recovery" 5).reply .postgres 40 ownedDb = .flag true := by
    decide +kernel
  have hfresh : ∀ c ∈ [(⟨41, .finalizeAttemptAndRun ownedCompletion⟩ : Call)], c.op.respects ("job", 1) "recovery" := by
    intro c hc
    cases List.mem_singleton.1 hc
    trivial
  exact ((recovery_claim_excludes .postgres "job" 1 "other" "recovery" 40 5 ownedDb _ hclaim hfresh).1 [] _ [] _ rfl rfl
    trivial (by norm_num) (by norm_num)).1 rfl

end EdaLab
