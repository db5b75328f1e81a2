import EdaLab.Finalizers
/-!
# Completion — at most one completion of a Run is accepted

For the SQLite `Store`, whatever the parties, their tokens and their clocks: a Run that is `RUNNING` is closed by at most
one finalizer, the Run row is from then on what that call wrote, and an Attempt that has left `RUNNING` is frozen.  The
invariant is small because the fences are on the rows themselves: a finalizer asks for a `RUNNING` Run and leaves a closed
one, and every other call of the protocol leaves Run rows alone.
-/
namespace EdaLab

open Relational

/-- The calls of the completion protocol, as their callers make them: an Attempt is recorded `RUNNING` under a fresh number,
retried only through `RETRYABLE_FAILURE`, and completed with terminal states; the Run row has no unfenced writer. -/
def InProtocol (db : Db) (c : Call) : Prop :=
  match c.op with
  | .updateRun _ _                      => False
  | .recordAttempt j n st _ _ _ _       => st = .running ∧ db.attempts.get (j, n) = none
  | .transitionAttempt _ _ _ st _ _ _ _ => st = .retryableFailure
  | .finalizeAttemptAndRun c            => c.attemptStatus ≠ .running ∧ c.runStatus.isTerminal = true
  | _                                   => True

/-- The job a finalizer closes. -/
def StoreOp.closes : StoreOp → Option String
  | .finalizeRecovery j _ _ _ _ => some j
  | .finalizeAttemptAndRun c    => some c.jobId
  | _                           => none

theorem closes_eq (op : StoreOp) (now : Time) (db : Db) : op.closes = (op.finalizer now db).map (·.jobId) := by
  cases op <;> rfl

/-- The call is a finalizer for the job and returns `True`. -/
def Accepts (b : Backend) (j : String) (db : Db) (c : Call) : Prop :=
  c.op.closes = some j ∧ c.op.reply b c.now db = .flag true

instance (b : Backend) (j : String) (db : Db) (c : Call) : Decidable (Accepts b j db c) := by
  unfold Accepts
  exact inferInstance

/-- How many finalizers for the job a sequence of calls has accepted. -/
def acceptedFor (b : Backend) (j : String) : Db → List Call → Nat
  | _, []       => 0
  | db, c :: cs => (if Accepts b j db c then 1 else 0) + acceptedFor b j (c.op.after b c.now db) cs

/-- What an accepted finalizer found and left. -/
theorem accepts_spec {b : Backend} {j : String} {db : Db} {c : Call} (h : Accepts b j db c) : ∃ f r,
    c.op.finalizer c.now db = some f ∧ db.runs.get j = some r ∧ r.status = .running ∧
    (c.op.after b c.now db).runs.get j = some (f.fields.write c.now r) := by
  obtain ⟨hj, hreply⟩ := h
  rw [closes_eq c.op c.now db, Option.map_eq_some_iff] at hj
  obtain ⟨f, hf, rfl⟩ := hj
  cases finalizer_cases b hf with
  | accepted _ hr _ rest _ hafter =>
    obtain ⟨r, hr, hrun⟩ := hr
    refine ⟨f, r, hf, hr, hrun, ?_⟩
    have hget := Db.get_updateRuns (f.update.exec db).1 c.now f.jobId Store.runIsRunning f.fields f.jobId
    rw [AttemptUpdate.exec_runs, hr] at hget
    rw [hafter, hget]
    simp [Store.runIsRunning, hrun]
  | noAttempt _ h _ => rw [h] at hreply; cases hreply
  | noRun _ _ h _ => rw [h] at hreply; cases hreply

/-- The Run status a finalizer of the protocol writes is a terminal one. -/
theorem inProtocol_closes {db : Db} {c : Call} (hp : InProtocol db c) {f : Finalizer}
    (hf : c.op.finalizer c.now db = some f) (r : RunRow) : (f.fields.write c.now r).status.isTerminal = true := by
  obtain ⟨now, op⟩ := c
  cases op with
  | finalizeRecovery j n token et e => cases hf; rfl
  | finalizeAttemptAndRun c => cases hf; exact hp.2
  | _ => cases hf

/-! ## What one call preserves -/

/-- **A Run that is not `RUNNING` is left alone.** -/
theorem inProtocol_run {j : String} {db : Db} {c : Call} (hp : InProtocol db c) {r : RunRow}
    (hr : db.runs.get j = some r) (hst : r.status ≠ .running) :
    (c.op.after .sqlite c.now db).runs.get j = some r := by
  cases runs_after .sqlite c.now db c.op j with
  | same h => rw [h, hr]
  | created _ _ _ _ _ _ _ hn => rw [hn] at hr; cases hr
  | updated fields r' hop =>
    unfold InProtocol at hp
    rw [hop] at hp
    exact hp.elim
  | claimed _ _ _ hb => cases hb
  | closed f r' _ _ _ hr' hrun =>
    rw [hr] at hr'
    cases hr'
    exact absurd hrun hst

/-- A Run is left alone by a call that is not accepted as its finalizer. -/
theorem inProtocol_run_of_not_accepts {j : String} {db : Db} {c : Call} (hp : InProtocol db c) {r : RunRow}
    (hr : db.runs.get j = some r) (hn : ¬ Accepts .sqlite j db c) :
    (c.op.after .sqlite c.now db).runs.get j = some r := by
  cases runs_after .sqlite c.now db c.op j with
  | same h => rw [h, hr]
  | created _ _ _ _ _ _ _ hn => rw [hn] at hr; cases hr
  | updated fields r' hop =>
    unfold InProtocol at hp
    rw [hop] at hp
    exact hp.elim
  | claimed _ _ _ hb => cases hb
  | closed f r' hf hj _ _ _ _ hreply =>
    refine absurd ⟨?_, hreply⟩ hn
    rw [closes_eq c.op c.now db, hf, Option.map_some, hj]

/-- **An Attempt that has left `RUNNING` is left alone.** -/
theorem inProtocol_attempt {k : String × Nat} {db : Db} {c : Call} (hp : InProtocol db c) {a : AttemptRow}
    (ha : db.attempts.get k = some a) (hst : a.status ≠ .running) :
    (c.op.after .sqlite c.now db).attempts.get k = some a := by
  cases attempts_after .sqlite c.now db c.op k with
  | same h => rw [h, ha]
  | recorded st et e ap rc hop =>
    unfold InProtocol at hp
    rw [hop] at hp
    rw [hp.2] at ha
    cases ha
  | updated u a' hop hk ha' hg =>
    rw [ha] at ha'
    cases ha'
    exact absurd (attemptUpdate_running hop hg) hst
  | renewed s ttl a' hop ha' hg =>
    rw [ha] at ha'
    cases ha'
    simp only [Store.isQueuedDelivery, Bool.and_eq_true] at hg
    exact absurd (by simpa [AttemptRow.isRunning] using hg.1.1.1) hst

/-! ## What a run preserves -/

theorem runs_preserve_run {j : String} {r : RunRow} (hst : r.status ≠ .running) {cs : List Call} {db d : Db}
    (hr : db.runs.get j = some r) (hp : Trace.Every (Call.step .sqlite) InProtocol db cs)
    (h : Trace.run (Call.step .sqlite) db cs = some d) : d.runs.get j = some r := by
  refine Trace.run_preserves_of_every (P := fun d => d.runs.get j = some r) ?_ hr hp h
  intro s c s' hs hc hstep
  cases hstep
  exact inProtocol_run hc hs hst

theorem runs_preserve_attempt {k : String × Nat} {a : AttemptRow} (hst : a.status ≠ .running) {cs : List Call}
    {db d : Db} (ha : db.attempts.get k = some a) (hp : Trace.Every (Call.step .sqlite) InProtocol db cs)
    (h : Trace.run (Call.step .sqlite) db cs = some d) : d.attempts.get k = some a := by
  refine Trace.run_preserves_of_every (P := fun d => d.attempts.get k = some a) ?_ ha hp h
  intro s c s' hs hc hstep
  cases hstep
  exact inProtocol_attempt hc hs hst

/-- Nothing is accepted for a Run that is not `RUNNING`. -/
theorem acceptedFor_closed {j : String} : ∀ {cs : List Call} {db : Db} {r : RunRow}, db.runs.get j = some r →
    r.status ≠ .running → Trace.Every (Call.step .sqlite) InProtocol db cs → acceptedFor .sqlite j db cs = 0
  | [], _, _, _, _, _ => rfl
  | c :: cs, db, r, hr, hst, hp => by
    have hn : ¬ Accepts .sqlite j db c := by
      intro ha
      obtain ⟨f, r', -, hr', hrun, -⟩ := accepts_spec ha
      rw [hr] at hr'
      cases hr'
      exact hst hrun
    have hrest := acceptedFor_closed (inProtocol_run hp.1 hr hst) hst (hp.2 _ rfl)
    simp [acceptedFor, hn, hrest]

/-- At most one finalizer of a Run is accepted. -/
theorem acceptedFor_le_one {j : String} : ∀ {cs : List Call} {db : Db} {r : RunRow}, db.runs.get j = some r →
    Trace.Every (Call.step .sqlite) InProtocol db cs → acceptedFor .sqlite j db cs ≤ 1
  | [], _, _, _, _ => Nat.zero_le 1
  | c :: cs, db, r, hr, hp => by
    unfold acceptedFor
    by_cases ha : Accepts .sqlite j db c
    · obtain ⟨f, r', hf, -, -, hafter⟩ := accepts_spec ha
      have hterm := inProtocol_closes hp.1 hf r'
      have hst : (f.fields.write c.now r').status ≠ .running := by
        intro h
        rw [h] at hterm
        cases hterm
      have hrest := acceptedFor_closed hafter hst (hp.2 _ rfl)
      simp [ha, hrest]
    · have hrest := acceptedFor_le_one (inProtocol_run_of_not_accepts hp.1 hr ha) (hp.2 _ rfl)
      simpa [ha] using hrest

/-- **At most one completion of a Run is accepted; it is what the Run row holds ever after; an Attempt that has left
`RUNNING` is frozen; a refused finalizer changes nothing.** -/
theorem completion_accepted_once (j : String) (db d : Db) (cs : List Call) (hrun : db.runningRun j)
    (hp : Trace.Every (Call.step .sqlite) InProtocol db cs) (h : Trace.run (Call.step .sqlite) db cs = some d) :
    acceptedFor .sqlite j db cs ≤ 1 ∧
    (∀ pre c post m, cs = pre ++ c :: post → Trace.run (Call.step .sqlite) db pre = some m → Accepts .sqlite j m c →
      ∃ f r, c.op.finalizer c.now m = some f ∧ m.runs.get j = some r ∧
        d.runs.get j = some (f.fields.write c.now r) ∧ c.op.outcome.map (·.2) = some (f.fields.write c.now r).status) ∧
    (∀ pre post m k a, cs = pre ++ post → Trace.run (Call.step .sqlite) db pre = some m → m.attempts.get k = some a →
      a.status ≠ .running → d.attempts.get k = some a) ∧
    (∀ pre c post m, cs = pre ++ c :: post → Trace.run (Call.step .sqlite) db pre = some m → c.op.closes.isSome = true →
      c.op.reply .sqlite c.now m = .flag false → Call.step .sqlite m c = some m) := by
  obtain ⟨r₀, hr₀, -⟩ := hrun
  refine ⟨acceptedFor_le_one hr₀ hp, ?_, ?_, ?_⟩
  · rintro pre c post m rfl hm ha
    obtain ⟨m', hm', hpost⟩ := Trace.run_append.1 h
    rw [hm] at hm'
    cases hm'
    obtain ⟨n, hn, hpost⟩ := Trace.run_cons.1 hpost
    have hpm := (Trace.every_append.1 hp).2 m hm
    obtain ⟨f, r, hf, hr, -, hafter⟩ := accepts_spec ha
    have hterm := inProtocol_closes hpm.1 hf r
    have hst : (f.fields.write c.now r).status ≠ .running := by
      intro h
      rw [h] at hterm
      cases hterm
    cases hn
    exact ⟨f, r, hf, hr, runs_preserve_run hst hafter (hpm.2 _ rfl) hpost,
      by rw [outcome_of_finalizer hf (Store.newAttempt 0 "" 0 .running none none none none) r]; rfl⟩
  · rintro pre post m k a rfl hm ha hst
    obtain ⟨m', hm', hpost⟩ := Trace.run_append.1 h
    rw [hm] at hm'
    cases hm'
    exact runs_preserve_attempt hst ha ((Trace.every_append.1 hp).2 m hm) hpost
  · rintro pre c post m - - hc hreply
    rw [closes_eq c.op c.now m, Option.isSome_map, Option.isSome_iff_exists] at hc
    obtain ⟨f, hf⟩ := hc
    rw [Call.step, refused_sqlite hf hreply]

/-! ### A completion refused under a recovery claim, and the recovery -/

def runningDb : Db :=
  (StoreOp.updateRun "job" { status := some .running }).after .sqlite 1
    ((StoreOp.createRun "job" "design" "ip" "flow" (some "hash") none none).after .sqlite 0 Db.empty)

def completionCalls : List Call :=
  [⟨2, .recordAttempt "job" 1 .running none none none (some .notClassified)⟩,
   ⟨2, .acquireAttemptLease "job" 1 "worker" "token" 30⟩,
   ⟨40, .claimRecovery "job" 1 "other" "recovery" 5⟩,
   ⟨4, .finalizeAttemptAndRun ownedCompletion⟩,
   ⟨50, .finalizeRecovery "job" 1 "recovery" "worker_unavailable" "recovery: stale RUNNING record without live worker"⟩]

theorem completionCalls_accepted_once : acceptedFor .sqlite "job" runningDb completionCalls ≤ 1 := by
  have hrun : (runningDb.runs.get "job").map (·.status) = some .running := by decide +kernel
  obtain ⟨r, hr, hst⟩ := Option.map_eq_some_iff.1 hrun
  have hfresh : runningDb.attempts.get ("job", 1) = none := by decide +kernel
  have hp : Trace.Every (Call.step .sqlite) InProtocol runningDb completionCalls := by
    refine ⟨⟨rfl, hfresh⟩, fun _ _ => ⟨trivial, fun _ _ => ⟨trivial, fun _ _ => ⟨⟨?_, rfl⟩, fun _ _ =>
      ⟨trivial, fun _ _ => trivial⟩⟩⟩⟩⟩
    intro h
    cases h
  exact (completion_accepted_once "job" runningDb _ completionCalls ⟨r, hr, hst⟩ hp rfl).1

end EdaLab
