import EdaLab.StoreSpec
/-!
# Finalizers — when a finalizer is all-or-nothing

`Store` rolls back when its Run statement matches no row; `PostgresStore` returns from inside the transaction, which
commits.  So on SQLite every finalizer is all-or-nothing (`allOrNothing_sqlite`), and on PostgreSQL it is exactly where an
Attempt that still meets the fence has its Run in `RUNNING` (`stranded_iff`).
-/
namespace EdaLab

open Relational

/-- The states a finalizer moves its Attempt and its Run to. -/
def StoreOp.outcome : StoreOp → Option (AttemptStatus × RunStatus)
  | .finalizeRecovery _ _ _ _ _ => some (.abandoned, .failed)
  | .finalizeAttemptAndRun c    => some (c.attemptStatus, c.runStatus)
  | _                           => none

/-- A refused finalizer changes no Attempt, Run or execution request; an accepted one has moved both rows. -/
structure AllOrNothing (b : Backend) (now : Time) (db : Db) (op : StoreOp) (c : Finalizer) : Prop where
  refused : op.reply b now db = .flag false →
    (op.after b now db).attempts = db.attempts ∧ (op.after b now db).runs = db.runs ∧
    (op.after b now db).executionRequests = db.executionRequests
  accepted : op.reply b now db = .flag true → ∃ a r,
    (op.after b now db).attempts.get c.update.key = some a ∧ (op.after b now db).runs.get c.jobId = some r ∧
    op.outcome = some (a.status, r.status)

/-- What the two statements of a finalizer write is its outcome. -/
theorem outcome_of_finalizer {now : Time} {db : Db} {op : StoreOp} {c : Finalizer} (h : op.finalizer now db = some c)
    (a : AttemptRow) (r : RunRow) : op.outcome = some ((c.update.write a).status, (c.fields.write now r).status) := by
  cases op with
  | finalizeRecovery j n token et e => cases h; rfl
  | finalizeAttemptAndRun c => cases h; rfl
  | _ => cases h

/-- An accepted finalizer has moved both rows, on either backend. -/
theorem finalizer_moves {b : Backend} {now : Time} {db : Db} {op : StoreOp} {c : Finalizer}
    (hop : op.finalizer now db = some c) (h : op.reply b now db = .flag true) : ∃ a r,
    (op.after b now db).attempts.get c.update.key = some a ∧ (op.after b now db).runs.get c.jobId = some r ∧
    op.outcome = some (a.status, r.status) := by
  cases finalizer_cases b hop with
  | accepted he hr _ rest _ hafter =>
    obtain ⟨a, ha, hg⟩ := he
    obtain ⟨r, hr, hrun⟩ := hr
    refine ⟨c.update.write a, c.fields.write now r, ?_, ?_, outcome_of_finalizer hop a r⟩
    · rw [hafter, Db.updateRuns_attempts, c.update.get_exec_key db ha hg]
    · have hget := Db.get_updateRuns (c.update.exec db).1 now c.jobId Store.runIsRunning c.fields c.jobId
      rw [AttemptUpdate.exec_runs, hr] at hget
      rw [hafter, hget]
      simp [Store.runIsRunning, hrun]
  | noAttempt _ hreply _ => rw [hreply] at h; cases h
  | noRun _ _ hreply _ => rw [hreply] at h; cases h

/-- A refused SQLite finalizer is rolled back. -/
theorem refused_sqlite {now : Time} {db : Db} {op : StoreOp} {c : Finalizer} (hop : op.finalizer now db = some c)
    (h : op.reply .sqlite now db = .flag false) : op.after .sqlite now db = db := by
  cases finalizer_cases .sqlite hop with
  | accepted _ _ hreply _ _ _ => rw [hreply] at h; cases h
  | noAttempt _ _ hafter => exact hafter
  | noRun _ _ _ hafter => rw [hafter]; rfl

/-- **The SQLite finalizers are all-or-nothing.** -/
theorem allOrNothing_sqlite {now : Time} {db : Db} {op : StoreOp} {c : Finalizer} (hop : op.finalizer now db = some c) :
    AllOrNothing .sqlite now db op c := by
  refine ⟨fun h => ?_, finalizer_moves hop⟩
  rw [refused_sqlite hop h]
  exact ⟨rfl, rfl, rfl⟩

/-- The fence of a finalizer still holds and its Run has left `RUNNING`, so the first statement writes and the second does
not. -/
def Stranded (db : Db) (c : Finalizer) : Prop :=
  ∃ a, db.attempts.get c.update.key = some a ∧ c.update.guard a = true ∧ c.update.write a ≠ a ∧ ¬ db.runningRun c.jobId

/-- A finalizer that ends its Attempt is stranded exactly where its fence holds and its Run has left `RUNNING`. -/
theorem stranded_iff {now : Time} {db : Db} {op : StoreOp} {c : Finalizer} (hop : op.finalizer now db = some c)
    {o : AttemptStatus × RunStatus} (ho : op.outcome = some o) (hne : o.1 ≠ .running) :
    Stranded db c ↔ c.update.Enabled db ∧ ¬ db.runningRun c.jobId := by
  constructor
  · rintro ⟨a, ha, hg, -, hrun⟩
    exact ⟨⟨a, ha, hg⟩, hrun⟩
  · rintro ⟨⟨a, ha, hg⟩, hrun⟩
    refine ⟨a, ha, hg, fun h => ?_, hrun⟩
    have hst := attemptUpdate_running (finalizer_attemptUpdate hop) hg
    rw [outcome_of_finalizer hop a (Store.newRun now "" "" "" "" none none), h, hst] at ho
    cases ho
    exact hne rfl

/-- **A PostgreSQL finalizer is all-or-nothing exactly where its Run has not been taken from under its Attempt.** -/
theorem allOrNothing_postgres_iff {now : Time} {db : Db} {op : StoreOp} {c : Finalizer}
    (hop : op.finalizer now db = some c) : AllOrNothing .postgres now db op c ↔ ¬ Stranded db c := by
  constructor
  · rintro hall ⟨a, ha, hg, hw, hrun⟩
    cases finalizer_cases .postgres hop with
    | accepted _ hr _ _ _ _ => exact hrun hr
    | noAttempt he _ _ => exact he ⟨a, ha, hg⟩
    | noRun _ _ hreply hafter =>
      have hsame := (hall.refused hreply).1
      have hget : (op.after .postgres now db).attempts.get c.update.key = some (c.update.write a) := by
        rw [hafter]
        exact c.update.get_exec_key db ha hg
      rw [hsame, ha] at hget
      exact hw (Option.some.inj hget).symm
  · intro hns
    refine ⟨fun h => ?_, finalizer_moves hop⟩
    cases finalizer_cases .postgres hop with
    | accepted _ _ hreply _ _ _ => rw [hreply] at h; cases h
    | noAttempt _ _ hafter => rw [hafter]; exact ⟨rfl, rfl, rfl⟩
    | noRun he hrun _ hafter =>
      -- the statement that committed alone rewrote its row as it was
      have hself : ∀ a ∈ db.attempts.rows, c.update.matches a = true → c.update.write a = a := by
        intro a ha hm
        have hk := c.update.matches_key hm
        simp only [AttemptUpdate.matches, Bool.and_eq_true] at hm
        by_contra hne
        exact hns ⟨a, Table.get_eq_some_iff.2 ⟨ha, hk⟩, hm.2, hne, hrun⟩
      have hdb : (c.update.exec db).1.attempts = db.attempts :=
        Table.updateWhere_eq_self c.update.keeps hself
      rw [hafter]
      exact ⟨hdb, rfl, rfl⟩

/-! ### The interleaving with an unfenced write

A worker holds its lease; another writer fails the Run without looking at the Attempt; the worker completes. -/

def strandedSpec : JobSpec := ⟨"job", "design", "ip", "flow", "tt", .int (-1), "ns", .float (1 / 50)⟩

/-- The calls of a worker that claims the Run and acquires the lease of its first Attempt. -/
def ownedCalls : List Call :=
  [⟨0, .createRun "job" "design" "ip" "flow" (some "hash") none (some strandedSpec)⟩,
   ⟨1, .claimNextRun []⟩,
   ⟨1, .updateRun "job" { status := some .running }⟩,
   ⟨2, .recordAttempt "job" 1 .running none none none (some .notClassified)⟩,
   ⟨2, .acquireAttemptLease "job" 1 "worker" "token" 30⟩]

def ownedDb : Db := ownedCalls.foldl (fun db c => c.op.after .postgres c.now db) Db.empty

/-- The write of a recoverer that read the Run before its Attempt was recorded. -/
def strandingWrite : StoreOp :=
  .updateRun "job" { status := some .failed, error := some (some "recovery: stale RUNNING record without an Attempt") }

def strandedDb : Db := strandingWrite.after .postgres 3 ownedDb

def ownedCompletion : Completion where
  jobId := "job"
  attemptNo := 1
  token := "token"
  attemptStatus := .succeeded
  runStatus := .succeeded
  artifactPath := some "timing.report"
  retryClass := some .notApplicable

def ownedFinalizer (db : Db) : Finalizer := ⟨Store.completeAttempt db 4 ownedCompletion, "job", ownedCompletion.fields⟩

theorem ownedCompletion_allOrNothing :
    AllOrNothing .postgres 4 ownedDb (.finalizeAttemptAndRun ownedCompletion) (ownedFinalizer ownedDb) := by
  refine (allOrNothing_postgres_iff rfl).2 ?_
  rintro ⟨a, -, -, -, hrun⟩
  have h : (ownedDb.runs.get "job").map (·.status) = some .running := by decide +kernel
  obtain ⟨r, hr, hst⟩ := Option.map_eq_some_iff.1 h
  exact hrun ⟨r, hr, hst⟩

/-- **The completion is refused, and its Attempt has succeeded.** -/
theorem strandedCompletion_commits :
    ¬ AllOrNothing .postgres 4 strandedDb (.finalizeAttemptAndRun ownedCompletion) (ownedFinalizer strandedDb) := by
  intro h
  have hreply : (StoreOp.finalizeAttemptAndRun ownedCompletion).reply .postgres 4 strandedDb = .flag false := by
    decide +kernel
  have hsame := (h.refused hreply).1
  have hbefore : (strandedDb.attempts.get ("job", 1)).map (·.status) = some .running := by decide +kernel
  have hafter : (((StoreOp.finalizeAttemptAndRun ownedCompletion).after .postgres 4 strandedDb).attempts.get
      ("job", 1)).map (·.status) = some .succeeded := by decide +kernel
  rw [hsame, hbefore] at hafter
  cases hafter

end EdaLab
