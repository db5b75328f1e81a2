import EdaLab.SqliteStore
/-!
# FailingCalls — what a call that raises leaves on the store's connection

A method that begins its transaction and rolls back, or rolls back its batch, is atomic whatever its statements do.  The
others execute, commit and have no handler: they are atomic exactly when their statements are accepted
(`SqliteCall.Handled`), and leave their transaction open otherwise, for the next commit to publish and the next
`BEGIN IMMEDIATE` to trip over.  A handled call whose statements are all accepted is the whole-call function of its method
(`storeOp_eq`).
-/
namespace EdaLab

open Relational Transaction Action

/-! ## Which calls are handled -/

/-- The call's method rolls back, or writes nothing, or its statements are accepted. -/
def StoreOp.Handled (refused : Nat → Bool) (db : Db) : StoreOp → Prop
  | .createRun _ _ _ _ _ (some _) _ | .finalizeRecovery .. | .finalizeAttemptAndRun _ | .startHostSession ..
  | .claimExecutionRequest .. => True
  | .claimNextRun _ | .releaseTerminalExecutionRequests | .countActiveExecutionRequests _ | .getRun _ | .staleRunning _
  | .listExpiredLeasedAttempts | .getTerminationWitness _ => True
  | .updateRun _ fields => fields = {} ∨ refused 0 = false
  | .saveMetrics j _ | .recordAttempt j .. => refused 0 = false ∧ (db.runs.get j).isSome = true
  | .recordTerminationWitness e .. =>
    refused 0 = false ∧
      ((db.executionRequests.get e).isSome = true → db.executionWitnesses.get e = none → refused 1 = false)
  | _ => refused 0 = false

def SqliteCall.Handled (c : SqliteCall) (s : SqliteDb) : Prop :=
  match c.op with
  | .store op            => op.Handled c.refused s.central
  | .saveMetricRows rows =>
    ∀ r ∈ rows.zipIdx, c.refused r.2 = false ∧ (s.central.runs.get r.1.jobId).isSome = true
  | .createRevision row  => c.refused 0 = false ∧ s.revisions.get row.revisionId = none
  | .unsupportedWitness _ | .saveFindings .. | .createFindingQueryIndex => True

namespace SqliteStore

variable {now : Time} {refused : Nat → Bool} {s : SqliteDb}

/-! ## One statement and no handler -/

theorem statement_ok {α : Type} {k : Nat} {f : Db → Except SqlError (Db × α)} {r : Db × α} (hk : refused k = false)
    (h : f s.central = .ok r) : statement refused k f s = .ok ({ s with central := r.1 }, r.2) := by
  unfold statement
  rw [hk, h]
  rfl

theorem statement_refused {α : Type} {k : Nat} (hk : refused k = true) (f : Db → Except SqlError (Db × α)) (s : SqliteDb) :
    statement refused k f s = .error .refused := by
  unfold statement
  rw [if_pos hk]

/-- A statement is accepted when nothing refuses it, and the rows do not. -/
theorem statement_ok_iff {α : Type} (k : Nat) (f : Db → Except SqlError (Db × α)) (s : SqliteDb) :
    (∃ r, statement refused k f s = .ok r) ↔ refused k = false ∧ ∃ r, f s.central = .ok r := by
  by_cases hk : refused k = true
  · rw [statement_refused hk]
    simp [hk]
  · simp only [Bool.not_eq_true] at hk
    unfold statement
    cases hf : f s.central with
    | ok r => simp [hk]
    | error e => simp [hk]

theorem single_iff (f : Db → Except SqlError (Db × Reply)) (s : SqliteDb) :
    AtomicIff (refused 0 = false ∧ ∃ r, f s.central = .ok r) (single refused f) s :=
  (AtomicIff.execute (statement refused 0 f) id s).congr (statement_ok_iff 0 f s).symm

/-- Where the rows refuse nothing, all depends on what they do not show. -/
theorem accepted_iff (f : Db → Db × Reply) (s : SqliteDb) :
    AtomicIff (refused 0 = false) (single refused (accepted f)) s :=
  (single_iff (accepted f) s).congr (by simp [accepted])

theorem updateRun_iff (j : String) (fields : RunFields) (s : SqliteDb) :
    AtomicIff (fields = {} ∨ refused 0 = false) (updateRun now refused j fields) s := by
  unfold updateRun
  by_cases hf : fields = {}
  · rw [if_pos hf]
    exact (AtomicIff.always (Atomic.ret _ s)).congr (by simp [hf])
  · rw [if_neg hf]
    exact (accepted_iff _ s).congr (by simp [hf])

theorem saveMetrics_iff (j : String) (payload : Document) (s : SqliteDb) :
    AtomicIff (refused 0 = false ∧ (s.central.runs.get j).isSome = true) (saveMetrics refused j payload) s := by
  refine (single_iff _ s).congr (and_congr_right fun _ => ?_)
  unfold upsertMetrics
  by_cases hj : (s.central.runs.get j).isSome = true
  · simp [hj]
  · simp [hj]

theorem recordAttempt_iff (j : String) (n : Nat) (st : AttemptStatus) (et e ap : Option String) (rc : Option RetryClass)
    (s : SqliteDb) :
    AtomicIff (refused 0 = false ∧ (s.central.runs.get j).isSome = true)
      (recordAttempt now refused j n st et e ap rc) s := by
  refine (single_iff _ s).congr (and_congr_right fun _ => ?_)
  unfold upsertAttempt Store.recordAttempt
  by_cases hj : (s.central.runs.get j).isSome = true
  · simp [hj]
  · simp [hj]

/-! ## The other methods with no handler -/

theorem insertWitness_iff (now : Time) (e : String) (kind : WitnessKind) (code : Option Int) (ap : Option String)
    (detail : String)
    (db : Db) : (insertWitness now e kind code ap detail db).2 = true ↔
      (db.executionRequests.get e).isSome = true ∧ db.executionWitnesses.get e = none := by
  unfold insertWitness
  cases hr : db.executionRequests.get e with
  | none => simp
  | some r =>
    cases hw : db.executionWitnesses.insertNew ⟨e, kind, now, code, ap, detail⟩ with
    | none =>
      have htaken := Table.insertNew_eq_none_iff.1 hw
      simp only [Bool.false_eq_true, Option.isSome_some, true_and, false_iff]
      intro hn
      rw [hn] at htaken
      cases htaken
    | some t => simpa using Table.get_key_of_insertNew hw

theorem recordTerminationWitness_iff (e : String) (kind : WitnessKind) (code : Option Int) (ap : Option String)
    (detail : String) (s : SqliteDb) :
    AtomicIff (refused 0 = false ∧
        ((s.central.executionRequests.get e).isSome = true → s.central.executionWitnesses.get e = none → refused 1 = false))
      (recordTerminationWitness now refused e kind code ap detail) s := by
  have hinserted := insertWitness_iff now e kind code ap detail s.central
  unfold recordTerminationWitness
  by_cases h0 : refused 0 = true
  · refine ⟨fun h => ?_, fun _ => LeavesOpen.execute (statement_refused h0 _ s)⟩
    rw [h0] at h
    cases h.1
  simp only [Bool.not_eq_true] at h0
  have hfirst : statement refused 0 (accepted (insertWitness now e kind code ap detail)) (Conn.clean s).view = .ok
      ({ s with central := (insertWitness now e kind code ap detail s.central).1 },
        (insertWitness now e kind code ap detail s.central).2) := statement_ok h0 rfl
  by_cases hi : (insertWitness now e kind code ap detail s.central).2 = true
  · obtain ⟨hrequest, hwitness⟩ := hinserted.1 hi
    by_cases h1 : refused 1 = true
    · refine ⟨fun h => ?_, fun _ => ?_⟩
      · exact absurd (h.2 hrequest hwitness) (by simp [h1])
      · refine ⟨.refused, { s with central := (insertWitness now e kind code ap detail s.central).1 }, ?_⟩
        rw [execute_ok hfirst, if_pos hi, execute_error (statement_refused h1 _ _)]
        rfl
    · simp only [Bool.not_eq_true] at h1
      refine ⟨fun _ => ?_, fun h => ?_⟩
      · unfold Atomic
        rw [execute_ok hfirst, if_pos hi, execute_ok (statement_ok h1 rfl)]
        rfl
      · exact absurd ⟨h0, fun _ _ => h1⟩ h
  · refine ⟨fun _ => ?_, fun h => ?_⟩
    · unfold Atomic
      rw [execute_ok hfirst, if_neg hi]
      rfl
    · refine absurd ⟨h0, ?_⟩ h
      intro hrequest hwitness
      exact absurd (hinserted.2 ⟨hrequest, hwitness⟩) hi

/-- What a row of the batch needs is not written by the rows before it. -/
theorem saveMetricRows_iff (rows : List MetricRow) (s : SqliteDb) :
    AtomicIff (∀ r ∈ rows.zipIdx, refused r.2 = false ∧ (s.central.runs.get r.1.jobId).isSome = true)
      (saveMetricRows refused rows) s := by
  refine (AtomicIff.many rows.zipIdx Reply.unit s).congr ?_
  rw [executeMany_ok_iff (fun r d => refused r.2 = false ∧ (d.central.runs.get r.1.jobId).isSome = true)]
  · rfl
  · intro r d
    unfold insertMetricRow
    by_cases hk : refused r.2 = true
    · simp [hk]
    · by_cases hj : (d.central.runs.get r.1.jobId).isSome = true
      · simp [hk, hj]
      · simp [hk, hj]
  · intro r r' d d' h
    unfold insertMetricRow at h
    by_cases hk : refused r.2 = true
    · rw [if_pos hk] at h
      cases h
    · by_cases hj : (d.central.runs.get r.1.jobId).isSome = true
      · rw [if_neg hk, if_pos hj] at h
        cases h
        rfl
      · rw [if_neg hk, if_neg hj] at h
        cases h

theorem createRevision_iff (row : RevisionRow) (s : SqliteDb) :
    AtomicIff (refused 0 = false ∧ s.revisions.get row.revisionId = none) (createRevision refused row) s := by
  refine (AtomicIff.execute (insertRevision refused row) (fun _ => Reply.unit) s).congr ?_
  unfold insertRevision
  by_cases hk : refused 0 = true
  · simp [hk]
  · simp only [Bool.not_eq_true] at hk
    cases hn : s.revisions.insertNew row with
    | none =>
      have htaken := Table.insertNew_eq_none_iff.1 hn
      simp only [hk, true_and, Bool.false_eq_true, if_false, reduceCtorEq, exists_false, iff_false]
      intro hget
      rw [hget] at htaken
      cases htaken
    | some t => simp [hk, Table.get_key_of_insertNew hn]

/-! ## The methods with a handler -/

theorem createRun_atomic (j d i f : String) (h : Option String) (budget : Nat) (s : SqliteDb) :
    Atomic (createRun now refused j d i f h (some budget)) s := by
  apply Atomic.immediate
  apply Settles.select
  intro existing
  apply Settles.ite (Settles.commit _)
  apply Settles.select
  intro inFlight
  apply Settles.ite (Settles.raise _)
  apply Settles.execute
  intro _
  exact Settles.commit _

theorem finalizeRecovery_atomic (j : String) (n : Nat) (token et e : String) (s : SqliteDb) :
    Atomic (finalizeRecovery now refused j n token et e) s := by
  apply Atomic.immediate
  apply Settles.execute
  intro attempt
  apply Settles.ite (Settles.rollback _)
  apply Settles.execute
  intro run
  apply Settles.ite (Settles.rollback _)
  apply Settles.execute
  intro _
  exact Settles.commit _

theorem finalizeAttemptAndRun_atomic (c : Completion) (s : SqliteDb) :
    Atomic (finalizeAttemptAndRun now refused c) s := by
  apply Atomic.immediate
  apply Settles.execute
  intro attempt
  apply Settles.ite (Settles.rollback _)
  apply Settles.execute
  intro run
  exact Settles.ite (Settles.rollback _) (Settles.commit _)

theorem startHostSession_atomic (owner : ExecutionOwner) (ttl : Time) (s : SqliteDb) :
    Atomic (startHostSession now refused owner ttl) s := by
  apply Atomic.immediate
  apply Settles.execute
  intro _
  apply Settles.execute
  intro _
  exact Settles.commit _

theorem claimExecutionRequest_atomic (h sup : String) (s : SqliteDb) :
    Atomic (claimExecutionRequest now refused h sup) s := by
  apply Atomic.immediate
  apply Settles.select
  intro row
  cases row with
  | none => exact Settles.commit _
  | some row =>
    apply Settles.execute
    intro claimed
    exact Settles.ite (Settles.rollback _) (Settles.commit _)

theorem read_atomic (op : StoreOp) (s : SqliteDb) : Atomic (read now op) s := Atomic.select _ s

/-- **What a store call does to the connection when it raises**, over every method. -/
theorem storeOp_iff (op : StoreOp) (s : SqliteDb) :
    AtomicIff (op.Handled refused s.central) (storeOp now refused op) s := by
  cases op with
  | createRun j d i f h budget p =>
    cases budget with
    | none => exact accepted_iff _ s
    | some budget => exact .always (createRun_atomic j d i f h budget s)
  | updateRun j fields => exact updateRun_iff j fields s
  | saveMetrics j payload => exact saveMetrics_iff j payload s
  | recordAttempt j n st et e ap rc => exact recordAttempt_iff j n st et e ap rc s
  | finalizeRecovery j n token et e => exact .always (finalizeRecovery_atomic j n token et e s)
  | finalizeAttemptAndRun c => exact .always (finalizeAttemptAndRun_atomic c s)
  | startHostSession owner ttl => exact .always (startHostSession_atomic owner ttl s)
  | claimExecutionRequest h sup _ => exact .always (claimExecutionRequest_atomic h sup s)
  | recordTerminationWitness e kind code ap detail => exact recordTerminationWitness_iff e kind code ap detail s
  | claimNextRun _ | releaseTerminalExecutionRequests | countActiveExecutionRequests _ => exact .always (Atomic.raise _ s)
  | getRun j => exact .always (read_atomic _ s)
  | staleRunning cutoff => exact .always (read_atomic _ s)
  | listExpiredLeasedAttempts => exact .always (read_atomic _ s)
  | getTerminationWitness e => exact .always (read_atomic _ s)
  | _ => exact accepted_iff _ s

theorem run_iff (c : SqliteCall) (s : SqliteDb) : AtomicIff (c.Handled s) (run c) s := by
  obtain ⟨now, refused, op⟩ := c
  cases op with
  | store op => exact storeOp_iff op s
  | unsupportedWitness e => exact .always (Atomic.raise _ s)
  | saveMetricRows rows => exact saveMetricRows_iff rows s
  | createRevision row => exact createRevision_iff row s
  | saveFindings r fs => exact .always (Atomic.batch _ _ _ s)
  | createFindingQueryIndex => exact .always (Atomic.define _ _ s)

/-! ## Telling an open transaction -/

/-- An admission with a budget, which begins its own transaction. -/
def admission : SqliteCall := ⟨0, fun _ => false, .store (.createRun "admitted" "design" "ip" "flow" none (some 1) none)⟩

theorem admission_pending (s v : SqliteDb) : (run admission ⟨s, some v⟩).1 = .error .inTransaction := rfl

theorem admission_clean (s : SqliteDb) : (run admission (.clean s)).1 ≠ .error .inTransaction := by
  have hrun : run admission (.clean s) = createRun 0 (fun _ => false) "admitted" "design" "ip" "flow" none (some 1)
    (.clean s) := rfl
  rw [hrun]
  unfold createRun immediate
  simp only [Bool.false_eq_true, if_false]
  rw [beginImmediate_ok, rollingBack_fst, select_ok (a := (s.central.runs.get "admitted").isSome) rfl]
  by_cases hj : (s.central.runs.get "admitted").isSome = true
  · rw [if_pos hj]
    intro h
    cases h
  rw [if_neg hj, select_ok (a := Store.inFlight s.central) rfl]
  by_cases hb : 1 ≤ Store.inFlight s.central
  · rw [if_pos hb]
    intro h
    cases h
  rw [if_neg hb]
  obtain ⟨runs, hruns⟩ := Option.ne_none_iff_exists'.1 (fun hn => hj (Table.insertNew_eq_none_iff.1 hn) :
    s.central.runs.insertNew (Store.newRun 0 "admitted" "design" "ip" "flow" none none) ≠ none)
  have hinsert : insertNewRun (Store.newRun 0 "admitted" "design" "ip" "flow" none none) s.central =
      .ok ({ s.central with runs := runs }, ()) := by
    unfold insertNewRun
    rw [hruns]
  have hstatement : statement (fun _ => false) 1 (insertNewRun (Store.newRun 0 "admitted" "design" "ip" "flow" none none))
      (Conn.mk s (some s)).view = .ok ({ s with central := { s.central with runs := runs } }, ()) :=
    statement_ok rfl hinsert
  rw [execute_ok hstatement]
  intro h
  cases h

/-- **Which failing calls leave no trace.**  From any database, every call of a sequence that raises can be left out without
any later call or the final database telling, exactly when each call of the sequence is handled. -/
theorem failing_calls_leave_no_trace_iff (s : SqliteDb) (calls : List SqliteCall) :
    Each run (LeavesNoTrace run) (.clean s) calls ↔ Each run (fun x c => c.Handled x.committed) (.clean s) calls := by
  apply each_leavesNoTrace_iff run_iff admission
  intro d v h
  rw [admission_pending] at h
  exact admission_clean d h.symm

def addRun : SqliteCall := ⟨0, fun _ => false, .store (.createRun "r1" "design" "ip" "flow" none none none)⟩

def storedRow : MetricRow := ⟨"r1", "worst_slack_ns", "synthesis", "tt", 1 / 4, "ns"⟩

/-- The second row is of a Run that is not there. -/
def failedBatch : SqliteCall := ⟨1, fun _ => false, .saveMetricRows [storedRow, { storedRow with jobId := "r2" }]⟩

def touch : SqliteCall := ⟨2, fun _ => false, .store (.updateRun "r1" { status := some .running })⟩

/-- A batch with a bad second row raises; its first row is published by the next commit, and until then an admission
raises. -/
theorem failed_batch_published :
    let x := (run addRun (.clean .empty)).2
    (run failedBatch x).1 = .error .integrityError ∧
    (outcomes run (run failedBatch x).2 [touch]).2.committed.metricRows = [storedRow] ∧
    (outcomes run x [touch]).2.committed.metricRows = [] ∧
    (outcomes run (run failedBatch x).2 [admission]).1 = [.error .inTransaction] ∧
    ¬ Each run (LeavesNoTrace run) (.clean .empty) [addRun, failedBatch] := by
  have hraises : (run failedBatch (run addRun (.clean .empty)).2).1 = .error .integrityError := by rfl
  have hwith : (outcomes run (run failedBatch (run addRun (.clean .empty)).2).2 [touch]).2.committed.metricRows =
      [storedRow] := by rfl
  have hwithout : (outcomes run (run addRun (.clean .empty)).2 [touch]).2.committed.metricRows = [] := by rfl
  refine ⟨hraises, hwith, hwithout, by rfl, ?_⟩
  rintro ⟨_, hbatch, _⟩
  have hlater := (hbatch ⟨_, hraises⟩ [touch]).2
  have hrows := congrArg SqliteDb.metricRows hlater
  rw [hwith, hwithout] at hrows
  cases hrows

/-! ## The calls against the whole-call functions -/

/-- What a reply of the whole-call functions is to the caller of the method. -/
def answer : Reply → Except SqlError Reply
  | .raised .inFlightBudgetExhausted => .error .inFlightBudgetExhausted
  | .raised .integrityError          => .error .integrityError
  | .raised .unsupported             => .error .unsupported
  | r                                => .ok r

/-- Nothing refused for what the rows do not show. -/
abbrev noneRefused : Nat → Bool := fun _ => false

theorem single_eq {f : Db → Except SqlError (Db × Reply)} {r : Db × Reply} (h : f s.central = .ok r) :
    single noneRefused f (.clean s) = (.ok r.2, .clean { s with central := r.1 }) := by
  have hview : statement noneRefused 0 f (Conn.clean s).view = .ok ({ s with central := r.1 }, r.2) := statement_ok rfl h
  unfold single
  rw [execute_ok hview]
  rfl

theorem immediate_ok {body : Sql Reply} {reply : Reply} {db : Db}
    (h : body ⟨s, some s⟩ = (.ok reply, .clean { s with central := db })) :
    immediate noneRefused body (.clean s) = (.ok reply, .clean { s with central := db }) := rollingBack_ok h

theorem immediate_error {body : Sql Reply} {e : SqlError} {v : SqliteDb} (h : body ⟨s, some s⟩ = (.error e, ⟨s, some v⟩)) :
    immediate noneRefused body (.clean s) = (.error e, .clean s) := rollingBack_error h

theorem updateRun_eq (j : String) (fields : RunFields) (s : SqliteDb) :
    updateRun now noneRefused j fields (.clean s) =
      (.ok .unit, .clean { s with central := Store.updateRun s.central now j fields }) := by
  unfold updateRun Store.updateRun
  by_cases hf : fields = {}
  · rw [if_pos hf, if_pos hf]
    rfl
  · rw [if_neg hf, if_neg hf]
    exact single_eq (f := accepted fun db => ((db.updateRuns now j (fun _ => true) fields).1, .unit)) rfl

theorem createRun_eq (j d i f : String) (h : Option String) (budget : Nat) (s : SqliteDb) :
    createRun now noneRefused j d i f h (some budget) (.clean s) =
      (answer (Reply.ofCreate (Store.createRun s.central now j d i f h (some budget) none)).2,
        .clean { s with central := (Store.createRun s.central now j d i f h (some budget) none).1 }) := by
  unfold Store.createRun
  simp only
  by_cases hj : (s.central.runs.get j).isSome = true
  · rw [if_pos hj]
    apply immediate_ok
    rw [select_ok (a := (s.central.runs.get j).isSome) rfl, if_pos hj]
    rfl
  rw [if_neg hj]
  by_cases hb : budget ≤ Store.inFlight s.central
  · rw [if_pos hb]
    apply immediate_error (v := s)
    rw [select_ok (a := (s.central.runs.get j).isSome) rfl, if_neg hj, select_ok (a := Store.inFlight s.central) rfl,
      if_pos hb]
    rfl
  rw [if_neg hb]
  obtain ⟨runs, hruns⟩ := Option.ne_none_iff_exists'.1 (fun hn => hj (Table.insertNew_eq_none_iff.1 hn) :
    s.central.runs.insertNew (Store.newRun now j d i f h none) ≠ none)
  have hinsert : insertNewRun (Store.newRun now j d i f h none) s.central = .ok ({ s.central with runs := runs }, ()) := by
    unfold insertNewRun
    rw [hruns]
  unfold Store.insertRun
  rw [hruns]
  apply immediate_ok
  rw [select_ok (a := (s.central.runs.get j).isSome) rfl, if_neg hj, select_ok (a := Store.inFlight s.central) rfl,
    if_neg hb, execute_ok (statement_ok (s := s) rfl hinsert)]
  rfl

theorem finalizeRecovery_eq (j : String) (n : Nat) (token et e : String) (s : SqliteDb) :
    finalizeRecovery now noneRefused j n token et e (.clean s) =
      (.ok (.flag (Store.finalizeRecovery s.central now j n token et e).2),
        .clean { s with central := (Store.finalizeRecovery s.central now j n token et e).1 }) := by
  unfold Store.finalizeRecovery
  apply immediate_ok
  rw [execute_pending (statement_ok rfl rfl)]
  by_cases ha : ((Store.abandonAttempt now j n token et e).exec s.central).2 = false
  · rw [if_pos ha]
    simp only [if_pos ha]
    rfl
  rw [if_neg ha, execute_pending (statement_ok rfl rfl)]
  simp only [if_neg ha]
  by_cases hr : (((Store.abandonAttempt now j n token et e).exec s.central).1.updateRuns now j Store.runIsRunning
      { status := some .failed, error := some (some e) }).2 = false
  · rw [if_pos hr]
    simp only [if_pos hr]
    rfl
  rw [if_neg hr, execute_pending (statement_ok rfl rfl)]
  simp only [if_neg hr]
  rfl

theorem finalizeAttemptAndRun_eq (c : Completion) (s : SqliteDb) :
    finalizeAttemptAndRun now noneRefused c (.clean s) =
      (.ok (.flag (Store.finalizeAttemptAndRun s.central now c).2),
        .clean { s with central := (Store.finalizeAttemptAndRun s.central now c).1 }) := by
  unfold Store.finalizeAttemptAndRun
  apply immediate_ok
  rw [execute_pending (statement_ok rfl rfl)]
  by_cases ha : ((Store.completeAttempt s.central now c).exec s.central).2 = false
  · rw [if_pos ha]
    simp only [if_pos ha]
    rfl
  rw [if_neg ha, execute_pending (statement_ok rfl rfl)]
  simp only [if_neg ha]
  by_cases hr : (((Store.completeAttempt s.central now c).exec s.central).1.updateRuns now c.jobId Store.runIsRunning
      c.fields).2 = false
  · rw [if_pos hr]
    simp only [if_pos hr]
    rfl
  rw [if_neg hr]
  simp only [if_neg hr]
  rfl

theorem startHostSession_eq (owner : ExecutionOwner) (ttl : Time) (s : SqliteDb) :
    startHostSession now noneRefused owner ttl (.clean s) =
      (answer (Reply.ofExcept (Store.startHostSession s.central now owner ttl)).2,
        .clean { s with central := (Store.startHostSession s.central now owner ttl).1 }) := by
  unfold Store.startHostSession
  cases hn : s.central.hostSessions.insertNew ⟨owner.sessionId, owner.hostId, owner.hostEpoch, now, now + ttl⟩ with
  | none =>
    have hinsert : insertHostSession now owner ttl s.central = .error .integrityError := by
      unfold insertHostSession
      rw [hn]
    have hstatement : statement noneRefused 1 (insertHostSession now owner ttl) (Conn.mk s (some s)).view =
        .error .integrityError := by
      change statement noneRefused 1 (insertHostSession now owner ttl) s = _
      unfold statement
      rw [hinsert]
      rfl
    exact immediate_error (v := s) (execute_error hstatement)
  | some sessions =>
    have hinsert : insertHostSession now owner ttl s.central = .ok ({ s.central with hostSessions := sessions }, ()) := by
      unfold insertHostSession
      rw [hn]
    apply immediate_ok
    rw [execute_pending (statement_ok rfl hinsert), execute_pending (statement_ok rfl rfl)]
    rfl

/-- The row that was selected in the transaction is still queued. -/
theorem claimRequest_snd {row : ExecutionRequestRow} {db : Db} {h sup : String}
    (hrow : Store.nextRequest db h [] = some row) :
    (claimRequest now sup row.executionId db).2 = true := by
  have hmem := List.mem_filter.1 (List.argmin_mem (Option.mem_def.2 hrow))
  have hqueued : row.status = .queued := by
    have := hmem.2
    simp only [Bool.and_eq_true, decide_eq_true_eq] at this
    exact this.1.2
  unfold claimRequest
  rw [decide_eq_true_iff, Table.countWhere_eq_one_iff _ _ row.executionId (fun e he => by simp at he; exact he.1)]
  exact ⟨row, Table.get_of_mem _ hmem.1, by simp [hqueued]⟩

theorem claimExecutionRequest_eq (h sup : String) (s : SqliteDb) :
    claimExecutionRequest now noneRefused h sup (.clean s) =
      (.ok (.request (Store.claimExecutionRequest s.central now h sup []).2),
        .clean { s with central := (Store.claimExecutionRequest s.central now h sup []).1 }) := by
  unfold Store.claimExecutionRequest
  apply immediate_ok
  rw [select_ok (a := Store.nextRequest s.central h []) rfl]
  cases hn : Store.nextRequest s.central h [] with
  | none => rfl
  | some row =>
    have hclaimed : ¬ (claimRequest now sup row.executionId s.central).2 = false := by
      rw [claimRequest_snd hn]
      decide
    simp only
    rw [execute_pending (statement_ok rfl rfl), if_neg hclaimed]
    rfl

theorem recordTerminationWitness_eq (e : String) (kind : WitnessKind) (code : Option Int) (ap : Option String)
    (detail : String) (s : SqliteDb) :
    recordTerminationWitness now noneRefused e kind code ap detail (.clean s) =
      (.ok (.flag (Store.recordTerminationWitness s.central now e kind code ap detail).2),
        .clean { s with central := (Store.recordTerminationWitness s.central now e kind code ap detail).1 }) := by
  have hfirst : statement noneRefused 0 (accepted (insertWitness now e kind code ap detail)) (Conn.clean s).view = .ok
      ({ s with central := (insertWitness now e kind code ap detail s.central).1 },
        (insertWitness now e kind code ap detail s.central).2) := statement_ok rfl rfl
  unfold recordTerminationWitness
  rw [execute_ok hfirst]
  unfold Store.recordTerminationWitness insertWitness
  cases s.central.executionRequests.get e with
  | none => rfl
  | some row =>
    simp only
    cases s.central.executionWitnesses.insertNew ⟨e, kind, now, code, ap, detail⟩ with
    | none => rfl
    | some witnesses =>
      simp only [if_true]
      rw [execute_pending (statement_ok rfl rfl)]
      rfl

/-- **A handled call with nothing refused is the whole-call function of its method**: the same reply, and the database that
function leaves, committed. -/
theorem storeOp_eq (op : StoreOp) (s : SqliteDb) (h : op.Handled noneRefused s.central) :
    storeOp now noneRefused op (.clean s) =
      (answer (op.reply .sqlite now s.central), .clean { s with central := op.after .sqlite now s.central }) := by
  cases op with
  | createRun j d i f hash budget p =>
    cases budget with
    | none => exact single_eq rfl
    | some budget => exact createRun_eq j d i f hash budget s
  | updateRun j fields => exact updateRun_eq j fields s
  | saveMetrics j payload =>
    have hmetrics : upsertMetrics j payload s.central = .ok (Store.saveMetrics s.central j payload, .unit) := by
      unfold upsertMetrics
      rw [if_pos h.2]
    exact single_eq hmetrics
  | recordAttempt j n st et e ap rc =>
    have hattempt : upsertAttempt now j n st et e ap rc s.central =
        .ok ((Store.recordAttempt s.central now j n st et e ap rc).1, .unit) := by
      unfold upsertAttempt Store.recordAttempt
      rw [if_pos h.2]
    have hreply : (Store.recordAttempt s.central now j n st et e ap rc).2 = .ok () := by
      unfold Store.recordAttempt
      rw [if_pos h.2]
    unfold StoreOp.after StoreOp.reply StoreOp.exec Reply.ofExcept
    simp only [hreply]
    exact single_eq hattempt
  | finalizeRecovery j n token et e => exact finalizeRecovery_eq j n token et e s
  | finalizeAttemptAndRun c => exact finalizeAttemptAndRun_eq c s
  | startHostSession owner ttl => exact startHostSession_eq owner ttl s
  | claimExecutionRequest hid sup _ => exact claimExecutionRequest_eq hid sup s
  | recordTerminationWitness e kind code ap detail => exact recordTerminationWitness_eq e kind code ap detail s
  | claimNextRun _ => rfl
  | releaseTerminalExecutionRequests => rfl
  | countActiveExecutionRequests _ => rfl
  | getRun _ => rfl
  | staleRunning _ => rfl
  | listExpiredLeasedAttempts => rfl
  | getTerminationWitness _ => rfl
  | _ => exact single_eq rfl

end SqliteStore

end EdaLab
