import EdaLab.StoreOp
import Mathlib.Tactic.Tauto
/-!
# StoreSpec — what one store call can do

One lemma for each statement, and from them the two inversions every later invariant is read off: what a call can do to
the row of one Run (`runs_after`) and to the row of one Attempt (`attempts_after`).  Nothing after this module unfolds an
operation.
-/
namespace EdaLab

open Relational

/-! ## One statement -/

namespace AttemptUpdate

variable (u : AttemptUpdate) (db : Db)

theorem matches_key {a : AttemptRow} (h : u.matches a = true) : a.key = u.key := by
  simp only [AttemptUpdate.matches, Bool.and_eq_true, decide_eq_true_eq] at h
  exact h.1

/-- **The statement takes effect exactly when its row is there and meets the guard.** -/
theorem exec_true_iff : (u.exec db).2 = true ↔ ∃ a, db.attempts.get u.key = some a ∧ u.guard a = true := by
  unfold AttemptUpdate.exec
  rw [decide_eq_true_iff, Table.countWhere_eq_one_iff _ _ u.key (fun a h => u.matches_key h)]
  constructor
  · rintro ⟨a, ha, hm⟩
    simp only [AttemptUpdate.matches, Bool.and_eq_true] at hm
    exact ⟨a, ha, hm.2⟩
  · rintro ⟨a, ha, hg⟩
    exact ⟨a, ha, by simp [AttemptUpdate.matches, Table.key_of_get ha, hg]⟩

theorem exec_eq_self (h : (u.exec db).2 = false) : (u.exec db).1 = db := by
  have hc : db.attempts.countWhere u.matches ≠ 1 := by
    intro hc
    simp [AttemptUpdate.exec, hc] at h
  unfold AttemptUpdate.exec
  rw [Table.updateWhere_of_count_ne_one u.key (fun a h => u.matches_key h) hc]

/-- The statement, read at one key. -/
theorem get_exec (k : String × Nat) : (u.exec db).1.attempts.get k =
    (db.attempts.get k).map (fun a => if u.key = k ∧ u.guard a = true then u.write a else a) := by
  rw [AttemptUpdate.exec, Table.get_updateWhere]
  cases hk : db.attempts.get k with
  | none => rfl
  | some a =>
    have hak := Table.key_of_get hk
    by_cases hu : u.key = k
    · simp [AttemptUpdate.matches, hak, hu]
    · simp [AttemptUpdate.matches, hak, hu, Ne.symm hu]

/-- The row of a statement that takes effect. -/
theorem get_exec_key {a : AttemptRow} (ha : db.attempts.get u.key = some a) (hg : u.guard a = true) :
    (u.exec db).1.attempts.get u.key = some (u.write a) := by
  rw [u.get_exec db, ha, Option.map_some, if_pos ⟨rfl, hg⟩]

@[simp] theorem exec_runs : (u.exec db).1.runs = db.runs := rfl
@[simp] theorem exec_hostSessions : (u.exec db).1.hostSessions = db.hostSessions := rfl
@[simp] theorem exec_hosts : (u.exec db).1.hosts = db.hosts := rfl
@[simp] theorem exec_executionRequests : (u.exec db).1.executionRequests = db.executionRequests := rfl
@[simp] theorem exec_executionWitnesses : (u.exec db).1.executionWitnesses = db.executionWitnesses := rfl
@[simp] theorem exec_metrics : (u.exec db).1.metrics = db.metrics := rfl

end AttemptUpdate

section UpdateRuns

variable (db : Db) (now : Time) (j : String) (guard : RunRow → Bool) (fields : RunFields)

theorem Db.updateRuns_true_iff :
    (db.updateRuns now j guard fields).2 = true ↔ ∃ r, db.runs.get j = some r ∧ guard r = true := by
  unfold Db.updateRuns
  rw [decide_eq_true_iff, Table.countWhere_eq_one_iff _ _ j (fun r h => by simp at h; exact h.1)]
  constructor
  · rintro ⟨r, hr, hm⟩
    simp only [Bool.and_eq_true] at hm
    exact ⟨r, hr, hm.2⟩
  · rintro ⟨r, hr, hg⟩
    exact ⟨r, hr, by simp [Table.key_of_get hr, hg]⟩

theorem Db.updateRuns_eq_self (h : (db.updateRuns now j guard fields).2 = false) :
    (db.updateRuns now j guard fields).1 = db := by
  have hc : db.runs.countWhere (fun r => decide (r.jobId = j) && guard r) ≠ 1 := by
    intro hc
    simp [Db.updateRuns, hc] at h
  unfold Db.updateRuns
  rw [Table.updateWhere_of_count_ne_one j (fun r h => by simp at h; exact h.1) hc]

theorem Db.get_updateRuns (i : String) : (db.updateRuns now j guard fields).1.runs.get i =
    (db.runs.get i).map (fun r => if j = i ∧ guard r = true then fields.write now r else r) := by
  rw [Db.updateRuns, Table.get_updateWhere]
  cases hi : db.runs.get i with
  | none => rfl
  | some r =>
    have hr := Table.key_of_get hi
    by_cases hj : j = i
    · simp [hr, hj]
    · simp [hr, hj, Ne.symm hj]

@[simp] theorem Db.updateRuns_attempts : (db.updateRuns now j guard fields).1.attempts = db.attempts := rfl
@[simp] theorem Db.updateRuns_hostSessions : (db.updateRuns now j guard fields).1.hostSessions = db.hostSessions := rfl
@[simp] theorem Db.updateRuns_hosts : (db.updateRuns now j guard fields).1.hosts = db.hosts := rfl
@[simp] theorem Db.updateRuns_executionRequests :
    (db.updateRuns now j guard fields).1.executionRequests = db.executionRequests := rfl
@[simp] theorem Db.updateRuns_executionWitnesses :
    (db.updateRuns now j guard fields).1.executionWitnesses = db.executionWitnesses := rfl
@[simp] theorem Db.updateRuns_metrics : (db.updateRuns now j guard fields).1.metrics = db.metrics := rfl

end UpdateRuns

@[simp] theorem RunFields.write_specPayload (f : RunFields) (now : Time) (r : RunRow) :
    (f.write now r).specPayload = r.specPayload := rfl
@[simp] theorem RunFields.write_updatedAt (f : RunFields) (now : Time) (r : RunRow) :
    (f.write now r).updatedAt = now := rfl

/-- A Run the statement `UPDATE runs … WHERE status = 'RUNNING'` matches. -/
def Db.runningRun (db : Db) (j : String) : Prop := ∃ r, db.runs.get j = some r ∧ r.status = .running

/-- The row of `u` is there and meets its guard. -/
def AttemptUpdate.Enabled (u : AttemptUpdate) (db : Db) : Prop :=
  ∃ a, db.attempts.get u.key = some a ∧ u.guard a = true

/-! ## The finalizers

Both run an `AttemptUpdate` and then `UPDATE runs … WHERE status = 'RUNNING'`.  The backends differ in one case only: the
Attempt row was updated and the Run row was not.  `closing` is that shape once. -/

/-- The two statements of a finalizer; `keep` is what a refused Run leaves: the state before the transaction where it is
rolled back, the state after the first statement where it commits. -/
def closing (db : Db) (now : Time) (u : AttemptUpdate) (j : String) (fields : RunFields) (rest : Db → Db)
    (keep : Db → Db) : Db × Bool :=
  if (u.exec db).2 = false then (db, false)
  else if ((u.exec db).1.updateRuns now j Store.runIsRunning fields).2 = false then (keep (u.exec db).1, false)
  else (rest ((u.exec db).1.updateRuns now j Store.runIsRunning fields).1, true)

theorem Store.finalizeRecovery_eq (db : Db) (now : Time) (j : String) (n : Nat) (token et e : String) :
    Store.finalizeRecovery db now j n token et e =
      closing db now (Store.abandonAttempt now j n token et e) j { status := some .failed, error := some (some e) }
        (fun d => Store.retireRequests d j n) (fun _ => db) := rfl

theorem PostgresStore.finalizeRecovery_eq (db : Db) (now : Time) (j : String) (n : Nat) (token et e : String) :
    PostgresStore.finalizeRecovery db now j n token et e =
      closing db now (Store.abandonAttempt now j n token et e) j { status := some .failed, error := some (some e) }
        (fun d => Store.retireRequests d j n) id := by
  unfold PostgresStore.finalizeRecovery closing
  cases h : (Store.abandonAttempt now j n token et e).exec db with
  | mk db₁ ok =>
    cases ok with
    | false =>
      have := (Store.abandonAttempt now j n token et e).exec_eq_self db (by rw [h])
      rw [h] at this
      simp only at this
      simp [this]
    | true =>
      simp only [Bool.true_eq_false, if_false]
      split
      · rename_i hr
        rw [Db.updateRuns_eq_self _ _ _ _ _ hr]
        simp
      · simp

theorem Store.finalizeAttemptAndRun_eq (db : Db) (now : Time) (c : Completion) :
    Store.finalizeAttemptAndRun db now c =
      closing db now (Store.completeAttempt db now c) c.jobId c.fields id (fun _ => db) := rfl

theorem PostgresStore.finalizeAttemptAndRun_eq (db : Db) (now : Time) (c : Completion) :
    PostgresStore.finalizeAttemptAndRun db now c =
      closing db now (Store.completeAttempt db now c) c.jobId c.fields id id := by
  unfold PostgresStore.finalizeAttemptAndRun closing
  cases h : (Store.completeAttempt db now c).exec db with
  | mk db₁ ok =>
    cases ok with
    | false =>
      have := (Store.completeAttempt db now c).exec_eq_self db (by rw [h])
      rw [h] at this
      simp only at this
      simp [this]
    | true =>
      simp only [Bool.true_eq_false, if_false]
      split
      · rename_i hr
        rw [Db.updateRuns_eq_self _ _ _ _ _ hr]
        simp [hr]
      · rename_i hr
        simp at hr
        simp [hr]

section Closing

variable {db : Db} {now : Time} {u : AttemptUpdate} {j : String} {fields : RunFields} {rest keep : Db → Db}

theorem closing_true_iff : (closing db now u j fields rest keep).2 = true ↔ u.Enabled db ∧ db.runningRun j := by
  unfold closing
  have hu := u.exec_true_iff db
  have hr := Db.updateRuns_true_iff (u.exec db).1 now j Store.runIsRunning fields
  simp only [AttemptUpdate.exec_runs, Store.runIsRunning, decide_eq_true_eq] at hr
  unfold AttemptUpdate.Enabled Db.runningRun
  rw [← hu, ← hr]
  cases h₁ : (u.exec db).2 with
  | false => simp
  | true =>
    simp only [Bool.true_eq_false, if_false, true_and]
    split
    · rename_i h₂
      simp [h₂]
    · rename_i h₂
      simpa using h₂

theorem closing_of_true (h : (closing db now u j fields rest keep).2 = true) :
    (closing db now u j fields rest keep).1 = rest ((u.exec db).1.updateRuns now j Store.runIsRunning fields).1 := by
  unfold closing at h ⊢
  split at h
  · cases h
  · rename_i h₁
    rw [if_neg h₁]
    split at h
    · cases h
    · rename_i h₂
      rw [if_neg h₂]

/-- **A refused finalizer**: nothing changed, or the Attempt row was updated, its Run was not `RUNNING`, and the
transaction ended as `keep` says. -/
theorem closing_of_false (h : (closing db now u j fields rest keep).2 = false) :
    (¬ u.Enabled db ∧ (closing db now u j fields rest keep).1 = db) ∨
    (u.Enabled db ∧ ¬ db.runningRun j ∧ (closing db now u j fields rest keep).1 = keep (u.exec db).1) := by
  have hiff : (closing db now u j fields rest keep).2 = true ↔ u.Enabled db ∧ db.runningRun j := closing_true_iff
  rw [h] at hiff
  have hu := u.exec_true_iff db
  by_cases he : u.Enabled db
  · refine Or.inr ⟨he, fun hr => by simpa using hiff.2 ⟨he, hr⟩, ?_⟩
    have h₁ := hu.2 he
    unfold closing at h ⊢
    rw [h₁] at h ⊢
    simp only [Bool.true_eq_false, if_false] at h ⊢
    split at h
    · rename_i h₂
      rw [if_pos h₂]
    · cases h
  · refine Or.inl ⟨he, ?_⟩
    have h₁ : (u.exec db).2 = false := by
      cases hx : (u.exec db).2 with
      | false => rfl
      | true => exact absurd (hu.1 hx) he
    unfold closing
    rw [if_pos h₁]

end Closing

/-! ## What a call can do to one Run -/

/-- The finalizer a call is: its statement on `attempts`, its job and its assignment of the Run. -/
structure Finalizer where
  update : AttemptUpdate
  jobId  : String
  fields : RunFields

def StoreOp.finalizer (now : Time) (db : Db) : StoreOp → Option Finalizer
  | .finalizeRecovery j n token et e =>
    some ⟨Store.abandonAttempt now j n token et e, j, { status := some .failed, error := some (some e) }⟩
  | .finalizeAttemptAndRun c => some ⟨Store.completeAttempt db now c, c.jobId, c.fields⟩
  | _ => none

/-- The `UPDATE attempts` of one Attempt a call runs. -/
def StoreOp.attemptUpdate (now : Time) (db : Db) : StoreOp → Option AttemptUpdate
  | .acquireAttemptLease j n owner token ttl => some (Store.acquireAttemptLease now j n owner token ttl)
  | .heartbeatAttempt j n token ttl => some (Store.heartbeatAttempt now j n token ttl)
  | .recordAttemptProcess j n token pid at_ identity group deadline =>
    some (Store.recordAttemptProcess now j n token pid at_ identity group deadline)
  | .recordAttemptExecution j n token owner e => some (Store.recordAttemptExecution db now j n token owner e)
  | .transitionAttempt j n token st et e ap rc => some (Store.transitionAttempt now j n token st et e ap rc)
  | .claimRecovery j n owner token ttl => some (Store.claimRecovery now j n owner token ttl)
  | .releaseRecoveryClaim j n token => some (Store.releaseRecoveryClaim now j n token)
  | op => (op.finalizer now db).map (·.update)

inductive RunChange (b : Backend) (now : Time) (db : Db) (op : StoreOp) (i : String) : Prop
  | same (get_after : (op.after b now db).runs.get i = db.runs.get i)
  | created (d f g : String) (h : Option String) (m : Option Nat) (p : Option JobSpec)
      (is_op : op = .createRun i d f g h m p) (get_before : db.runs.get i = none)
      (get_after : (op.after b now db).runs.get i =
        some (Store.newRun now i d f g h (b.payload p)))
      (replied : op.reply b now db = .flag true)
  | updated (fields : RunFields) (r : RunRow) (is_op : op = .updateRun i fields) (get_before : db.runs.get i = some r)
      (get_after : (op.after b now db).runs.get i = some (fields.write now r))
  | claimed (locked : List String) (r : RunRow) (is_op : op = .claimNextRun locked) (on_postgres : b = .postgres)
      (get_before : db.runs.get i = some r) (was_queued : r.status = .queued)
      (get_after : (op.after b now db).runs.get i = some (({ status := some .running } : RunFields).write now r))
      (replied : op.reply b now db = .payload r.specPayload)
  | closed (c : Finalizer) (r : RunRow) (is_op : op.finalizer now db = some c) (for_job : c.jobId = i)
      (enabled : c.update.Enabled db) (get_before : db.runs.get i = some r) (was_running : r.status = .running)
      (get_after : (op.after b now db).runs.get i = some (c.fields.write now r))
      (replied : op.reply b now db = .flag true)

theorem Store.insertRun_get (db : Db) (r : RunRow) (i : String) :
    ((Store.insertRun db r).1.runs.get i = db.runs.get i) ∨
    (r.jobId = i ∧ db.runs.get i = none ∧ (Store.insertRun db r).1.runs.get i = some r ∧
      (Store.insertRun db r).2 = true) := by
  unfold Store.insertRun
  cases h : db.runs.insertNew r with
  | none => exact Or.inl rfl
  | some t =>
    simp only
    rw [Table.get_insertNew h]
    by_cases hi : r.jobId = i
    · subst hi
      exact Or.inr ⟨rfl, Table.get_key_of_insertNew h, by simp, trivial⟩
    · exact Or.inl (by simp [hi])

theorem PostgresStore.claimNextRun_get (db : Db) (now : Time) (locked : List String) (i : String) :
    ((PostgresStore.claimNextRun db now locked).1.runs.get i = db.runs.get i) ∨
    (∃ r, db.runs.get i = some r ∧ r.status = .queued ∧
      (PostgresStore.claimNextRun db now locked).1.runs.get i =
        some (({ status := some .running } : RunFields).write now r) ∧
      (PostgresStore.claimNextRun db now locked).2 = r.specPayload) := by
  unfold PostgresStore.claimNextRun
  cases h : PostgresStore.nextQueued db locked with
  | none => exact Or.inl rfl
  | some r =>
    have hm := List.argmin_mem h
    rw [List.mem_filter] at hm
    simp only [Bool.and_eq_true, decide_eq_true_eq] at hm
    simp only [Db.get_updateRuns]
    by_cases hi : r.jobId = i
    · subst hi
      have hr := db.runs.get_of_mem hm.1
      exact Or.inr ⟨r, hr, hm.2.1, by simp [hr], rfl⟩
    · left
      cases db.runs.get i <;> simp [hi]

/-- What a refused Run leaves: `Store` rolls back, `PostgresStore` commits. -/
def Backend.refused (b : Backend) (before after : Db) : Db :=
  match b with
  | .sqlite   => before
  | .postgres => after

/-- **A finalizer is `closing`**, and what follows an accepted Run touches execution requests only. -/
theorem exec_finalizer {b : Backend} {now : Time} {db : Db} {op : StoreOp} {c : Finalizer}
    (h : op.finalizer now db = some c) : ∃ f : Db → Table ExecutionRequestRow.executionId,
      op.exec b now db = Reply.ofFlag (closing db now c.update c.jobId c.fields
        (fun d => { d with executionRequests := f d }) (b.refused db)) ∧
      ∀ d, f d = d.executionRequests ∨ ∃ j n, f d = (Store.retireRequests d j n).executionRequests := by
  cases op with
  | finalizeRecovery j n token et e =>
    cases h
    refine ⟨fun d => (Store.retireRequests d j n).executionRequests, ?_, fun d => Or.inr ⟨j, n, rfl⟩⟩
    cases b with
    | sqlite => rfl
    | postgres => rw [StoreOp.exec, PostgresStore.finalizeRecovery_eq]; rfl
  | finalizeAttemptAndRun c =>
    cases h
    refine ⟨fun d => d.executionRequests, ?_, fun d => Or.inl rfl⟩
    cases b with
    | sqlite => rfl
    | postgres => rw [StoreOp.exec, PostgresStore.finalizeAttemptAndRun_eq]; rfl
  | _ => cases h

theorem Backend.refused_runs (b : Backend) (u : AttemptUpdate) (db : Db) :
    (b.refused db (u.exec db).1).runs = db.runs := by
  cases b <;> rfl

/-- The three ways a finalizer ends. -/
inductive FinalizerCase (b : Backend) (now : Time) (db : Db) (op : StoreOp) (c : Finalizer) : Prop
  | accepted (enabled : c.update.Enabled db) (has_run : db.runningRun c.jobId) (replied : op.reply b now db = .flag true)
      (rest : Table ExecutionRequestRow.executionId)
      (rest_eq : rest = db.executionRequests ∨ ∃ j n, rest = (Store.retireRequests db j n).executionRequests)
      (after_eq : op.after b now db =
        { ((c.update.exec db).1.updateRuns now c.jobId Store.runIsRunning c.fields).1 with executionRequests := rest })
  | noAttempt (not_enabled : ¬ c.update.Enabled db) (replied : op.reply b now db = .flag false)
      (after_eq : op.after b now db = db)
  | noRun (enabled : c.update.Enabled db) (no_run : ¬ db.runningRun c.jobId) (replied : op.reply b now db = .flag false)
      (after_eq : op.after b now db = b.refused db (c.update.exec db).1)

theorem finalizer_cases (b : Backend) {now : Time} {db : Db} {op : StoreOp} {c : Finalizer}
    (hop : op.finalizer now db = some c) : FinalizerCase b now db op c := by
  obtain ⟨f, hex, hf⟩ := exec_finalizer (b := b) hop
  have hafter := congrArg Prod.fst hex
  have hreply := congrArg Prod.snd hex
  simp only [Reply.ofFlag] at hafter hreply
  generalize hx : closing db now c.update c.jobId c.fields (fun d => { d with executionRequests := f d })
    (b.refused db) = x at hafter hreply
  cases hok : x.2 with
  | true =>
    rw [hok] at hreply
    rw [← hx] at hok
    obtain ⟨he, hr⟩ := closing_true_iff.1 hok
    refine .accepted he hr hreply (f ((c.update.exec db).1.updateRuns now c.jobId Store.runIsRunning c.fields).1)
      (hf _) ?_
    rw [StoreOp.after, hafter, ← hx, closing_of_true hok]
  | false =>
    rw [hok] at hreply
    rw [← hx] at hok
    rcases closing_of_false hok with ⟨he, h⟩ | ⟨he, hr, h⟩
    · exact .noAttempt he hreply (by rw [StoreOp.after, hafter, ← hx, h])
    · exact .noRun he hr hreply (by rw [StoreOp.after, hafter, ← hx, h])

theorem finalizer_runs {b : Backend} {now : Time} {db : Db} {op : StoreOp} (i : String) {c : Finalizer}
    (hop : op.finalizer now db = some c) : RunChange b now db op i := by
  cases finalizer_cases b hop with
  | accepted he hr hreply rest _ hafter =>
    obtain ⟨r, hr, hrun⟩ := hr
    have hget : (op.after b now db).runs.get i =
        ((c.update.exec db).1.updateRuns now c.jobId Store.runIsRunning c.fields).1.runs.get i := by rw [hafter]
    rw [Db.get_updateRuns, AttemptUpdate.exec_runs] at hget
    by_cases hi : c.jobId = i
    · subst hi
      refine .closed c r hop rfl he hr hrun ?_ hreply
      simp [hget, hr, Store.runIsRunning, hrun]
    · refine .same ?_
      rw [hget]
      cases db.runs.get i <;> simp [hi]
  | noAttempt _ _ hafter => exact .same (by rw [hafter])
  | noRun _ _ _ hafter => exact .same (by rw [hafter, Backend.refused_runs])

/-- **What a call can do to the row of one Run.** -/
theorem runs_after (b : Backend) (now : Time) (db : Db) (op : StoreOp) (i : String) : RunChange b now db op i := by
  cases op with
  | createRun j d f g h m p =>
    have hins := Store.insertRun_get db
      (Store.newRun now j d f g h (b.payload p)) i
    cases m with
    | none =>
      rcases hins with hs | ⟨hi, hn, hs, ht⟩
      · exact .same hs
      · obtain rfl : j = i := hi
        exact .created d f g h none p rfl hn hs (by
          simp [StoreOp.reply, StoreOp.exec, Store.createRun, Reply.ofCreate, ht])
    | some budget =>
      by_cases h₁ : (db.runs.get j).isSome
      · exact .same (by simp [StoreOp.after, StoreOp.exec, Store.createRun, Reply.ofCreate, h₁])
      · by_cases h₂ : budget ≤ Store.inFlight db
        · exact .same (by simp [StoreOp.after, StoreOp.exec, Store.createRun, Reply.ofCreate, h₁, h₂])
        · rcases hins with hs | ⟨hi, hn, hs, ht⟩
          · exact .same (by simpa [StoreOp.after, StoreOp.exec, Store.createRun, Reply.ofCreate, h₁, h₂] using hs)
          · obtain rfl : j = i := hi
            exact .created d f g h (some budget) p rfl hn
              (by simpa [StoreOp.after, StoreOp.exec, Store.createRun, Reply.ofCreate, h₁, h₂] using hs)
              (by simp [StoreOp.reply, StoreOp.exec, Store.createRun, Reply.ofCreate, h₁, h₂, ht])
  | updateRun j fields =>
    by_cases hf : fields = {}
    · exact .same (by simp [StoreOp.after, StoreOp.exec, Store.updateRun, hf])
    · by_cases hj : j = i
      · subst hj
        cases hr : db.runs.get j with
        | none => exact .same (by simp [StoreOp.after, StoreOp.exec, Store.updateRun, hf, Db.get_updateRuns, hr])
        | some r =>
          exact .updated fields r rfl hr
            (by simp [StoreOp.after, StoreOp.exec, Store.updateRun, hf, Db.get_updateRuns, hr])
      · refine .same ?_
        cases hr : db.runs.get i <;>
          simp [StoreOp.after, StoreOp.exec, Store.updateRun, hf, Db.get_updateRuns, hr, hj]
  | recordAttempt j n st et e ap rc =>
    refine .same ?_
    simp only [StoreOp.after, StoreOp.exec, Store.recordAttempt, Reply.ofExcept]
    split <;> rfl
  | startHostSession owner ttl =>
    refine .same ?_
    simp only [StoreOp.after, StoreOp.exec, Store.startHostSession, Reply.ofExcept]
    split <;> rfl
  | enqueueExecutionRequest e j n h p =>
    refine .same ?_
    simp only [StoreOp.after, StoreOp.exec, Store.enqueueExecutionRequest, Reply.ofFlag]
    split <;> rfl
  | claimExecutionRequest h s locked =>
    refine .same ?_
    simp only [StoreOp.after, StoreOp.exec, Store.claimExecutionRequest]
    split <;> rfl
  | recordTerminationWitness e kind code ap detail =>
    refine .same ?_
    simp only [StoreOp.after, StoreOp.exec, Store.recordTerminationWitness, Reply.ofFlag]
    split
    · rfl
    · split <;> rfl
  | claimNextRun locked =>
    cases b with
    | sqlite => exact .same rfl
    | postgres =>
      rcases PostgresStore.claimNextRun_get db now locked i with hs | ⟨r, hr, hq, hs, hp⟩
      · exact .same hs
      · exact .claimed locked r rfl rfl hr hq hs (by simp [StoreOp.reply, StoreOp.exec, hp])
  | releaseTerminalExecutionRequests => cases b <;> exact .same rfl
  | countActiveExecutionRequests h => cases b <;> exact .same rfl
  | finalizeRecovery j n token et e => exact finalizer_runs i rfl
  | finalizeAttemptAndRun c => exact finalizer_runs i rfl
  | _ => exact .same rfl

/-! ## What a call can do to one Attempt -/

inductive AttemptChange (b : Backend) (now : Time) (db : Db) (op : StoreOp) (k : String × Nat) : Prop
  | same (get_after : (op.after b now db).attempts.get k = db.attempts.get k)
  | recorded (st : AttemptStatus) (et e ap : Option String) (rc : Option RetryClass)
      (is_op : op = .recordAttempt k.1 k.2 st et e ap rc) (has_run : (db.runs.get k.1).isSome = true)
      (get_after : (op.after b now db).attempts.get k = some ((db.attempts.get k).elim
        (Store.newAttempt now k.1 k.2 st et e ap rc) (AttemptRow.setOutcome now st et e ap rc)))
  | updated (u : AttemptUpdate) (a : AttemptRow) (is_op : op.attemptUpdate now db = some u) (for_key : u.key = k)
      (get_before : db.attempts.get k = some a) (guarded : u.guard a = true)
      (get_after : (op.after b now db).attempts.get k = some (u.write a))
      (replied : op.reply b now db = .flag true ∨
        (b = .postgres ∧ op.reply b now db = .flag false ∧ ∃ c, op.finalizer now db = some c ∧ ¬ db.runningRun c.jobId))
  | renewed (s : String) (ttl : Time) (a : AttemptRow) (is_op : op = .heartbeatQueuedExecutionAttempts s ttl)
      (get_before : db.attempts.get k = some a) (guarded : Store.isQueuedDelivery db now s a = true)
      (get_after : (op.after b now db).attempts.get k = some (a.renew now ttl))

/-- A call that is one statement on `attempts`. -/
theorem statement_attempts {b : Backend} {now : Time} {db : Db} {op : StoreOp} (k : String × Nat) {u : AttemptUpdate}
    (hop : op.attemptUpdate now db = some u) (hex : op.exec b now db = Reply.ofFlag (u.exec db)) :
    AttemptChange b now db op k := by
  have hget := u.get_exec db k
  have hafter : op.after b now db = (u.exec db).1 := by rw [StoreOp.after, hex]; rfl
  cases hk : db.attempts.get k with
  | none => exact .same (by rw [hafter, hget, hk]; rfl)
  | some a =>
    by_cases hu : u.key = k ∧ u.guard a = true
    · refine .updated u a hop hu.1 hk hu.2 (by rw [hafter, hget, hk]; simp [hu]) (Or.inl ?_)
      rw [StoreOp.reply, hex, Reply.ofFlag, (u.exec_true_iff db).2 ⟨a, by rw [hu.1]; exact hk, hu.2⟩]
    · exact .same (by rw [hafter, hget, hk]; simp [hu])

theorem finalizer_attemptUpdate {now : Time} {db : Db} {op : StoreOp} {c : Finalizer}
    (h : op.finalizer now db = some c) : op.attemptUpdate now db = some c.update := by
  cases op with
  | finalizeRecovery j n token et e => cases h; rfl
  | finalizeAttemptAndRun c => cases h; rfl
  | _ => cases h

theorem finalizer_attempts {b : Backend} {now : Time} {db : Db} {op : StoreOp} (k : String × Nat) {c : Finalizer}
    (hop : op.finalizer now db = some c) : AttemptChange b now db op k := by
  have hget := c.update.get_exec db k
  -- where the first statement stands, it is what the whole call did to `attempts`
  have hstep : (op.after b now db).attempts = (c.update.exec db).1.attempts →
      (op.reply b now db = .flag true ∨ (b = .postgres ∧ op.reply b now db = .flag false ∧
        ∃ c, op.finalizer now db = some c ∧ ¬ db.runningRun c.jobId)) → AttemptChange b now db op k := by
    intro hat hr
    rw [← hat] at hget
    cases hk : db.attempts.get k with
    | none => exact .same (by rw [hget, hk]; rfl)
    | some a =>
      rw [hk] at hget
      by_cases hu : c.update.key = k ∧ c.update.guard a = true
      · exact .updated c.update a (finalizer_attemptUpdate hop) hu.1 hk hu.2 (by rw [hget]; simp [hu]) hr
      · exact .same (by rw [hget, hk]; simp [hu])
  cases finalizer_cases b hop with
  | accepted _ _ hreply rest _ hafter => exact hstep (by rw [hafter, Db.updateRuns_attempts]) (Or.inl hreply)
  | noAttempt _ _ hafter => exact .same (by rw [hafter])
  | noRun _ hrun hreply hafter =>
    cases b with
    | sqlite => exact .same (by rw [hafter]; rfl)
    | postgres => exact hstep (by rw [hafter]; rfl) (Or.inr ⟨rfl, hreply, c, hop, hrun⟩)

theorem Store.heartbeatQueuedExecutionAttempts_get (db : Db) (now : Time) (s : String) (ttl : Time) (k : String × Nat) :
    (Store.heartbeatQueuedExecutionAttempts db now s ttl).1.attempts.get k =
      (db.attempts.get k).map (fun a => if Store.isQueuedDelivery db now s a then a.renew now ttl else a) := by
  unfold Store.heartbeatQueuedExecutionAttempts
  rw [Table.get_updateWhere]

/-- **What a call can do to the row of one Attempt.** -/
theorem attempts_after (b : Backend) (now : Time) (db : Db) (op : StoreOp) (k : String × Nat) :
    AttemptChange b now db op k := by
  cases op with
  | createRun j d f g h m p =>
    have hins : ∀ r, (Store.insertRun db r).1.attempts = db.attempts := by
      intro r
      unfold Store.insertRun
      split <;> rfl
    refine .same ?_
    simp only [StoreOp.after, StoreOp.exec, Store.createRun, Reply.ofCreate]
    split
    · simp only [hins]
    · split
      · rfl
      · split
        · rfl
        · simp only [hins]
  | updateRun j fields =>
    refine .same ?_
    simp only [StoreOp.after, StoreOp.exec, Store.updateRun]
    split <;> rfl
  | recordAttempt j n st et e ap rc =>
    by_cases hr : (db.runs.get j).isSome
    · by_cases hk : (j, n) = k
      · subst hk
        refine .recorded st et e ap rc rfl hr ?_
        simp only [StoreOp.after, StoreOp.exec, Store.recordAttempt, Reply.ofExcept, hr, if_true]
        rw [Table.get_upsert]
        exact if_pos rfl
      · refine .same ?_
        simp only [StoreOp.after, StoreOp.exec, Store.recordAttempt, Reply.ofExcept, hr, if_true]
        rw [Table.get_upsert]
        exact if_neg hk
    · exact .same (by simp [StoreOp.after, StoreOp.exec, Store.recordAttempt, Reply.ofExcept, hr])
  | heartbeatQueuedExecutionAttempts s ttl =>
    have hget := Store.heartbeatQueuedExecutionAttempts_get db now s ttl k
    cases hk : db.attempts.get k with
    | none =>
      refine .same ?_
      rw [hk] at hget
      exact hget.trans hk.symm
    | some a =>
      rw [hk] at hget
      by_cases hq : Store.isQueuedDelivery db now s a = true
      · refine .renewed s ttl a rfl hk hq (hget.trans ?_)
        simp [hq]
      · refine .same (hget.trans ?_)
        simp [hq, hk]
  | acquireAttemptLease j n owner token ttl => exact statement_attempts k rfl rfl
  | heartbeatAttempt j n token ttl => exact statement_attempts k rfl rfl
  | recordAttemptProcess j n token pid at_ identity group deadline => exact statement_attempts k rfl rfl
  | recordAttemptExecution j n token owner e => exact statement_attempts k rfl rfl
  | transitionAttempt j n token st et e ap rc => exact statement_attempts k rfl rfl
  | claimRecovery j n owner token ttl => exact statement_attempts k rfl rfl
  | releaseRecoveryClaim j n token => exact statement_attempts k rfl rfl
  | finalizeRecovery j n token et e => exact finalizer_attempts k rfl
  | finalizeAttemptAndRun c => exact finalizer_attempts k rfl
  | startHostSession owner ttl =>
    refine .same ?_
    simp only [StoreOp.after, StoreOp.exec, Store.startHostSession, Reply.ofExcept]
    split <;> rfl
  | enqueueExecutionRequest e j n h p =>
    refine .same ?_
    simp only [StoreOp.after, StoreOp.exec, Store.enqueueExecutionRequest, Reply.ofFlag]
    split <;> rfl
  | claimExecutionRequest h s locked =>
    refine .same ?_
    simp only [StoreOp.after, StoreOp.exec, Store.claimExecutionRequest]
    split <;> rfl
  | recordTerminationWitness e kind code ap detail =>
    refine .same ?_
    simp only [StoreOp.after, StoreOp.exec, Store.recordTerminationWitness, Reply.ofFlag]
    split
    · rfl
    · split <;> rfl
  | claimNextRun locked =>
    refine .same ?_
    cases b with
    | sqlite => rfl
    | postgres =>
      simp only [StoreOp.after, StoreOp.exec, PostgresStore.claimNextRun]
      split <;> rfl
  | releaseTerminalExecutionRequests => cases b <;> exact .same rfl
  | countActiveExecutionRequests h => cases b <;> exact .same rfl
  | _ => exact .same rfl

/-- Every guard of a statement on one Attempt asks for `status = 'RUNNING'`. -/
theorem attemptUpdate_running {now : Time} {db : Db} {op : StoreOp} {u : AttemptUpdate} {a : AttemptRow}
    (h : op.attemptUpdate now db = some u) (hg : u.guard a = true) : a.status = .running := by
  have hrun : a.isRunning = true := by
    cases op with
    | finalizeRecovery j n token et e =>
      cases h
      simp only [Store.abandonAttempt, Bool.and_eq_true] at hg
      exact hg.1
    | finalizeAttemptAndRun c =>
      cases h
      simp only [Store.completeAttempt, Bool.and_eq_true] at hg
      exact hg.1.1.1.1
    | acquireAttemptLease => cases h; simp only [Store.acquireAttemptLease, Bool.and_eq_true] at hg; exact hg.1
    | heartbeatAttempt => cases h; simp only [Store.heartbeatAttempt, Bool.and_eq_true] at hg; exact hg.1.1
    | recordAttemptProcess => cases h; simp only [Store.recordAttemptProcess, Bool.and_eq_true] at hg; exact hg.1
    | recordAttemptExecution =>
      cases h; simp only [Store.recordAttemptExecution, Bool.and_eq_true] at hg; exact hg.1.1
    | transitionAttempt => cases h; simp only [Store.transitionAttempt, Bool.and_eq_true] at hg; exact hg.1.1.1
    | claimRecovery => cases h; simp only [Store.claimRecovery, Bool.and_eq_true] at hg; exact hg.1.1
    | releaseRecoveryClaim => cases h; simp only [Store.releaseRecoveryClaim, Bool.and_eq_true] at hg; exact hg.1
    | _ => cases h
  simpa [AttemptRow.isRunning] using hrun

/-- A statement on one Attempt replies a flag, and `True` only where its row met the guard. -/
theorem attemptUpdate_reply (b : Backend) {now : Time} {db : Db} {op : StoreOp} {u : AttemptUpdate}
    (h : op.attemptUpdate now db = some u) :
    ∃ ok, op.reply b now db = .flag ok ∧ (ok = true → u.Enabled db) := by
  have hone : op.exec b now db = Reply.ofFlag (u.exec db) →
      ∃ ok, op.reply b now db = .flag ok ∧ (ok = true → u.Enabled db) := by
    intro hex
    refine ⟨(u.exec db).2, by rw [StoreOp.reply, hex]; rfl, fun h => (u.exec_true_iff db).1 h⟩
  have htwo : ∀ c, op.finalizer now db = some c → c.update = u →
      ∃ ok, op.reply b now db = .flag ok ∧ (ok = true → u.Enabled db) := by
    rintro c hc rfl
    cases finalizer_cases b hc with
    | accepted he _ hreply _ _ _ => exact ⟨true, hreply, fun _ => he⟩
    | noAttempt _ hreply _ => exact ⟨false, hreply, fun h => by cases h⟩
    | noRun _ _ hreply _ => exact ⟨false, hreply, fun h => by cases h⟩
  cases op with
  | finalizeRecovery j n token et e => cases h; exact htwo _ rfl rfl
  | finalizeAttemptAndRun c => cases h; exact htwo _ rfl rfl
  | acquireAttemptLease => cases h; exact hone rfl
  | heartbeatAttempt => cases h; exact hone rfl
  | recordAttemptProcess => cases h; exact hone rfl
  | recordAttemptExecution => cases h; exact hone rfl
  | transitionAttempt => cases h; exact hone rfl
  | claimRecovery => cases h; exact hone rfl
  | releaseRecoveryClaim => cases h; exact hone rfl
  | _ => cases h

/-- No call deletes an Attempt. -/
theorem attempt_persists (b : Backend) (now : Time) (db : Db) (op : StoreOp) {k : String × Nat} {a : AttemptRow}
    (ha : db.attempts.get k = some a) : ∃ a', (op.after b now db).attempts.get k = some a' := by
  cases attempts_after b now db op k with
  | same h => exact ⟨a, by rw [h, ha]⟩
  | recorded _ _ _ _ _ _ _ hget => exact ⟨_, hget⟩
  | updated _ _ _ _ _ _ hget => exact ⟨_, hget⟩
  | renewed _ _ _ _ _ _ hget => exact ⟨_, hget⟩

end EdaLab
