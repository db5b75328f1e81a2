import EdaLab.Absorbing
/-!
# Admission — the shared budget of Runs in flight

`create_run` counts and inserts in one transaction, and inserts only below the budget; every operation but one moves a Run
within `QUEUED` and `RUNNING`, or out of them.  The one is the first write of `_execute`, which asks for nothing and so can
bring back a Run that a worker has closed: the budget is kept in exactly the runs where no such write is made while it is
used up (`shared_admission_budget_iff`).
-/
namespace EdaLab

open Relational

/-! ## What one call does to the count -/

/-- An assignment of a status that does not count. -/
def RunFields.closes (f : RunFields) : Bool :=
  match f.status with
  | some .queued  => false
  | some .running => false
  | some _        => true
  | none          => false

theorem RunFields.write_inFlight_of_closes {f : RunFields} (h : f.closes = true) (now : Time) (r : RunRow) :
    (f.write now r).inFlight = false := by
  unfold RunFields.closes at h
  unfold RunRow.inFlight RunFields.write
  split at h
  · cases h
  · cases h
  · rename_i st hq hr hst
    cases st <;> simp_all
  · cases h

/-- An `UPDATE runs` does not raise the count where the rows it matches count already, or do not count afterwards. -/
theorem inFlight_updateRuns_le (db : Db) (now : Time) (j : String) (guard : RunRow → Bool) (f : RunFields)
    (h : ∀ r, db.runs.get j = some r → guard r = true → r.inFlight = true ∨ f.closes = true) :
    Store.inFlight (db.updateRuns now j guard f).1 ≤ Store.inFlight db := by
  unfold Store.inFlight Db.updateRuns
  refine Table.countWhere_updateWhere_le _ _ _ (f.write_jobId now) _ ?_
  intro r hr hp hq
  simp only [Bool.and_eq_true, decide_eq_true_eq] at hp
  have hget : db.runs.get j = some r := Table.get_eq_some_iff.2 ⟨hr, hp.1⟩
  rcases h r hget hp.2 with hin | hclose
  · exact hin
  · rw [RunFields.write_inFlight_of_closes hclose] at hq
    cases hq

/-- What a finalizer does to the count: it asks for a `RUNNING` Run. -/
theorem inFlight_finalizer_le (b : Backend) {now : Time} {db : Db} {op : StoreOp} {c : Finalizer}
    (hop : op.finalizer now db = some c) : Store.inFlight (op.after b now db) ≤ Store.inFlight db := by
  cases finalizer_cases b hop with
  | accepted _ _ _ rest _ hafter =>
    rw [hafter]
    have hle := inFlight_updateRuns_le (c.update.exec db).1 now c.jobId Store.runIsRunning c.fields (by
      intro r _ hg
      left
      simp only [Store.runIsRunning, decide_eq_true_eq] at hg
      simp [RunRow.inFlight, hg])
    exact hle
  | noAttempt _ _ hafter => rw [hafter]
  | noRun _ _ _ hafter =>
    rw [hafter]
    unfold Store.inFlight
    rw [Backend.refused_runs]

theorem inFlight_claimNextRun_le (db : Db) (now : Time) (locked : List String) :
    Store.inFlight (PostgresStore.claimNextRun db now locked).1 ≤ Store.inFlight db := by
  unfold PostgresStore.claimNextRun
  cases h : PostgresStore.nextQueued db locked with
  | none => exact le_refl _
  | some candidate =>
    apply inFlight_updateRuns_le
    intro r hr _
    left
    have hm := List.argmin_mem h
    rw [List.mem_filter] at hm
    simp only [Bool.and_eq_true, decide_eq_true_eq] at hm
    rw [db.runs.get_of_mem hm.1] at hr
    cases hr
    simp [RunRow.inFlight, hm.2.1]

theorem insertRun_inFlight (db : Db) (r : RunRow) :
    Store.inFlight (Store.insertRun db r).1 ≤ Store.inFlight db + 1 := by
  unfold Store.insertRun
  cases h : db.runs.insertNew r with
  | none => exact Nat.le_succ _
  | some t =>
    unfold Store.inFlight
    simp only [Table.countWhere_insertNew h]
    split <;> omega

/-- What a `create_run` with a budget replies: whether the id is taken, and otherwise whether the budget is exhausted. -/
theorem createRun_reply (b : Backend) (now : Time) (db : Db) (j d i f : String) (h : Option String) (budget : Nat)
    (p : Option JobSpec) :
    (StoreOp.createRun j d i f h (some budget) p).reply b now db =
      if (db.runs.get j).isSome then .flag false
      else if budget ≤ Store.inFlight db then .raised .inFlightBudgetExhausted
      else .flag true := by
  by_cases hj : (db.runs.get j).isSome
  · simp [StoreOp.reply, StoreOp.exec, Store.createRun, Reply.ofCreate, hj]
  · by_cases hn : budget ≤ Store.inFlight db
    · simp [StoreOp.reply, StoreOp.exec, Store.createRun, Reply.ofCreate, hj, hn]
    · have hins : (Store.insertRun db (Store.newRun now j d i f h (b.payload p))).2 = true := by
        unfold Store.insertRun
        cases hx : db.runs.insertNew (Store.newRun now j d i f h (b.payload p)) with
        | some t => rfl
        | none => exact absurd (Table.insertNew_eq_none_iff.1 hx) hj
      simp [StoreOp.reply, StoreOp.exec, Store.createRun, Reply.ofCreate, hj, hn, hins]

/-- **An admission leaves the count within its budget.** -/
theorem createRun_inFlight (b : Backend) (now : Time) (db : Db) (j d i f : String) (h : Option String) (budget : Nat)
    (p : Option JobSpec) (hle : Store.inFlight db ≤ budget) :
    Store.inFlight ((StoreOp.createRun j d i f h (some budget) p).after b now db) ≤ budget := by
  simp only [StoreOp.after, StoreOp.exec, Store.createRun, Reply.ofCreate]
  split
  · exact hle
  · split
    · exact hle
    · rename_i hn
      have hins := insertRun_inFlight db (Store.newRun now j d i f h (b.payload p))
      show Store.inFlight (Store.insertRun db (Store.newRun now j d i f h (b.payload p))).1 ≤ budget
      omega

/-- **What a call can add to the count**: only an admission and an `update_run` can add anything. -/
theorem inFlight_after_le (b : Backend) (now : Time) (db : Db) (op : StoreOp)
    (hcreate : ∀ j d i f h m p, op ≠ .createRun j d i f h m p)
    (hupdate : ∀ j f r, op = .updateRun j f → db.runs.get j = some r → r.inFlight = true ∨ f.closes = true) :
    Store.inFlight (op.after b now db) ≤ Store.inFlight db := by
  cases op with
  | createRun j d i f h m p => exact absurd rfl (hcreate j d i f h m p)
  | updateRun j f =>
    simp only [StoreOp.after, StoreOp.exec, Store.updateRun]
    split
    · exact le_refl _
    · exact inFlight_updateRuns_le db now j _ f (fun r hr _ => hupdate j f r rfl hr)
  | finalizeRecovery j n token et e => exact inFlight_finalizer_le b rfl
  | finalizeAttemptAndRun c => exact inFlight_finalizer_le b rfl
  | claimNextRun locked =>
    cases b with
    | sqlite => exact le_refl _
    | postgres => exact inFlight_claimNextRun_le db now locked
  | recordAttempt j n st et e ap rc =>
    simp only [StoreOp.after, StoreOp.exec, Store.recordAttempt, Reply.ofExcept]
    split <;> exact le_refl _
  | startHostSession owner ttl =>
    simp only [StoreOp.after, StoreOp.exec, Store.startHostSession, Reply.ofExcept]
    split <;> exact le_refl _
  | enqueueExecutionRequest e j n h p =>
    simp only [StoreOp.after, StoreOp.exec, Store.enqueueExecutionRequest, Reply.ofFlag]
    split <;> exact le_refl _
  | claimExecutionRequest h s locked =>
    simp only [StoreOp.after, StoreOp.exec, Store.claimExecutionRequest]
    split <;> exact le_refl _
  | recordTerminationWitness e kind code ap detail =>
    simp only [StoreOp.after, StoreOp.exec, Store.recordTerminationWitness, Reply.ofFlag]
    split
    · exact le_refl _
    · split <;> exact le_refl _
  | releaseTerminalExecutionRequests => cases b <;> exact le_refl _
  | countActiveExecutionRequests h => cases b <;> exact le_refl _
  | _ => exact le_refl _

/-! ## The parties on one budget -/

/-- A step of a party, or a call of one of the operations that move Runs, with whatever arguments its caller has. -/
inductive AdmissionAct
  | party (a : Act)
  | store (op : StoreOp)

def StoreOp.movesRuns : StoreOp → Bool
  | .claimNextRun _            => true
  | .transitionAttempt ..      => true
  | .finalizeAttemptAndRun _   => true
  | .finalizeRecovery ..       => true
  | _                          => false

def Sys.admissionStep (cfg : Config) (s : Sys) : AdmissionAct → Option Sys
  | .party a  => Sys.step cfg s a
  | .store op => if op.movesRuns then some { s with db := op.after cfg.backend s.clock s.db } else none

/-- At most the budget is in flight, and a new id is refused only when exactly that many are. -/
structure Sys.WithinBudget (cfg : Config) (budget : Nat) (s : Sys) : Prop where
  within  : Store.inFlight s.db ≤ budget
  refused : ∀ i locked j d x f hash m p, (s.threads i).op cfg s locked = some (.createRun j d x f hash m p) →
    ((StoreOp.createRun j d x f hash m p).reply cfg.backend s.clock s.db = .raised .inFlightBudgetExhausted ↔
      s.db.runs.get j = none ∧ Store.inFlight s.db = budget)

/-- Every state of the run is within the budget. -/
def BudgetKept (cfg : Config) (budget : Nat) (s : Sys) (acts : List AdmissionAct) : Prop :=
  ∀ pre post m, acts = pre ++ post → Trace.run (Sys.admissionStep cfg) s pre = some m → m.WithinBudget cfg budget

/-- The first write of an `_execute` finds its Run closed. -/
def Sys.reopens (s : Sys) : AdmissionAct → Bool
  | .party (.call i fresh _) =>
    match s.threads i with
    | .exec _ spec .start => s.isFresh fresh && (s.db.runs.get spec.jobId).any (fun r => !r.inFlight)
    | _                   => false
  | _ => false

/-- A closed Run is brought back when the budget is used up. -/
def Sys.Overfills (budget : Nat) (s : Sys) (a : AdmissionAct) : Prop := s.reopens a = true ∧ Store.inFlight s.db = budget

instance (budget : Nat) (s : Sys) (a : AdmissionAct) :
    Decidable (s.Overfills budget a) := inferInstanceAs (Decidable (_ ∧ _))

theorem Sys.reopens_iff {s : Sys} {a : AdmissionAct} : s.reopens a = true ↔ ∃ i fresh locked svc spec r,
    a = .party (.call i fresh locked) ∧ s.isFresh fresh = true ∧ s.threads i = .exec svc spec .start ∧
    s.db.runs.get spec.jobId = some r ∧ r.inFlight = false := by
  constructor
  · intro h
    unfold Sys.reopens at h
    split at h
    · split at h
      · rename_i hth
        obtain ⟨hfresh, hany⟩ := Bool.and_eq_true_iff.1 h
        obtain ⟨r, hr, hclosed⟩ := (Option.any_eq_true _ _).1 hany
        exact ⟨_, _, _, _, _, r, rfl, hfresh, hth, hr, by simpa using hclosed⟩
      · cases h
    · cases h
  · rintro ⟨i, fresh, locked, svc, spec, r, rfl, hfresh, hth, hr, hclosed⟩
    simp only [Sys.reopens, hth, hfresh, hr, Option.any_some, hclosed, Bool.not_false, Bool.and_self]

/-- An unfenced write closes its Run, or is the first of an execution. -/
theorem Thread.op_updateRun_closes {cfg : Config} {s : Sys} {locked : List String} {th : Thread} {j : String}
    {f : RunFields} (h : th.op cfg s locked = some (.updateRun j f)) :
    f.closes = true ∨ ∃ svc spec, th = .exec svc spec .start ∧ spec.jobId = j := by
  cases Thread.op_cases h with
  | cancel svc => exact Or.inl rfl
  | scan svc r _ _ _ hr =>
    cases RecoverPc.op_cases hr with
    | failNoAttempt sc run => exact Or.inl rfl
  | exec svc spec pc _ hpc =>
    cases pc with
    | start => cases hpc; exact Or.inr ⟨svc, spec, rfl, rfl⟩
    | _ => cases hpc
  | submit svc spec pc _ hpc => cases pc <;> cases hpc
  | beat b pc _ hpc => cases pc <;> cases hpc
  | supervisor sup pc _ hpc => cases pc <;> cases hpc

/-- Only `submit` admits, with the budget of its service. -/
theorem Thread.op_createRun {cfg : Config} {s : Sys} {locked : List String} {th : Thread} {j d i f : String}
    {h : Option String} {m : Option Nat} {p : Option JobSpec}
    (hop : th.op cfg s locked = some (.createRun j d i f h m p)) :
    ∃ svc spec, th = .submit svc spec .create ∧ spec.jobId = j ∧ m = (cfg.service svc).maxInFlight ∧
      h = some (cfg.specHash spec) ∧ p = some spec := by
  cases Thread.op_cases hop with
  | submit svc spec pc _ hpc =>
    cases pc with
    | create => cases hpc; exact ⟨svc, spec, rfl, rfl, rfl, rfl, rfl⟩
    | _ => cases hpc
  | exec svc spec pc _ hpc => cases pc <;> cases hpc
  | scan svc r _ _ _ hr => cases RecoverPc.op_cases hr
  | beat b pc _ hpc => cases pc <;> cases hpc
  | supervisor sup pc _ hpc => cases pc <;> cases hpc

/-- **A closed Run that is brought back counts again.** -/
theorem inFlight_reopen (b : Backend) (now : Time) {db : Db} {j : String} {r : RunRow} (hr : db.runs.get j = some r)
    (hclosed : r.inFlight = false) :
    Store.inFlight ((StoreOp.updateRun j { status := some .running }).after b now db) = Store.inFlight db + 1 := by
  have hne : ¬ ({ status := some .running } : RunFields) = {} := by decide
  simp only [StoreOp.after, StoreOp.exec, Store.updateRun, if_neg hne]
  refine Table.countWhere_updateWhere_succ db.runs _ _ (RunFields.write_jobId _ now) _ (Table.mem_of_get hr) ?_ hclosed ?_
  · intro x hx
    simp only [Bool.and_true, decide_eq_true_eq]
    constructor
    · intro hj
      have hget := Table.get_eq_some_iff.2 ⟨hx, hj⟩
      rw [hr] at hget
      exact (Option.some.inj hget).symm
    · rintro rfl
      exact Table.key_of_get hr
  · simp [RunRow.inFlight, RunFields.write]

/-- **One step keeps the budget**, unless it brings a closed Run back when the budget is used up. -/
theorem admissionStep_inFlight {cfg : Config} {budget : Nat}
    (hbudget : ∀ svc, (cfg.service svc).maxInFlight = some budget) {s s' : Sys} {a : AdmissionAct}
    (hle : Store.inFlight s.db ≤ budget) (hno : ¬ s.Overfills budget a) (h : s.admissionStep cfg a = some s') :
    Store.inFlight s'.db ≤ budget := by
  cases a with
  | store op =>
    simp only [Sys.admissionStep] at h
    split at h
    · rename_i hmoves
      cases h
      refine le_trans (inFlight_after_le cfg.backend s.clock s.db op ?_ ?_) hle
      · rintro j d i f h m p rfl
        cases hmoves
      · rintro j f r rfl
        cases hmoves
    · cases h
  | party a =>
    simp only [Sys.admissionStep] at h
    rcases Sys.step_db h with hdb | ⟨i, fresh, locked, op, rfl, hc⟩
    · rw [hdb]
      exact hle
    rw [hc.db_eq]
    by_cases hcreate : ∃ j d x f hash m p, op = .createRun j d x f hash m p
    · obtain ⟨j, d, x, f, hash, m, p, rfl⟩ := hcreate
      obtain ⟨svc, spec, -, -, rfl, -, -⟩ := Thread.op_createRun hc.is_op
      rw [hbudget svc]
      exact createRun_inFlight cfg.backend s.clock s.db j d x f hash budget p hle
    by_cases hreopens : s.reopens (.party (.call i fresh locked)) = true
    · have hne : Store.inFlight s.db ≠ budget := fun hfull => hno ⟨hreopens, hfull⟩
      obtain ⟨_, _, _, svc, spec, r, heq, -, hth, hr, hclosed⟩ := Sys.reopens_iff.1 hreopens
      cases heq
      have hop := hc.is_op
      rw [hth] at hop
      cases hop
      rw [inFlight_reopen cfg.backend s.clock hr hclosed]
      omega
    · refine le_trans (inFlight_after_le cfg.backend s.clock s.db op ?_ ?_) hle
      · rintro j d x f hash m p rfl
        exact hcreate ⟨j, d, x, f, hash, m, p, rfl⟩
      · rintro j f r rfl hr
        rcases Thread.op_updateRun_closes hc.is_op with hclose | ⟨svc, spec, hth, rfl⟩
        · exact Or.inr hclose
        · left
          by_contra hclosed
          exact hreopens (Sys.reopens_iff.2
            ⟨i, fresh, locked, svc, spec, r, rfl, hc.is_fresh, hth, hr, Bool.eq_false_iff.2 hclosed⟩)

/-- A step that brings a closed Run back when the budget is used up can be taken, and leads beyond the budget. -/
theorem overfills_exceeds {cfg : Config} {budget : Nat} {s : Sys} {a : AdmissionAct} (h : s.Overfills budget a) :
    ∃ s', s.admissionStep cfg a = some s' ∧ Store.inFlight s'.db = budget + 1 := by
  obtain ⟨hreopens, hfull⟩ := h
  obtain ⟨i, fresh, locked, svc, spec, r, rfl, hfresh, hth, hr, hclosed⟩ := Sys.reopens_iff.1 hreopens
  have hop : (s.threads i).op cfg s locked = some (.updateRun spec.jobId { status := some .running }) := by
    rw [hth]
    rfl
  obtain ⟨s', hstep⟩ := Option.isSome_iff_exists.1 (Sys.call_isSome_iff.2 ⟨⟨_, hop⟩, hfresh⟩)
  obtain ⟨op, hc⟩ := Sys.call_some hstep
  have hsame := hc.is_op
  rw [hop] at hsame
  cases hsame
  exact ⟨s', hstep, by rw [hc.db_eq, inFlight_reopen cfg.backend s.clock hr hclosed, hfull]⟩

/-- A state with at most the budget in flight refuses as it should. -/
theorem withinBudget_iff {cfg : Config} {budget : Nat} (hbudget : ∀ svc, (cfg.service svc).maxInFlight = some budget)
    {s : Sys} : s.WithinBudget cfg budget ↔ Store.inFlight s.db ≤ budget := by
  refine ⟨fun h => h.within, fun hin => ⟨hin, ?_⟩⟩
  intro i locked j d x f hash m p hop
  obtain ⟨svc, spec, -, -, rfl, -, -⟩ := Thread.op_createRun hop
  rw [hbudget svc, createRun_reply]
  cases hj : s.db.runs.get j with
  | some r => simp
  | none =>
    by_cases hfull : budget ≤ Store.inFlight s.db
    · have : Store.inFlight s.db = budget := by omega
      simp [this]
    · have : Store.inFlight s.db ≠ budget := by omega
      simp [hfull, this]

/-- **The admission budget is kept in exactly the runs where no `_execute` brings a closed Run back when it is used up.** -/
theorem shared_admission_budget_iff (cfg : Config) (budget : Nat)
    (hbudget : ∀ svc, (cfg.service svc).maxInFlight = some budget) (s : Sys) (acts : List AdmissionAct)
    (hle : Store.inFlight s.db ≤ budget) : BudgetKept cfg budget s acts ↔
      Trace.Every (Sys.admissionStep cfg) (fun m a => ¬ m.Overfills budget a) s acts := by
  refine Trace.always_iff_every (P := fun _ => True) (D := fun _ _ => True) (fun _ _ _ _ _ _ => trivial) ?_ trivial
    ((withinBudget_iff hbudget).2 hle) (Trace.every_iff_forall_split.2 (fun _ _ _ _ _ _ => trivial))
  intro m a _ _ hm
  constructor
  · intro hall hover
    obtain ⟨m', hstep, hbeyond⟩ := overfills_exceeds hover
    have hwithin := (hall m' hstep).within
    omega
  · intro hno m' hstep
    exact (withinBudget_iff hbudget).2 (admissionStep_inFlight hbudget hm.within hno hstep)

/-! ### A Run that a worker closes before its own service starts it -/

/-- Service 0 executes what it submits. -/
def budgetConfig : Config where
  backend  := .postgres
  service  := fun svc => { workerService with
    executionMode := if svc = 0 then .local else .external
    maxInFlight := some 1 }
  specHash := fun spec => spec.jobId

def parties (acts : List Act) : List AdmissionAct := acts.map .party

/-- Service 0 submits the job and queues its execution, thread 5. -/
def queuedActs : List Act :=
  [.start 0 (.submit 0 timingSpec .lookup), .call 0 "a1" [], .advance 0 0 "a2" .go, .call 0 "a3" [], .advance 0 5 "a4" .go,
   .call 0 "a5" []]

/-- A worker, service 1, claims the Run, executes it as thread 2 and completes it. -/
def closedActs : List Act :=
  [.start 1 (.drain 1 ⟨none, 1, [], []⟩ .enter), .advance 1 0 "b1" .go, .advance 1 0 "b2" .go, .call 1 "b3" [],
   .call 1 "b4" [], .advance 1 0 "b5" .go, .advance 1 0 "b6" .go, .call 1 "b7" [], .advance 1 0 "b8" .go,
   .advance 1 0 "b9" .go, .call 1 "b10" [], .advance 1 2 "b11" .go, .advance 2 0 "c1" .go, .call 2 "c2" [],
   .call 2 "c3" [], .call 2 "c4" [], .advance 2 4 "c5" .go, .advance 2 0 "c6" (.returned timingReturn), .call 2 "c7" [],
   .call 2 "c8" []]

/-- Service 3 submits another job; the budget is free again. -/
def secondSubmitActs : List Act :=
  [.start 3 (.submit 3 { timingSpec with jobId := "second" } .lookup), .call 3 "d1" [], .advance 3 0 "d2" .go,
   .call 3 "d3" []]

def admittedActs : List AdmissionAct :=
  parties (queuedActs ++ closedActs ++ secondSubmitActs) ++ [.store (.claimNextRun [])]

/-- The execution of service 0 starts. -/
def reopeningActs : List AdmissionAct := parties [.advance 5 0 "e1" .go, .call 5 "e2" []]

def inFlightAfter (acts : List AdmissionAct) : Option Nat :=
  (Trace.run (Sys.admissionStep budgetConfig) Sys.init acts).map (fun s => Store.inFlight s.db)

theorem shared_admission_budget_admitted : BudgetKept budgetConfig 1 Sys.init admittedActs := by
  refine (shared_admission_budget_iff budgetConfig 1 (fun _ => rfl) Sys.init admittedActs (by decide)).2 ?_
  decide +kernel

/-- **Two Runs in flight on a budget of one.** -/
theorem reopened_run_overfills : ¬ BudgetKept budgetConfig 1 Sys.init (admittedActs ++ reopeningActs) := by
  intro h
  have htwo : inFlightAfter (admittedActs ++ reopeningActs) = some 2 := by decide +kernel
  obtain ⟨m, hm, hcount⟩ := Option.map_eq_some_iff.1 htwo
  have hwithin := (h _ [] m (List.append_nil _).symm hm).within
  omega

end EdaLab
