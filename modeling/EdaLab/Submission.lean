import EdaLab.Admission
import EdaLab.Scan
/-!
# Submission — one Run and one execution for each job id

Whatever the submits of any number of services interleave, the first `create_run` of a job id decides: it alone is
accepted, its spec's hash stays on the Run, its service alone hands the spec to the executor, and every other submit is
answered from the stored Run.
-/
namespace EdaLab

open Relational

/-! ## The Run of a job id -/

/-- No call takes a Run away, and none changes its hash. -/
theorem specHash_persists (b : Backend) (now : Time) (db : Db) (op : StoreOp) {j : String} {r : RunRow}
    (hr : db.runs.get j = some r) :
    ∃ r', (op.after b now db).runs.get j = some r' ∧ r'.specHash = r.specHash := by
  cases runs_after b now db op j with
  | same h => exact ⟨r, by rw [h, hr], rfl⟩
  | created _ _ _ _ _ _ _ hn => rw [hr] at hn; cases hn
  | updated fields r' _ hr' hget =>
    rw [hr] at hr'
    cases hr'
    exact ⟨_, hget, rfl⟩
  | claimed _ r' _ _ hr' _ hget =>
    rw [hr] at hr'
    cases hr'
    exact ⟨_, hget, rfl⟩
  | closed c r' _ _ _ hr' _ hget =>
    rw [hr] at hr'
    cases hr'
    exact ⟨_, hget, rfl⟩

/-- The Run of the job is stored with this hash. -/
def Db.hasRun (db : Db) (j : String) (hash : Option String) : Prop := ∃ r, db.runs.get j = some r ∧ r.specHash = hash

theorem Db.hasRun.after {db : Db} {j : String} {hash : Option String} (h : db.hasRun j hash) (b : Backend) (now : Time)
    (op : StoreOp) : (op.after b now db).hasRun j hash := by
  obtain ⟨r, hr, hh⟩ := h
  obtain ⟨r', hr', hh'⟩ := specHash_persists b now db op hr
  exact ⟨r', hr', hh'.trans hh⟩

theorem Sys.hasRun_step {cfg : Config} {s s' : Sys} {a : Act} {j : String} {hash : Option String}
    (h : s.db.hasRun j hash) (hstep : Sys.step cfg s a = some s') : s'.db.hasRun j hash := by
  rcases Sys.step_db hstep with hdb | ⟨i, fresh, locked, op, -, hc⟩
  · rw [hdb]
    exact h
  · rw [hc.db_eq]
    exact h.after cfg.backend s.clock op

theorem getRun_reply (b : Backend) (now : Time) (db : Db) (j : String) :
    (StoreOp.getRun j).reply b now db =
      .run ((db.runs.get j).map (fun r => ⟨r, (db.metrics.get j).map (·.payload), Store.attemptsOf db j⟩)) := rfl

/-- **What a `create_run` does**: it inserts the Run and says so, or it changes nothing. -/
theorem createRun_cases (b : Backend) (now : Time) (db : Db) (j d i f : String) (h : Option String) (m : Option Nat)
    (p : Option JobSpec) :
    ((StoreOp.createRun j d i f h m p).reply b now db = .flag true ∧ db.runs.get j = none ∧
      ((StoreOp.createRun j d i f h m p).after b now db).hasRun j h) ∨
    ((StoreOp.createRun j d i f h m p).after b now db = db ∧
      ((StoreOp.createRun j d i f h m p).reply b now db = .flag false ∧ (∃ r, db.runs.get j = some r) ∨
       (StoreOp.createRun j d i f h m p).reply b now db = .raised .inFlightBudgetExhausted)) := by
  -- the insert itself, and where the budget lets it come to that
  have hins : ∀ x, x = Store.insertRun db (Store.newRun now j d i f h (b.payload p)) →
      (x.2 = true ∧ db.runs.get j = none ∧ x.1.hasRun j h) ∨ (x.1 = db ∧ x.2 = false ∧ ∃ r, db.runs.get j = some r) := by
    rintro x rfl
    unfold Store.insertRun
    cases hx : db.runs.insertNew (Store.newRun now j d i f h (b.payload p)) with
    | none =>
      obtain ⟨r, hr⟩ := Option.isSome_iff_exists.1 (Table.insertNew_eq_none_iff.1 hx)
      exact Or.inr ⟨rfl, rfl, r, hr⟩
    | some t =>
      refine Or.inl ⟨rfl, Table.get_key_of_insertNew hx, Store.newRun now j d i f h (b.payload p), ?_, rfl⟩
      show t.get j = _
      rw [Table.get_insertNew hx]
      exact if_pos rfl
  have hdone : (StoreOp.createRun j d i f h m p).exec b now db =
        Reply.ofCreate ((Store.insertRun db (Store.newRun now j d i f h (b.payload p))).1,
          .ok (Store.insertRun db (Store.newRun now j d i f h (b.payload p))).2) →
      ((StoreOp.createRun j d i f h m p).reply b now db = .flag true ∧ db.runs.get j = none ∧
        ((StoreOp.createRun j d i f h m p).after b now db).hasRun j h) ∨
      ((StoreOp.createRun j d i f h m p).after b now db = db ∧
        ((StoreOp.createRun j d i f h m p).reply b now db = .flag false ∧ (∃ r, db.runs.get j = some r) ∨
         (StoreOp.createRun j d i f h m p).reply b now db = .raised .inFlightBudgetExhausted)) := by
    intro hex
    rw [StoreOp.reply, StoreOp.after, hex]
    rcases hins _ rfl with ⟨hok, hn, hrun⟩ | ⟨hdb, hno, hr⟩
    · exact Or.inl ⟨by rw [Reply.ofCreate, hok], hn, hrun⟩
    · exact Or.inr ⟨hdb, Or.inl ⟨by rw [Reply.ofCreate, hno], hr⟩⟩
  cases m with
  | none => exact hdone rfl
  | some budget =>
    by_cases hj : (db.runs.get j).isSome
    · refine Or.inr ⟨?_, Or.inl ⟨?_, Option.isSome_iff_exists.1 hj⟩⟩
      · simp [StoreOp.after, StoreOp.exec, Store.createRun, Reply.ofCreate, hj]
      · simp [StoreOp.reply, StoreOp.exec, Store.createRun, Reply.ofCreate, hj]
    · by_cases hfull : budget ≤ Store.inFlight db
      · refine Or.inr ⟨?_, Or.inr ?_⟩
        · simp [StoreOp.after, StoreOp.exec, Store.createRun, Reply.ofCreate, hj, hfull]
        · simp [StoreOp.reply, StoreOp.exec, Store.createRun, Reply.ofCreate, hj, hfull]
      · exact hdone (by simp [StoreOp.exec, Store.createRun, hj, hfull])

/-! ## What a step can do to a submit -/

inductive SubmitChange (cfg : Config) (s : Sys) (a : Act) (s' : Sys) (q svc : Nat) (spec : JobSpec) (pc' : SubmitPc) : Prop
  | same (was : s.threads q = .submit svc spec pc')
  | entered (is_act : a = .start q (.submit svc spec .lookup)) (was_none : (s.threads q).isNone = true)
      (pc_eq : pc' = .lookup)
  | called (pc : SubmitPc) (fresh : String) (locked : List String) (op : StoreOp) (was : s.threads q = .submit svc spec pc)
      (is_act : a = .call q fresh locked) (call : Sys.Called cfg s q fresh locked op s')
      (is_op : pc.op (cfg.service svc) cfg.specHash spec = some op)
      (pc_eq : pc' = pc.resume (cfg.service svc) cfg.specHash spec (op.reply cfg.backend s.clock s.db))
  | advanced (pc : SubmitPc) (eff : Effect) (was : s.threads q = .submit svc spec pc) (k : Nat) (fresh : String)
      (inp : Input) (is_act : a = .advance q k fresh inp)
      (adv : pc.advance (cfg.service svc) spec (s.inFlight svc) = some (pc', eff))

/-- A thread in a submit is a submit of that spec before the call or the step that took it there. -/
theorem Thread.resume_submit {cfg : Config} {s : Sys} {fresh : String} {reply : Reply} {th : Thread} {svc : Nat}
    {spec : JobSpec} {pc' : SubmitPc} (h : th.resume cfg s fresh reply = .submit svc spec pc') :
    ∃ pc, th = .submit svc spec pc ∧ pc' = pc.resume (cfg.service svc) cfg.specHash spec reply := by
  cases th with
  | submit v sp pc => cases h; exact ⟨pc, rfl, rfl⟩
  | _ => cases h

theorem Thread.advance_submit {cfg : Config} {s : Sys} {k : Nat} {fresh : String} {inp : Input} {th : Thread} {svc : Nat}
    {spec : JobSpec} {pc' : SubmitPc} {eff : Effect} (h : th.advance cfg s k fresh inp = some (.submit svc spec pc', eff)) :
    ∃ pc, th = .submit svc spec pc ∧ pc.advance (cfg.service svc) spec (s.inFlight svc) = some (pc', eff) := by
  cases th with
  | none => cases h
  | submit v sp pc =>
    obtain ⟨x, hx, hx'⟩ := Option.map_eq_some_iff.1 h
    cases hx'
    exact ⟨pc, rfl, hx⟩
  | _ =>
    obtain ⟨x, -, hx'⟩ := Option.map_eq_some_iff.1 h
    cases hx'

theorem submit_after {cfg : Config} {s s' : Sys} {a : Act} {q svc : Nat} {spec : JobSpec} {pc' : SubmitPc}
    (h : Sys.step cfg s a = some s') (hq : s'.threads q = .submit svc spec pc') :
    SubmitChange cfg s a s' q svc spec pc' := by
  cases thread_after q h with
  | same heq => exact .same (by rw [← heq, hq])
  | entered th hact hnone hentry heq =>
    rw [hq] at heq
    subst heq
    cases pc' with
    | lookup => exact .entered hact hnone rfl
    | _ => cases hentry
  | called fresh locked op hact hc heq =>
    obtain ⟨pc, hth, hpc⟩ := Thread.resume_submit (heq.symm.trans hq)
    have hop := hc.is_op
    rw [hth] at hop
    exact .called pc fresh locked op hth hact hc hop hpc
  | advanced k fresh inp th eff hact hadv heq =>
    rw [hq] at heq
    subst heq
    obtain ⟨pc, hth, hpc⟩ := Thread.advance_submit hadv.advance_eq
    exact .advanced pc eff hth k fresh inp hact hpc
  | executed _ _ _ _ _ _ _ _ _ _ heq => rw [hq] at heq; cases heq
  | beat _ _ _ _ _ _ _ _ _ _ heq => rw [hq] at heq; cases heq
  | cancelled _ _ _ heq => rw [hq] at heq; cases heq

/-! ## What the program counter of a submit says about the store -/

/-- What holds of the database while a submit of `spec` is here. -/
def SubmitPc.Agrees (specHash : JobSpec → String) (spec : JobSpec) (db : Db) : SubmitPc → Prop
  | lookup | limit | create | backpressure => True
  | reread              => ∃ hash, db.hasRun spec.jobId hash
  | dispatch | readback => db.hasRun spec.jobId (some (specHash spec))
  | returned v          =>
    db.hasRun spec.jobId (some (specHash spec)) ∧
      ∃ x, v = some x ∧ x.run.jobId = spec.jobId ∧ x.run.specHash = some (specHash spec)
  | conflict            => ∃ hash, db.hasRun spec.jobId hash ∧ hash ≠ some (specHash spec)
  | raised              => False

theorem SubmitPc.Agrees.mono {specHash : JobSpec → String} {spec : JobSpec} {db db' : Db} {pc : SubmitPc}
    (hdb : ∀ hash, db.hasRun spec.jobId hash → db'.hasRun spec.jobId hash) (h : pc.Agrees specHash spec db) :
    pc.Agrees specHash spec db' := by
  cases pc with
  | reread =>
    obtain ⟨hash, hrun⟩ := h
    exact ⟨hash, hdb hash hrun⟩
  | dispatch => exact hdb _ h
  | readback => exact hdb _ h
  | returned v => exact ⟨hdb _ h.1, h.2⟩
  | conflict =>
    obtain ⟨hash, hrun, hne⟩ := h
    exact ⟨hash, hdb hash hrun, hne⟩
  | raised => exact h
  | _ => trivial

/-- An answer from the stored Run. -/
theorem SubmitPc.existing_agrees {specHash : JobSpec → String} {spec : JobSpec} {db : Db} {v : RunView}
    (hv : db.runs.get spec.jobId = some v.run) : (existing specHash spec v).Agrees specHash spec db := by
  unfold existing
  split
  · rename_i hne
    exact ⟨v.run.specHash, ⟨v.run, hv, rfl⟩, hne⟩
  · rename_i heq
    have hhash : v.run.specHash = some (specHash spec) := not_not.1 heq
    exact ⟨⟨v.run, hv, hhash⟩, v, rfl, Table.key_of_get hv, hhash⟩

/-- The view `get_run` gives of a Run that is there. -/
theorem getRun_view (b : Backend) (now : Time) {db : Db} {j : String} {r : RunRow} (hr : db.runs.get j = some r) :
    ∃ v, (StoreOp.getRun j).reply b now db = .run (some v) ∧ v.run = r := by
  rw [getRun_reply, hr]
  exact ⟨_, rfl, rfl⟩

/-- **A call of a submit keeps what its program counter says.** -/
theorem SubmitPc.resume_agrees (b : Backend) (now : Time) {db : Db} {svc : Service} {specHash : JobSpec → String}
    {spec : JobSpec} {pc : SubmitPc} {op : StoreOp} (hop : pc.op svc specHash spec = some op)
    (h : pc.Agrees specHash spec db) :
    (pc.resume svc specHash spec (op.reply b now db)).Agrees specHash spec (op.after b now db) := by
  cases pc with
  | lookup =>
    cases hop
    cases hr : db.runs.get spec.jobId with
    | none =>
      have hreply : (StoreOp.getRun spec.jobId).reply b now db = .run none := by
        rw [getRun_reply, hr]
        rfl
      simp only [resume, hreply]
      trivial
    | some r =>
      obtain ⟨v, hreply, rfl⟩ := getRun_view b now hr
      simp only [resume, hreply]
      exact existing_agrees hr
  | create =>
    cases hop
    rcases createRun_cases b now db spec.jobId spec.designId spec.ipFamily spec.flowName (some (specHash spec))
      svc.maxInFlight (some spec) with ⟨hreply, -, hrun⟩ | ⟨hdb, hreply | hreply⟩
    · simp only [resume, hreply]
      split <;> exact hrun
    · obtain ⟨hreply, r, hr⟩ := hreply
      simp only [resume, hreply]
      rw [hdb]
      exact ⟨r.specHash, r, hr, rfl⟩
    · simp only [resume, hreply]
      trivial
  | reread =>
    cases hop
    obtain ⟨hash, r, hr, -⟩ := h
    obtain ⟨v, hreply, rfl⟩ := getRun_view b now hr
    simp only [resume, hreply]
    exact existing_agrees hr
  | readback =>
    cases hop
    obtain ⟨r, hr, hhash⟩ := h
    obtain ⟨v, hreply, rfl⟩ := getRun_view b now hr
    simp only [resume, hreply]
    exact ⟨⟨v.run, hr, hhash⟩, v, rfl, Table.key_of_get hr, hhash⟩
  | _ => cases hop

theorem SubmitPc.advance_agrees {svc : Service} {specHash : JobSpec → String} {spec : JobSpec} {n : Nat}
    {pc pc' : SubmitPc} {eff : Effect} {db : Db} (h : pc.Agrees specHash spec db)
    (hadv : pc.advance svc spec n = some (pc', eff)) : pc'.Agrees specHash spec db := by
  cases pc with
  | limit =>
    simp only [advance] at hadv
    split at hadv
    · cases hadv; trivial
    · split at hadv <;> cases hadv <;> trivial
  | dispatch => cases hadv; exact h
  | _ => cases hadv

/-- Every submit under way agrees with the store. -/
def SubmitsAgree (cfg : Config) (s : Sys) : Prop :=
  ∀ i svc spec pc, s.threads i = .submit svc spec pc → pc.Agrees cfg.specHash spec s.db

theorem submitsAgree_step {cfg : Config} {s s' : Sys} {a : Act} (hi : SubmitsAgree cfg s)
    (h : Sys.step cfg s a = some s') : SubmitsAgree cfg s' := by
  intro q svc spec pc' hq
  have hkeep : ∀ hash, s.db.hasRun spec.jobId hash → s'.db.hasRun spec.jobId hash := fun hash hr => Sys.hasRun_step hr h
  cases submit_after h hq with
  | same hwas => exact (hi q svc spec pc' hwas).mono hkeep
  | entered _ _ hpc => rw [hpc]; trivial
  | called pc fresh locked op hwas hact hc hop hpc =>
    rw [hpc, hc.db_eq]
    exact SubmitPc.resume_agrees cfg.backend s.clock hop (hi q svc spec pc hwas)
  | advanced pc eff hwas k fresh inp hact hadv =>
    exact (SubmitPc.advance_agrees (hi q svc spec pc hwas) hadv).mono hkeep

/-! ## At most one creation, at most one execution -/

/-- A `create_run` of the job that returns `True`. -/
def Sys.creates (cfg : Config) (j : String) (s : Sys) : Act → Bool
  | .call i _ locked =>
    match (s.threads i).op cfg s locked with
    | some (.createRun k d x f h m p) =>
      decide (k = j) && decide ((StoreOp.createRun k d x f h m p).reply cfg.backend s.clock s.db = .flag true)
    | _ => false
  | _ => false

/-- A submit hands the job to the executor of its service. -/
def Sys.dispatches (j : String) (s : Sys) : Act → Bool
  | .advance i _ _ _ =>
    match s.threads i with
    | .submit _ spec .dispatch => decide (spec.jobId = j)
    | _                        => false
  | _ => false

theorem Sys.creates_eq {cfg : Config} {j : String} {s : Sys} {a : Act} (h : s.creates cfg j a = true) :
    ∃ i fresh locked svc spec, a = .call i fresh locked ∧ s.threads i = .submit svc spec .create ∧ spec.jobId = j ∧
      (StoreOp.createRun spec.jobId spec.designId spec.ipFamily spec.flowName (some (cfg.specHash spec))
        (cfg.service svc).maxInFlight (some spec)).reply cfg.backend s.clock s.db = .flag true := by
  cases a with
  | call i fresh locked =>
    simp only [Sys.creates] at h
    split at h
    · rename_i k d x f hash m p hop
      simp only [Bool.and_eq_true, decide_eq_true_eq] at h
      obtain ⟨svc, spec, hth, rfl, -, -, -⟩ := Thread.op_createRun hop
      rw [hth] at hop
      cases hop
      exact ⟨i, fresh, locked, svc, spec, rfl, hth, h.1, h.2⟩
    · cases h
  | _ => cases h

theorem Sys.dispatches_eq {j : String} {s : Sys} {a : Act} (h : s.dispatches j a = true) :
    ∃ i k fresh inp svc spec, a = .advance i k fresh inp ∧ s.threads i = .submit svc spec .dispatch ∧ spec.jobId = j := by
  cases a with
  | advance i k fresh inp =>
    simp only [Sys.dispatches] at h
    split at h
    · rename_i svc spec hth
      exact ⟨i, k, fresh, inp, svc, spec, rfl, hth, by simpa using h⟩
    · cases h
  | _ => cases h

/-- The Run of a job that a `create_run` has just been accepted for. -/
theorem created_hasRun {cfg : Config} {s s' : Sys} {i : Nat} {fresh : String} {locked : List String} {svc : Nat}
    {spec : JobSpec} (hth : s.threads i = .submit svc spec .create)
    (hreply : (StoreOp.createRun spec.jobId spec.designId spec.ipFamily spec.flowName (some (cfg.specHash spec))
      (cfg.service svc).maxInFlight (some spec)).reply cfg.backend s.clock s.db = .flag true)
    (h : Sys.step cfg s (.call i fresh locked) = some s') :
    s.db.runs.get spec.jobId = none ∧ s'.db.hasRun spec.jobId (some (cfg.specHash spec)) := by
  obtain ⟨op, hc⟩ := Sys.call_some h
  have hop := hc.is_op
  rw [hth] at hop
  cases hop
  rw [hc.db_eq]
  rcases createRun_cases cfg.backend s.clock s.db spec.jobId spec.designId spec.ipFamily spec.flowName
    (some (cfg.specHash spec)) (cfg.service svc).maxInFlight (some spec) with ⟨-, hn, hrun⟩ | ⟨-, ⟨hno, -⟩ | hno⟩
  · exact ⟨hn, hrun⟩
  · rw [hno] at hreply; cases hreply
  · rw [hno] at hreply; cases hreply

/-- A job whose Run is there is not created. -/
theorem Sys.creates_of_hasRun {cfg : Config} {j : String} {s : Sys} (a : Act) (h : ∃ hash, s.db.hasRun j hash) :
    s.creates cfg j a = false := by
  obtain ⟨hash, r, hr, -⟩ := h
  cases hc : s.creates cfg j a with
  | false => rfl
  | true =>
    obtain ⟨i, fresh, locked, svc, spec, rfl, hth, rfl, hreply⟩ := Sys.creates_eq hc
    rcases createRun_cases cfg.backend s.clock s.db spec.jobId spec.designId spec.ipFamily spec.flowName
      (some (cfg.specHash spec)) (cfg.service svc).maxInFlight (some spec) with ⟨-, hn, -⟩ | ⟨-, ⟨hno, -⟩ | hno⟩
    · rw [hr] at hn; cases hn
    · rw [hno] at hreply; cases hreply
    · rw [hno] at hreply; cases hreply

/-- The threads about to hand the job to an executor: one at most, and only once its Run is there. -/
structure DispatchInv (j : String) (s : Sys) : Prop where
  has_run : ∀ i svc spec, s.threads i = .submit svc spec .dispatch → spec.jobId = j → ∃ hash, s.db.hasRun j hash
  unique : ∀ i svc spec i' svc' spec', s.threads i = .submit svc spec .dispatch → spec.jobId = j →
    s.threads i' = .submit svc' spec' .dispatch → spec'.jobId = j → i' = i

/-- How a submit comes to `dispatch`: it was there, or its `create_run` has just been accepted. -/
theorem dispatch_after {cfg : Config} {s s' : Sys} {a : Act} {q svc : Nat} {spec : JobSpec}
    (h : Sys.step cfg s a = some s') (hq : s'.threads q = .submit svc spec .dispatch) :
    s.threads q = .submit svc spec .dispatch ∨
    (s.creates cfg spec.jobId a = true ∧ (∃ fresh locked, a = .call q fresh locked) ∧
      s.db.runs.get spec.jobId = none ∧ ∃ hash, s'.db.hasRun spec.jobId hash) := by
  cases submit_after h hq with
  | same hwas => exact Or.inl hwas
  | entered _ _ hpc => cases hpc
  | advanced pc eff hwas k fresh inp hact hadv =>
    cases pc with
    | limit =>
      simp only [SubmitPc.advance] at hadv
      split at hadv
      · cases hadv
      · split at hadv <;> cases hadv
    | _ => cases hadv
  | called pc fresh locked op hwas hact hc hop hpc =>
    cases pc with
    | create =>
      cases hop
      have hreply : (StoreOp.createRun spec.jobId spec.designId spec.ipFamily spec.flowName (some (cfg.specHash spec))
          (cfg.service svc).maxInFlight (some spec)).reply cfg.backend s.clock s.db = .flag true := by
        simp only [SubmitPc.resume] at hpc
        split at hpc
        · assumption
        · cases hpc
        · cases hpc
      subst hact
      obtain ⟨hn, hrun⟩ := created_hasRun hwas hreply h
      refine Or.inr ⟨?_, ⟨fresh, locked, rfl⟩, hn, _, hrun⟩
      have hcop := hc.is_op
      simp only [Sys.creates, hcop]
      simp [hreply]
    | lookup =>
      cases hop
      simp only [SubmitPc.resume, SubmitPc.existing] at hpc
      split at hpc
      · split at hpc <;> cases hpc
      · cases hpc
    | reread =>
      cases hop
      simp only [SubmitPc.resume, SubmitPc.existing] at hpc
      split at hpc
      · split at hpc <;> cases hpc
      · cases hpc
    | readback =>
      cases hop
      simp only [SubmitPc.resume] at hpc
      split at hpc <;> cases hpc
    | _ => cases hop

/-- The submit of a dispatch goes on to read the Run back. -/
theorem dispatched_thread {cfg : Config} {s s' : Sys} {i k : Nat} {fresh : String} {inp : Input} {svc : Nat}
    {spec : JobSpec} (hth : s.threads i = .submit svc spec .dispatch)
    (h : Sys.step cfg s (.advance i k fresh inp) = some s') : s'.threads i = .submit svc spec .readback := by
  obtain ⟨th, eff, hadv, happ⟩ := Sys.proceed_some h
  have hadvance := hadv.advance_eq
  rw [hth] at hadvance
  cases hadvance
  cases Sys.apply_cases happ with
  | execute _ svc' _ hnone =>
    have hne : i ≠ k := by
      rintro rfl
      simp [Sys.put, Thread.isNone] at hnone
    simp [Sys.execute, Sys.put, hne]

theorem dispatchInv_step {cfg : Config} {j : String} {s s' : Sys} {a : Act} (hi : DispatchInv j s)
    (h : Sys.step cfg s a = some s') : DispatchInv j s' where
  has_run := by
    rintro i svc spec hth rfl
    rcases dispatch_after h hth with hwas | ⟨-, -, -, hrun⟩
    · obtain ⟨hash, hrun⟩ := hi.has_run i svc spec hwas rfl
      exact ⟨hash, Sys.hasRun_step hrun h⟩
    · exact hrun
  unique := by
    rintro i svc spec i' svc' spec' hth rfl hth' hj
    -- a thread that comes to `dispatch` finds no Run, so no other thread can have been there
    rcases dispatch_after h hth with hwas | ⟨-, ⟨fresh, locked, hact⟩, hn, -⟩
    · rcases dispatch_after h hth' with hwas' | ⟨-, -, hn, -⟩
      · exact hi.unique i svc spec i' svc' spec' hwas rfl hwas' hj
      · obtain ⟨hash, r, hr, -⟩ := hi.has_run i svc spec hwas rfl
        rw [hj, hr] at hn
        cases hn
    · rcases dispatch_after h hth' with hwas' | ⟨-, ⟨fresh', locked', hact'⟩, -, -⟩
      · obtain ⟨hash, r, hr, -⟩ := hi.has_run i' svc' spec' hwas' hj
        rw [hr] at hn
        cases hn
      · rw [hact] at hact'
        cases hact'
        rfl

/-- **At most one `create_run` of a job id returns `True`.** -/
theorem creates_le_one (cfg : Config) (j : String) (s : Sys) (acts : List Act) :
    Trace.count (Sys.step cfg) (Sys.creates cfg j) s acts ≤ 1 := by
  refine Trace.count_le_one (P := fun _ => True) (Q := fun s => ∃ hash, s.db.hasRun j hash)
    (fun _ _ _ _ _ => trivial) ?_ (fun s a hq => Sys.creates_of_hasRun a hq) ?_ trivial
  · rintro s₁ a s₂ - ⟨hash, hrun⟩ hstep
    exact ⟨hash, Sys.hasRun_step hrun hstep⟩
  · intro s₁ a s₂ _ hevent hstep
    obtain ⟨i, fresh, locked, svc, spec, rfl, hth, rfl, hreply⟩ := Sys.creates_eq hevent
    exact ⟨_, (created_hasRun hth hreply hstep).2⟩

/-- **At most one submit hands the job to an executor.** -/
theorem dispatches_le_one (cfg : Config) (j : String) {s : Sys} (hi : DispatchInv j s) (acts : List Act) :
    Trace.count (Sys.step cfg) (Sys.dispatches j) s acts ≤ 1 := by
  refine Trace.count_le_one (P := DispatchInv j)
    (Q := fun s => (∃ hash, s.db.hasRun j hash) ∧ ∀ i svc spec, s.threads i = .submit svc spec .dispatch → spec.jobId ≠ j)
    (fun _ _ _ hs hstep => dispatchInv_step hs hstep) ?_ ?_ ?_ hi
  · rintro s₁ a s₂ - ⟨⟨hash, hrun⟩, hnone⟩ hstep
    refine ⟨⟨hash, Sys.hasRun_step hrun hstep⟩, ?_⟩
    rintro i svc spec hth rfl
    rcases dispatch_after hstep hth with hwas | ⟨-, -, hn, -⟩
    · exact hnone i svc spec hwas rfl
    · obtain ⟨r, hr, -⟩ := hrun
      rw [hr] at hn
      cases hn
  · rintro s₁ a ⟨-, hnone⟩
    cases hd : s₁.dispatches j a with
    | false => rfl
    | true =>
      obtain ⟨i, k, fresh, inp, svc, spec, -, hth, hj⟩ := Sys.dispatches_eq hd
      exact absurd hj (hnone i svc spec hth)
  · intro s₁ a s₂ hs hevent hstep
    obtain ⟨i, k, fresh, inp, svc, spec, rfl, hth, rfl⟩ := Sys.dispatches_eq hevent
    obtain ⟨hash, hrun⟩ := hs.has_run i svc spec hth rfl
    refine ⟨⟨hash, Sys.hasRun_step hrun hstep⟩, ?_⟩
    rintro i' svc' spec' hth' hj
    rcases dispatch_after hstep hth' with hwas | ⟨hcreate, -, -, -⟩
    · obtain rfl : i' = i := hs.unique i svc spec i' svc' spec' hth rfl hwas hj
      rw [dispatched_thread hth hstep] at hth'
      cases hth'
    · cases hcreate

/-! ## What a refused submit leaves -/

/-- The submit whose `create_run` was accepted, from there on. -/
def SubmitPc.accepted : SubmitPc → Bool
  | dispatch | readback | returned _ | raised => true
  | _                                         => false

/-- A submit that found the Run of its job, from the first read on. -/
def SubmitPc.found : SubmitPc → Bool
  | lookup | returned _ | conflict => true
  | _                              => false

theorem SubmitPc.existing_found (specHash : JobSpec → String) (spec : JobSpec) (v : RunView) :
    (existing specHash spec v).found = true := by
  unfold existing
  split <;> rfl

/-- Thread `q` is a party, and if it is a submit then one of `spec` with `p`. -/
def SubmitHas (q : Nat) (p : JobSpec → SubmitPc → Prop) (s : Sys) : Prop :=
  (s.threads q).isNone = false ∧ ∀ svc spec pc, s.threads q = .submit svc spec pc → p spec pc

/-- **The rule for what a submit keeps**: its own calls keep it and its own other steps keep it. -/
theorem submitHas_step {cfg : Config} {s s' : Sys} {a : Act} {q : Nat} {p : JobSpec → SubmitPc → Prop}
    (hcall : ∀ svc spec pc op, p spec pc → pc.op (cfg.service svc) cfg.specHash spec = some op →
      p spec (pc.resume (cfg.service svc) cfg.specHash spec (op.reply cfg.backend s.clock s.db)))
    (hadvance : ∀ svc spec pc pc' n eff, p spec pc → pc.advance (cfg.service svc) spec n = some (pc', eff) → p spec pc')
    (hi : SubmitHas q p s) (h : Sys.step cfg s a = some s') : SubmitHas q p s' := by
  refine ⟨thread_persists q h hi.1, ?_⟩
  intro svc spec pc' hq
  cases submit_after h hq with
  | same hwas => exact hi.2 svc spec pc' hwas
  | entered _ hnone => rw [hi.1] at hnone; cases hnone
  | called pc fresh locked op hwas _ _ hop hpc =>
    rw [hpc]
    exact hcall svc spec pc op (hi.2 svc spec pc hwas) hop
  | advanced pc eff hwas k fresh inp _ hadv => exact hadvance svc spec pc pc' _ eff (hi.2 svc spec pc hwas) hadv

theorem accepted_step {cfg : Config} {s s' : Sys} {a : Act} {q : Nat}
    (hi : SubmitHas q (fun _ pc => pc.accepted = true) s) (h : Sys.step cfg s a = some s') :
    SubmitHas q (fun _ pc => pc.accepted = true) s' := by
  refine submitHas_step ?_ ?_ hi h
  · intro svc spec pc op hpc hop
    cases pc with
    | readback =>
      simp only [SubmitPc.resume]
      split <;> rfl
    | dispatch => cases hop
    | returned v => cases hop
    | raised => cases hop
    | _ => cases hpc
  · intro svc spec pc pc' n eff hpc hadv
    cases pc with
    | dispatch => cases hadv; rfl
    | limit => cases hpc
    | _ => cases hadv

theorem found_step {cfg : Config} {s s' : Sys} {a : Act} {q : Nat} {j : String}
    (hi : (∃ hash, s.db.hasRun j hash) ∧ SubmitHas q (fun spec pc => spec.jobId = j ∧ pc.found = true) s)
    (h : Sys.step cfg s a = some s') :
    (∃ hash, s'.db.hasRun j hash) ∧ SubmitHas q (fun spec pc => spec.jobId = j ∧ pc.found = true) s' := by
  obtain ⟨⟨hash, hrun⟩, hi⟩ := hi
  refine ⟨⟨hash, Sys.hasRun_step hrun h⟩, submitHas_step ?_ ?_ hi h⟩
  · rintro svc spec pc op ⟨rfl, hpc⟩ hop
    refine ⟨rfl, ?_⟩
    cases pc with
    | lookup =>
      cases hop
      obtain ⟨r, hr, -⟩ := hrun
      obtain ⟨v, hreply, -⟩ := getRun_view cfg.backend s.clock hr
      simp only [SubmitPc.resume, hreply]
      exact SubmitPc.existing_found cfg.specHash spec v
    | returned v => cases hop
    | conflict => cases hop
    | _ => cases hpc
  · rintro svc spec pc pc' n eff ⟨rfl, hpc⟩ hadv
    cases pc with
    | limit => cases hpc
    | dispatch => cases hpc
    | _ => cases hadv

/-- A call of a submit that changes the database is its accepted `create_run`. -/
theorem submit_call_changes {cfg : Config} {s s' : Sys} {q : Nat} {fresh : String} {locked : List String}
    (h : Sys.step cfg s (.call q fresh locked) = some s') (hne : s'.db ≠ s.db) :
    SubmitHas q (fun _ pc => pc.accepted = true) s' := by
  obtain ⟨op, hc⟩ := Sys.call_some h
  have hthread : s'.threads q = (s.threads q).resume cfg s fresh (op.reply cfg.backend s.clock s.db) := by
    rw [hc.threads_eq, Function.update_self]
  have hparty : (s.threads q).isNone = false := by
    have hop := hc.is_op
    cases hth : s.threads q with
    | none => rw [hth] at hop; cases hop
    | _ => rfl
  refine ⟨thread_persists q h hparty, ?_⟩
  intro svc spec pc' hq
  obtain ⟨pc, hth, rfl⟩ := Thread.resume_submit (hthread.symm.trans hq)
  have hop := hc.is_op
  rw [hth] at hop
  have hdb := hc.db_eq
  cases pc with
  | create =>
    cases hop
    rcases createRun_cases cfg.backend s.clock s.db spec.jobId spec.designId spec.ipFamily spec.flowName
      (some (cfg.specHash spec)) (cfg.service svc).maxInFlight (some spec) with ⟨hreply, -, -⟩ | ⟨hsame, -⟩
    · simp only [SubmitPc.resume, hreply]
      split <;> rfl
    · exact absurd (hdb.trans hsame) hne
  | lookup => cases hop; exact absurd hdb hne
  | reread => cases hop; exact absurd hdb hne
  | readback => cases hop; exact absurd hdb hne
  | _ => cases hop

/-! ## A submit ends -/

def SubmitPc.ended : SubmitPc → Bool
  | returned _ | conflict | backpressure | raised => true
  | _                                             => false

/-- A bound on the steps a submit still takes. -/
def SubmitPc.left : SubmitPc → Nat
  | lookup              => 5
  | limit               => 4
  | create              => 3
  | dispatch            => 2
  | reread | readback   => 1
  | _                   => 0

/-- The steps of thread `p`. -/
def Act.isOf (p : Nat) : Act → Bool
  | .call i _ _      => decide (i = p)
  | .advance i _ _ _ => decide (i = p)
  | _                => false

theorem SubmitPc.existing_left (specHash : JobSpec → String) (spec : JobSpec) (v : RunView) :
    (existing specHash spec v).left = 0 := by
  unfold existing
  split <;> rfl

theorem SubmitPc.resume_left {svc : Service} {specHash : JobSpec → String} {spec : JobSpec} {pc : SubmitPc} {op : StoreOp}
    (hop : pc.op svc specHash spec = some op) (reply : Reply) : (pc.resume svc specHash spec reply).left < pc.left := by
  cases pc with
  | lookup =>
    simp only [resume]
    split
    · rw [existing_left]; decide
    · decide
  | create =>
    simp only [resume]
    split
    · split <;> decide
    · decide
    · decide
  | reread =>
    simp only [resume]
    split
    · rw [existing_left]; decide
    · decide
  | readback =>
    simp only [resume]
    split <;> exact Nat.one_pos
  | _ => cases hop

/-- Finitely many parties have started. -/
def Sys.FinitelyMany (s : Sys) : Prop := ∃ n, ∀ k, n ≤ k → s.threads k = .none

theorem finitelyMany_step {cfg : Config} {s s' : Sys} {a : Act} (hs : s.FinitelyMany) (h : Sys.step cfg s a = some s') :
    s'.FinitelyMany := by
  obtain ⟨n, hn⟩ := hs
  -- the thread a step starts, if it starts one
  have hbound : ∃ q, ∀ k, n ≤ k → k ≠ q → s'.threads k = .none := by
    refine ⟨match a with | .start i _ => i | .advance _ k _ _ => k | _ => 0, ?_⟩
    intro k hk hne
    have hnone : s.threads k = .none := hn k hk
    cases thread_after k h with
    | same heq => rw [heq, hnone]
    | entered th hact => subst hact; exact absurd rfl hne
    | called fresh locked op _ hc => have hop := hc.is_op; rw [hnone] at hop; cases hop
    | advanced k' fresh inp th eff _ hadv => have hop := hadv.advance_eq; rw [hnone] at hop; cases hop
    | executed i fresh inp th spec svc hact => subst hact; exact absurd rfl hne
    | beat i fresh inp th b run hact => subst hact; exact absurd rfl hne
    | cancelled svc spec hpend => rw [hnone] at hpend; cases hpend
  obtain ⟨q, hq⟩ := hbound
  exact ⟨max n (q + 1), fun k hk => hq k (by omega) (by omega)⟩

/-- A submit that has not ended can take a step. -/
theorem submit_next (cfg : Config) {s : Sys} (hs : s.FinitelyMany) {q svc : Nat} {spec : JobSpec} {pc : SubmitPc}
    (hq : s.threads q = .submit svc spec pc) (hend : pc.ended = false) :
    ∃ a s' pc', a.isOf q = true ∧ Sys.step cfg s a = some s' ∧ s'.threads q = .submit svc spec pc' ∧ pc'.left < pc.left := by
  obtain ⟨fresh, hf⟩ := s.exists_fresh
  have hcall : ∀ op, pc.op (cfg.service svc) cfg.specHash spec = some op →
      ∃ a s' pc', a.isOf q = true ∧ Sys.step cfg s a = some s' ∧ s'.threads q = .submit svc spec pc' ∧
        pc'.left < pc.left := by
    intro op hop
    have henabled : (s.call cfg q fresh []).isSome = true := by
      refine Sys.call_isSome_iff.2 ⟨⟨op, ?_⟩, hf⟩
      rw [hq]
      exact hop
    obtain ⟨s', hs'⟩ := Option.isSome_iff_exists.1 henabled
    obtain ⟨op', hc⟩ := Sys.call_some hs'
    have hthread : s'.threads q = (s.threads q).resume cfg s fresh (op'.reply cfg.backend s.clock s.db) := by
      rw [hc.threads_eq, Function.update_self]
    rw [hq] at hthread
    exact ⟨.call q fresh [], s', _, by simp [Act.isOf], hs', hthread, SubmitPc.resume_left hop _⟩
  cases pc with
  | lookup => exact hcall _ rfl
  | create => exact hcall _ rfl
  | reread => exact hcall _ rfl
  | readback => exact hcall _ rfl
  | limit =>
    have hadv : ∃ pc', SubmitPc.limit.advance (cfg.service svc) spec (s.inFlight svc) = some (pc', .none) ∧
      pc'.left < 4 := by
      simp only [SubmitPc.advance]
      split
      · exact ⟨_, rfl, by decide⟩
      · split
        · exact ⟨_, rfl, by decide⟩
        · exact ⟨_, rfl, by decide⟩
    obtain ⟨pc', hadv, hlt⟩ := hadv
    refine ⟨.advance q 0 fresh .go, s.put q fresh (.submit svc spec pc'), pc', by simp [Act.isOf], ?_, ?_, hlt⟩
    · simp only [Sys.step, Sys.proceed, hq, Thread.advance, hadv, Option.map_some, hf, if_true, Sys.apply]
    · exact Function.update_self ..
  | dispatch =>
    obtain ⟨n, hn⟩ := hs
    have hfree : ((s.put q fresh (.submit svc spec .readback)).threads (max n (q + 1))).isNone = true := by
      have hne : max n (q + 1) ≠ q := by omega
      simp only [Sys.put, Function.update_of_ne hne, hn _ (le_max_left n (q + 1))]
      rfl
    have hstep : Sys.step cfg s (.advance q (max n (q + 1)) fresh .go) =
        some ((s.put q fresh (.submit svc spec .readback)).execute svc (max n (q + 1)) spec) := by
      simp only [Sys.step, Sys.proceed, hq, Thread.advance, SubmitPc.advance, Option.map_some, hf, if_true, Sys.apply,
        Thread.service, hfree]
    exact ⟨_, _, .readback, by simp [Act.isOf], hstep, dispatched_thread hq hstep, by decide⟩
  | _ => cases hend

/-- **A submit ends**: from wherever it is, its own steps take it to its answer. -/
theorem submit_ends (cfg : Config) {s : Sys} (hs : s.FinitelyMany) {q svc : Nat} {spec : JobSpec} {pc : SubmitPc}
    (hq : s.threads q = .submit svc spec pc) :
    ∃ acts s' pc', (∀ a ∈ acts, a.isOf q = true) ∧ Trace.run (Sys.step cfg) s acts = some s' ∧
      s'.threads q = .submit svc spec pc' ∧ pc'.ended = true := by
  induction hm : pc.left using WellFoundedLT.induction generalizing s pc with
  | ind m ih =>
    cases hend : pc.ended with
    | true => exact ⟨[], s, pc, (fun a ha => by cases ha), rfl, hq, hend⟩
    | false =>
      obtain ⟨a, s', pc', ha, hstep, hq', hlt⟩ := submit_next cfg hs hq hend
      obtain ⟨acts, s'', pc'', hacts, hrun, hq'', hend'⟩ :=
        ih _ (by rw [← hm]; exact hlt) (finitelyMany_step hs hstep) hq' rfl
      exact ⟨a :: acts, s'', pc'', List.forall_mem_cons.2 ⟨ha, hacts⟩, Trace.run_cons.2 ⟨s', hstep, hrun⟩, hq'', hend'⟩

/-! ## Idempotent submission -/

/-- Before the run: no submit is under way, and finitely many parties have started. -/
structure Sys.BeforeSubmits (s : Sys) : Prop where
  no_submit : ∀ i svc spec pc, s.threads i ≠ .submit svc spec pc
  finitely_many : s.FinitelyMany

/-- What the submits of a run guarantee, whatever was interleaved with them. -/
structure SubmitIdempotent (cfg : Config) (s : Sys) (acts : List Act) (s' : Sys) : Prop where
  created_once : ∀ j, Trace.count (Sys.step cfg) (Sys.creates cfg j) s acts ≤ 1
  executed_once : ∀ j, Trace.count (Sys.step cfg) (Sys.dispatches j) s acts ≤ 1
  /-- The spec that created the Run fixes its hash. -/
  creator_hash : ∀ pre i fresh locked post m svc spec, acts = pre ++ .call i fresh locked :: post →
    Trace.run (Sys.step cfg) s pre = some m → m.threads i = .submit svc spec .create →
    m.creates cfg spec.jobId (.call i fresh locked) = true → s'.db.hasRun spec.jobId (some (cfg.specHash spec))
  hash_kept : ∀ j hash, s.db.hasRun j hash → s'.db.hasRun j hash
  /-- A submit that returns has the hash of the stored Run, and returns that Run. -/
  returned : ∀ i svc spec v, s'.threads i = .submit svc spec (.returned v) →
    s'.db.hasRun spec.jobId (some (cfg.specHash spec)) ∧
      ∃ x, v = some x ∧ x.run.jobId = spec.jobId ∧ x.run.specHash = some (cfg.specHash spec)
  /-- A submit that conflicts has another hash. -/
  conflicted : ∀ i svc spec, s'.threads i = .submit svc spec .conflict →
    ∃ hash, s'.db.hasRun spec.jobId hash ∧ hash ≠ some (cfg.specHash spec)
  never_raised : ∀ i svc spec, s'.threads i ≠ .submit svc spec .raised
  /-- A submit that conflicts or is refused has changed nothing. -/
  refused_unchanged : ∀ pre i fresh locked post m m' svc spec pc, acts = pre ++ .call i fresh locked :: post →
    Trace.run (Sys.step cfg) s pre = some m → Sys.step cfg m (.call i fresh locked) = some m' →
    s'.threads i = .submit svc spec pc → pc = .conflict ∨ pc = .backpressure → m'.db = m.db
  /-- A submit of a job that was there when it started is not refused for want of capacity. -/
  existing_not_refused : ∀ pre i post m svc spec, acts = pre ++ .start i (.submit svc spec .lookup) :: post →
    Trace.run (Sys.step cfg) s pre = some m → (∃ r, m.db.runs.get spec.jobId = some r) →
    s'.threads i ≠ .submit svc spec .backpressure
  /-- Every submit can come to its answer. -/
  ends : ∀ i svc spec pc, s'.threads i = .submit svc spec pc →
    ∃ more s'' pc', (∀ a ∈ more, a.isOf i = true) ∧ Trace.run (Sys.step cfg) s' more = some s'' ∧
      s''.threads i = .submit svc spec pc' ∧ pc'.ended = true

theorem hasRun_run {cfg : Config} {s s' : Sys} {acts : List Act} {j : String} {hash : Option String}
    (hr : s.db.hasRun j hash) (h : Trace.run (Sys.step cfg) s acts = some s') : s'.db.hasRun j hash :=
  Trace.run_preserves (P := fun s => s.db.hasRun j hash) (fun _ _ _ hs hstep => Sys.hasRun_step hs hstep) hr h

/-- **Submission is idempotent under races.** -/
theorem submit_idempotent (cfg : Config) (s s' : Sys) (acts : List Act) (hs : s.BeforeSubmits)
    (h : Trace.run (Sys.step cfg) s acts = some s') : SubmitIdempotent cfg s acts s' := by
  have hagree : SubmitsAgree cfg s' :=
    Trace.run_preserves (fun _ _ _ hi hstep => submitsAgree_step hi hstep)
      (fun i svc spec pc hth => absurd hth (hs.no_submit i svc spec pc)) h
  have hdispatch : ∀ j, DispatchInv j s := fun j =>
    ⟨fun i svc spec hth => absurd hth (hs.no_submit i svc spec _),
      fun i svc spec _ _ _ hth => absurd hth (hs.no_submit i svc spec _)⟩
  have hfinite : s'.FinitelyMany :=
    Trace.run_preserves (fun _ _ _ hi hstep => finitelyMany_step hi hstep) hs.finitely_many h
  refine ⟨fun j => creates_le_one cfg j s acts, fun j => dispatches_le_one cfg j (hdispatch j) acts, ?_,
    fun j hash hr => hasRun_run hr h, fun i svc spec v hth => hagree i svc spec _ hth,
    fun i svc spec hth => hagree i svc spec _ hth, fun i svc spec hth => hagree i svc spec _ hth, ?_, ?_,
    fun i svc spec pc hth => submit_ends cfg hfinite hth⟩
  · rintro pre i fresh locked post m svc spec rfl hm hth hcreates
    obtain ⟨n, hn, hrest⟩ := Trace.run_append.1 h
    rw [hm] at hn
    cases hn
    obtain ⟨m', hstep, hrest⟩ := Trace.run_cons.1 hrest
    obtain ⟨i', fresh', locked', svc', spec', hact, hth', -, hreply⟩ := Sys.creates_eq hcreates
    cases hact
    rw [hth] at hth'
    cases hth'
    exact hasRun_run (created_hasRun hth hreply hstep).2 hrest
  · rintro pre i fresh locked post m m' svc spec pc rfl hm hstep hth hpc
    by_contra hne
    obtain ⟨n, hn, hrest⟩ := Trace.run_append.1 h
    rw [hm] at hn
    cases hn
    obtain ⟨m'', hstep', hrest⟩ := Trace.run_cons.1 hrest
    rw [hstep] at hstep'
    cases hstep'
    have haccepted := Trace.run_preserves (P := SubmitHas i (fun _ pc => pc.accepted = true))
      (fun _ _ _ hi hst => accepted_step hi hst) (submit_call_changes hstep hne) hrest
    have hpast := haccepted.2 svc spec pc hth
    rcases hpc with rfl | rfl <;> cases hpast
  · rintro pre i post m svc spec rfl hm ⟨r, hr⟩ hth
    obtain ⟨n, hn, hrest⟩ := Trace.run_append.1 h
    rw [hm] at hn
    cases hn
    obtain ⟨m', hstep, hrest⟩ := Trace.run_cons.1 hrest
    have hstart : m'.threads i = .submit svc spec .lookup ∧ m'.db = m.db := by
      cases Sys.step_cases hstep with
      | start => exact ⟨Function.update_self .., rfl⟩
    have hentry : (∃ hash, m'.db.hasRun spec.jobId hash) ∧
        SubmitHas i (fun sp pc => sp.jobId = spec.jobId ∧ pc.found = true) m' := by
      refine ⟨⟨r.specHash, r, by rw [hstart.2, hr], rfl⟩, by rw [hstart.1]; rfl, ?_⟩
      intro svc' spec' pc' hth'
      rw [hstart.1] at hth'
      cases hth'
      exact ⟨rfl, rfl⟩
    have hlast := Trace.run_preserves
      (P := fun s => (∃ hash, s.db.hasRun spec.jobId hash) ∧
        SubmitHas i (fun sp pc => sp.jobId = spec.jobId ∧ pc.found = true) s)
      (fun _ _ _ hi hst => found_step hi hst) hentry hrest
    have hfound := (hlast.2.2 svc spec _ hth).2
    cases hfound

/-! ### Two submits of one spec -/

def localConfig : Config := ⟨.sqlite, fun _ => { workerService with executionMode := .local }, fun spec => spec.jobId⟩

/-- Both find no Run; the first creates and executes it, the second reads it back. -/
def racingSubmitActs : List Act :=
  [.start 0 (.submit 0 timingSpec .lookup), .start 1 (.submit 1 timingSpec .lookup),
   .call 0 "a1" [], .call 1 "b1" [], .advance 0 0 "a2" .go, .advance 1 0 "b2" .go, .call 0 "a3" [], .call 1 "b3" [],
   .advance 0 2 "a4" .go, .call 1 "b4" [], .call 0 "a5" []]

theorem Sys.init_beforeSubmits : Sys.init.BeforeSubmits where
  no_submit _ _ _ _ h := by cases h
  finitely_many := ⟨0, fun _ _ => rfl⟩

theorem racingSubmits_idempotent : ∃ s' : Sys, Trace.run (Sys.step localConfig) Sys.init racingSubmitActs = some s' ∧
    SubmitIdempotent localConfig Sys.init racingSubmitActs s' := by
  have hrun : (Trace.run (Sys.step localConfig) Sys.init racingSubmitActs).isSome = true := by decide +kernel
  obtain ⟨s', h⟩ := Option.isSome_iff_exists.1 hrun
  exact ⟨s', h, submit_idempotent localConfig Sys.init s' racingSubmitActs Sys.init_beforeSubmits h⟩

end EdaLab
