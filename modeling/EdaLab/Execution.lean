import EdaLab.Attempts
/-!
# Execution — the program counter of an execution is the phase of its job

`_execute` advances to the next Attempt only where its own write was accepted, so each of its calls takes the rows from
the phase it is in to the phase it goes to (`exec_call_phase`), and every reachable state has the rows of a job in the
phase of its execution (`AttemptInv`).
-/
namespace EdaLab

open Relational

section Calls

variable (b : Backend) (now : Time) {db : Db} {j : String}

theorem updateRun_attempts (fields : RunFields) :
    ((StoreOp.updateRun j fields).after b now db).attempts = db.attempts := by
  simp only [StoreOp.after, StoreOp.exec, Store.updateRun]
  split <;> rfl

theorem numbered_congr {db' : Db} {k : Nat} (h : db'.attempts = db.attempts) (hn : db.numbered j k) :
    db'.numbered j k :=
  ⟨fun m => by rw [h]; exact hn.isSome_iff m, fun m a hm ha => hn.retried m a hm (by rw [← h]; exact ha)⟩

/-- `update_run(RUNNING)`, the first call of an execution. -/
theorem start_phase {r : RunRow} (hr : db.runs.get j = some r) (hp : db.inPhase j .none) :
    ((StoreOp.updateRun j { status := some .running }).after b now db).inPhase j (.between 0) ∧
    ((StoreOp.updateRun j { status := some .running }).after b now db).inPhase j .closed := by
  have hn : ((StoreOp.updateRun j { status := some .running }).after b now db).numbered j 0 :=
    numbered_congr (updateRun_attempts b now { status := some .running }) hp
  have hempty : ∀ a, ((StoreOp.updateRun j { status := some .running }).after b now db).attempts.get (j, 0) ≠ some a := by
    intro a ha
    have h := (hn.isSome_iff 0).1 (by rw [ha]; rfl)
    omega
  have hm : ((StoreOp.updateRun j { status := some .running }).after b now db).moved j := by
    have hne : ({ status := some .running } : RunFields) ≠ {} := by decide
    refine ⟨({ status := some .running } : RunFields).write now r, ?_, (by intro h; cases h)⟩
    simp only [StoreOp.after, StoreOp.exec, Store.updateRun, if_neg hne, Db.get_updateRuns, hr, Option.map_some, and_self,
      if_true]
  exact ⟨⟨hm, hn, fun a ha => absurd ha (hempty a)⟩, ⟨hm, 0, hn, fun a ha => absurd ha (hempty a)⟩⟩

/-- `record_attempt` of a Run that is there. -/
theorem recordAttempt_get (n : Nat) (st : AttemptStatus) (et e ap : Option String) (rc : Option RetryClass)
    (hr : (db.runs.get j).isSome = true) :
    (StoreOp.recordAttempt j n st et e ap rc).reply b now db = .unit ∧
    ((StoreOp.recordAttempt j n st et e ap rc).after b now db).runs = db.runs ∧
    ∀ k, ((StoreOp.recordAttempt j n st et e ap rc).after b now db).attempts.get k =
      if (j, n) = k then some ((db.attempts.get k).elim (Store.newAttempt now j n st et e ap rc)
        (AttemptRow.setOutcome now st et e ap rc)) else db.attempts.get k := by
  refine ⟨?_, ?_, fun k => ?_⟩
  · simp only [StoreOp.reply, StoreOp.exec, Store.recordAttempt, Reply.ofExcept, hr, if_true]
  · simp only [StoreOp.after, StoreOp.exec, Store.recordAttempt, Reply.ofExcept, hr, if_true]
  · simp only [StoreOp.after, StoreOp.exec, Store.recordAttempt, Reply.ofExcept, hr, if_true]
    exact Table.get_upsert _ _ _ _ k

/-- `record_attempt(n + 1)`: the new Attempt is bare, and the one before it was retried. -/
theorem record_phase {n : Nat} (hp : db.inPhase j (.between n)) :
    (StoreOp.recordAttempt j (n + 1) .running none none none (some .notClassified)).reply b now db = .unit ∧
    ((StoreOp.recordAttempt j (n + 1) .running none none none (some .notClassified)).after b now db).inPhase j
      (.bare (n + 1)) := by
  obtain ⟨hm, hn, hlast⟩ := hp
  obtain ⟨r, hr, hq⟩ := hm
  obtain ⟨hreply, hruns, hget⟩ := recordAttempt_get b now (n + 1) .running none none none (some .notClassified)
    (by rw [hr]; rfl : (db.runs.get j).isSome = true)
  have hnew : db.attempts.get (j, n + 1) = none := by
    rw [Option.eq_none_iff_forall_ne_some]
    intro a ha
    have h := (hn.isSome_iff (n + 1)).1 (by rw [ha]; rfl)
    omega
  have hself := hget (j, n + 1)
  rw [if_pos rfl, hnew, Option.elim_none] at hself
  refine ⟨hreply, ⟨r, by rw [hruns, hr], hq⟩, ⟨fun m => ?_, fun m a hlt ha => ?_⟩, _, hself, ⟨rfl, rfl, rfl, rfl, rfl⟩⟩
  · by_cases hmn : m = n + 1
    · subst hmn
      rw [hself]
      simp
    · have hne : (j, n + 1) ≠ (j, m) := fun h => hmn (Prod.mk.inj h).2.symm
      rw [hget, if_neg hne, hn.isSome_iff m]
      omega
  · have hne : (j, n + 1) ≠ (j, m) := by
      intro h
      have := (Prod.mk.inj h).2
      omega
    rw [hget, if_neg hne] at ha
    by_cases hmn : m = n
    · subst hmn
      exact (hlast a ha).1
    · exact hn.retried m a (by omega) ha

/-- A statement on the last Attempt leaves the numbering. -/
theorem numbered_exec {u : AttemptUpdate} {n : Nat} (hkey : u.key = (j, n)) (hn : db.numbered j n) :
    (u.exec db).1.numbered j n where
  isSome_iff m := by
    rw [u.get_exec db, Option.isSome_map]
    exact hn.isSome_iff m
  retried m a hm ha := by
    rw [u.get_exec db] at ha
    obtain ⟨a', ha', rfl⟩ := Option.map_eq_some_iff.1 ha
    have hne : u.key ≠ (j, m) := by
      rw [hkey]
      intro h
      have := (Prod.mk.inj h).2
      omega
    rw [if_neg (fun h => hne h.1)]
    exact hn.retried m a' hm ha'

/-- `acquire_attempt_lease` of a bare Attempt is accepted. -/
theorem acquire_phase {n : Nat} (owner : String) {token : String} (ttl : Time) (htoken : token ≠ "")
    (hp : db.inPhase j (.bare n)) :
    (StoreOp.acquireAttemptLease j n owner token ttl).reply b now db = .flag true ∧
    ((StoreOp.acquireAttemptLease j n owner token ttl).after b now db).inPhase j (.leased n) := by
  obtain ⟨hm, hn, a, ha, hbare⟩ := hp
  have hg : (Store.acquireAttemptLease now j n owner token ttl).guard a = true := by
    simp [Store.acquireAttemptLease, AttemptRow.isRunning, hbare.running, hbare.no_expiry]
  have hen : ((Store.acquireAttemptLease now j n owner token ttl).exec db).2 = true :=
    (AttemptUpdate.exec_true_iff _ _).2 ⟨a, ha, hg⟩
  refine ⟨?_, hm, numbered_exec rfl hn, _, AttemptUpdate.get_exec_key _ db ha hg, ⟨⟨token, rfl, htoken⟩, rfl⟩,
    fun _ => hbare.running⟩
  simp only [StoreOp.reply, StoreOp.exec, Reply.ofFlag, hen]

/-- `transition_attempt` to `RETRYABLE_FAILURE`: accepted, the Attempt is retried; refused, nothing changed. -/
theorem transition_phase {n : Nat} (token : String) (et e ap : Option String) (rc : Option RetryClass)
    (hp : db.inPhase j (.leased n)) :
    ((StoreOp.transitionAttempt j n token .retryableFailure et e ap rc).reply b now db = .flag true →
      ((StoreOp.transitionAttempt j n token .retryableFailure et e ap rc).after b now db).inPhase j (.between n)) ∧
    ((StoreOp.transitionAttempt j n token .retryableFailure et e ap rc).reply b now db ≠ .flag true →
      ((StoreOp.transitionAttempt j n token .retryableFailure et e ap rc).after b now db).inPhase j .closed) := by
  constructor
  · intro hreply
    obtain ⟨hm, hn, a, ha, hleased, -⟩ := hp
    have htrue : ((Store.transitionAttempt now j n token .retryableFailure et e ap rc).exec db).2 = true := by
      simpa [StoreOp.reply, StoreOp.exec, Reply.ofFlag] using hreply
    obtain ⟨a', ha', hg⟩ := (AttemptUpdate.exec_true_iff _ _).1 htrue
    have hsame : a' = a := by
      have hk : db.attempts.get (j, n) = some a' := ha'
      rw [ha] at hk
      exact (Option.some.inj hk).symm
    subst hsame
    refine ⟨hm, numbered_exec rfl hn, fun x hx => ?_⟩
    have hget := AttemptUpdate.get_exec_key _ db ha' hg
    rw [show (j, n) = (Store.transitionAttempt now j n token .retryableFailure et e ap rc).key from rfl] at hx
    simp only [StoreOp.after, StoreOp.exec, Reply.ofFlag] at hx
    rw [hget] at hx
    cases hx
    exact ⟨rfl, hleased.token, hleased.expiry⟩
  · intro hreply
    have hfalse : ((Store.transitionAttempt now j n token .retryableFailure et e ap rc).exec db).2 = false := by
      simpa [StoreOp.reply, StoreOp.exec, Reply.ofFlag] using hreply
    have hsame : (StoreOp.transitionAttempt j n token .retryableFailure et e ap rc).after b now db = db :=
      AttemptUpdate.exec_eq_self _ _ hfalse
    rw [hsame]
    exact Db.inPhase_closed hp

end Calls

/-! ## Where a reply takes the execution -/

theorem ExecPc.Advance.phase {svc : Service} {spec : JobSpec} {births : Nat} {pc pc' : ExecPc} {eff : Effect}
    (h : ExecPc.Advance svc spec births pc pc' eff) : pc'.phase = pc.phase := by
  cases h with
  | raised n t e =>
    rcases adapterRaised_cases svc spec n t e with ⟨k, m, heq⟩ | ⟨c, heq, -, hn⟩
    · rw [heq]
      rfl
    · rw [heq]
      exact congrArg Phase.leased hn
  | _ => rfl

/-- A leased Attempt stays the last one until the execution leaves it. -/
theorem ExecPc.resume_leased {svc : Service} {spec : JobSpec} {owner : Option ExecutionOwner} {fresh : String}
    {reply : Reply} {pc : ExecPc} {n : Nat} (h : pc.phase = .leased n) (hne : ∀ i t k e, pc ≠ .transition i t k e) :
    (pc.resume svc spec owner fresh reply).phase = .leased n ∨ (pc.resume svc spec owner fresh reply).phase = .closed := by
  have hcases := pc.resume_cases svc spec owner fresh reply
  generalize pc.resume svc spec owner fresh reply = pc' at hcases ⊢
  cases hcases with
  | registered m t e o _ => exact Or.inl h
  | delivering m t e o _ => exact Or.inl h
  | unregistered m t e o c _ hn => exact Or.inl (by rw [← h]; exact congrArg Phase.leased hn)
  | enqueued m t e o => exact Or.inr rfl
  | unenqueued m t e o c _ hn => exact Or.inl (by rw [← h]; exact congrArg Phase.leased hn)
  | observed m t o => exact Or.inl h
  | collected m t r c scope _ hn => exact Or.inl (by rw [← h]; exact congrArg Phase.leased hn)
  | settled c scope => exact Or.inr rfl
  | measured c scope payload => exact Or.inr rfl
  | refused c c' scope _ hn => exact Or.inl (by rw [← h]; exact congrArg Phase.leased hn)
  | unsettled c scope => exact Or.inr rfl
  | retried m t k e _ => exact absurd rfl (hne m t k e)
  | unretried m t k e _ => exact absurd rfl (hne m t k e)
  | idle _ _ => exact Or.inl h
  | _ => cases h

/-- **A call of the execution takes the rows of its job to the phase it goes to.** -/
theorem exec_call_phase (b : Backend) (now : Time) {db : Db} {svc : Service} {spec : JobSpec}
    {owner : Option ExecutionOwner} {fresh : String} {pc : ExecPc} {op : StoreOp} (hop : pc.op svc spec owner = some op)
    (hwf : pc.Wf spec) (hopwf : op.Wf) (hrun : ∃ r, db.runs.get spec.jobId = some r) (hp : db.inPhase spec.jobId pc.phase) :
    (op.after b now db).inPhase spec.jobId (pc.resume svc spec owner fresh (op.reply b now db)).phase := by
  have hforeign : op.Foreign spec.jobId → ∀ n, pc.phase = .leased n → (∀ i t k e, pc ≠ .transition i t k e) →
      (op.after b now db).inPhase spec.jobId (pc.resume svc spec owner fresh (op.reply b now db)).phase := by
    intro hf n hn hne
    rw [hn] at hp
    have hp' := inPhase_foreign b now hopwf hf hp
    rcases ExecPc.resume_leased hn hne with h | h
    · rw [h]
      exact hp'
    · rw [h]
      exact Db.inPhase_closed hp'
  cases pc with
  | start =>
    cases hop
    obtain ⟨r, hr⟩ := hrun
    obtain ⟨hbetween, hclosed⟩ := start_phase b now hr hp
    simp only [ExecPc.resume]
    split
    · exact hbetween
    · exact hclosed
  | record n =>
    cases hop
    obtain ⟨k, rfl⟩ : ∃ k, n = k + 1 := ⟨n - 1, by have : 1 ≤ n := hwf; omega⟩
    have hbetween : db.inPhase spec.jobId (.between k) := hp
    obtain ⟨hreply, hbare⟩ := record_phase b now hbetween
    rw [hreply]
    exact hbare
  | acquire n t =>
    cases hop
    obtain ⟨hreply, hleased⟩ := acquire_phase b now svc.workerId svc.leaseSeconds hwf
      (hp : db.inPhase spec.jobId (.bare n))
    rw [hreply]
    simp only [ExecPc.resume, if_true]
    unfold ExecPc.afterAcquire
    split
    · exact hleased
    · split <;> exact hleased
  | register n t e o => cases hop; exact hforeign trivial n rfl (fun _ _ _ _ h => by cases h)
  | enqueue n t e o => cases hop; exact hforeign trivial n rfl (fun _ _ _ _ h => by cases h)
  | observe n t o => cases hop; exact hforeign trivial n rfl (fun _ _ _ _ h => by cases h)
  | collect n t r => cases hop; exact hforeign trivial n rfl (fun _ _ _ _ h => by cases h)
  | finalize c scope => cases hop; exact hforeign trivial c.attemptNo rfl (fun _ _ _ _ h => by cases h)
  | transition n t k m =>
    cases hop
    obtain ⟨htrue, hfalse⟩ := transition_phase b now t (some k) (some m) none (some .retryable)
      (hp : db.inPhase spec.jobId (.leased n))
    simp only [ExecPc.resume]
    split
    · rename_i h
      exact htrue h
    · rename_i h
      exact hfalse h
  | metrics t payload =>
    cases hop
    exact inPhase_foreign b now trivial trivial hp
  | _ => cases hop

/-! ## Reachable states -/

theorem RecoverPc.op_foreign {svc : Service} {r : RecoverPc} {op : StoreOp} {j : String} (h : r.op svc = some op) :
    op.Foreign j := by
  cases RecoverPc.op_cases h with
  | failNoAttempt sc run => intro _ hst; cases hst
  | _ => trivial

/-- Only the execution of a job makes the calls that advance it. -/
theorem Thread.op_foreign {cfg : Config} {s : Sys} {locked : List String} {th : Thread} {op : StoreOp} {j : String}
    (h : th.op cfg s locked = some op) (hne : ∀ svc spec pc, th = .exec svc spec pc → spec.jobId ≠ j) : op.Foreign j := by
  cases Thread.op_cases h with
  | submit svc spec pc _ hpc => cases pc <;> cases hpc <;> trivial
  | cancel svc i => intro _ hst; cases hst
  | exec svc spec pc _ hpc =>
    have hjob := hne svc spec pc rfl
    cases pc with
    | start => cases hpc; intro hj; exact absurd hj hjob
    | record n => cases hpc; exact hjob
    | acquire n t => cases hpc; exact hjob
    | transition n t k m => cases hpc; exact hjob
    | _ => cases hpc <;> trivial
  | beat b pc _ hpc => cases pc <;> cases hpc <;> trivial
  | scan svc r _ _ _ hr => exact RecoverPc.op_foreign hr
  | supervisor sup pc _ hpc => cases pc <;> cases hpc <;> trivial
  | _ => trivial

/-- The job of a call that only an execution makes. -/
def StoreOp.ofExecution : StoreOp → Option String
  | .recordAttempt j _ _ _ _ _ _            => some j
  | .acquireAttemptLease j _ _ _ _          => some j
  | .recordAttemptProcess j _ _ _ _ _ _ _   => some j
  | .recordAttemptExecution j _ _ _ _       => some j
  | .transitionAttempt j _ _ _ _ _ _ _      => some j
  | .enqueueExecutionRequest _ j _ _ _      => some j
  | _                                       => none

theorem Thread.op_ofExecution {cfg : Config} {s : Sys} {locked : List String} {th : Thread} {op : StoreOp} {j : String}
    (h : th.op cfg s locked = some op) (hj : op.ofExecution = some j) :
    ∃ svc spec pc, th = .exec svc spec pc ∧ spec.jobId = j ∧ pc.op (cfg.service svc) spec (s.owners svc) = some op := by
  cases Thread.op_cases h with
  | exec svc spec pc _ hpc =>
    refine ⟨svc, spec, pc, rfl, ?_, hpc⟩
    cases pc <;> cases hpc <;> cases hj <;> rfl
  | submit svc spec pc _ hpc => cases pc <;> cases hpc <;> cases hj
  | beat b pc _ hpc => cases pc <;> cases hpc <;> cases hj
  | scan svc r _ _ _ hr => cases RecoverPc.op_cases hr <;> cases hj
  | supervisor sup pc _ hpc => cases pc <;> cases hpc <;> cases hj
  | _ => cases hj

/-- The phase of a job: that of its execution, or none where it has none. -/
def Sys.phase (s : Sys) (j : String) (p : Phase) : Prop :=
  (∃ q svc spec pc, s.threads q = .exec svc spec pc ∧ spec.jobId = j ∧ pc.phase = p) ∨
  ((∀ q svc spec pc, s.threads q = .exec svc spec pc → spec.jobId ≠ j) ∧ p = .none)

theorem Sys.exists_phase (s : Sys) (j : String) : ∃ p, s.phase j p := by
  by_cases hex : ∃ q svc spec pc, s.threads q = .exec svc spec pc ∧ spec.jobId = j
  · obtain ⟨q, svc, spec, pc, hq, hj⟩ := hex
    exact ⟨pc.phase, Or.inl ⟨q, svc, spec, pc, hq, hj, rfl⟩⟩
  · exact ⟨.none, Or.inr ⟨fun q svc spec pc hq hj => hex ⟨q, svc, spec, pc, hq, hj⟩, rfl⟩⟩

/-- **The rows of every job are in the phase of its execution.** -/
def AttemptInv (s : Sys) : Prop := ∀ j p, s.phase j p → s.db.inPhase j p

theorem attemptInv_init : AttemptInv Sys.init := by
  rintro j p (⟨q, svc, spec, pc, h, -⟩ | ⟨-, rfl⟩)
  · cases h
  · refine ⟨fun m => ?_, fun m a hm => by omega⟩
    constructor
    · intro h
      cases h
    · rintro ⟨h₁, h₀⟩
      omega

section Step

variable {cfg : Config} {s s' : Sys} {a : Act}

/-- An execution stays one of its job. -/
theorem exec_persists (h : Sys.step cfg s a = some s') {q svc : Nat} {spec : JobSpec} {pc : ExecPc}
    (hq : s.threads q = .exec svc spec pc) : ∃ pc', s'.threads q = .exec svc spec pc' := by
  cases thread_after q h with
  | same heq => exact ⟨pc, by rw [heq, hq]⟩
  | entered th _ hnone _ _ => rw [hq] at hnone; cases hnone
  | called fresh locked op _ _ heq => exact ⟨_, by rw [heq, hq]; rfl⟩
  | advanced k fresh inp th eff _ hadv heq =>
    have hx := hadv.advance_eq
    rw [hq] at hx
    obtain ⟨x, -, hx'⟩ := Option.map_eq_some_iff.1 hx
    cases hx'
    exact ⟨_, heq⟩
  | executed i fresh inp th spec' v _ _ _ hnone _ _ => rw [hq] at hnone; cases hnone
  | beat i fresh inp th b run _ _ _ hnone _ => rw [hq] at hnone; cases hnone
  | cancelled v spec' hpend heq =>
    rw [hq] at hpend
    cases hpend
    exact ⟨_, heq⟩

/-- Where the program counter of an execution comes from. -/
inductive ExecChange (cfg : Config) (s : Sys) (a : Act) (s' : Sys) (q svc : Nat) (spec : JobSpec) (pc' : ExecPc) : Prop
  | same (thread_eq : s.threads q = .exec svc spec pc')
  | called (fresh : String) (locked : List String) (pc : ExecPc) (op : StoreOp) (is_act : a = .call q fresh locked)
      (call : Sys.Called cfg s q fresh locked op s') (thread_eq : s.threads q = .exec svc spec pc)
      (op_eq : pc.op (cfg.service svc) spec (s.owners svc) = some op)
      (pc_eq : pc' = pc.resume (cfg.service svc) spec (s.owners svc) fresh (op.reply cfg.backend s.clock s.db))
  | advanced (k : Nat) (fresh : String) (inp : Input) (pc : ExecPc) (eff : Effect) (is_act : a = .advance q k fresh inp)
      (thread_eq : s.threads q = .exec svc spec pc)
      (adv : ExecPc.Advance (cfg.service svc) spec s.births pc pc' eff)
  | executed (i : Nat) (held : (s.threads i).holds = some spec.jobId) (not_exec : ∀ v sp pc, s.threads i ≠ .exec v sp pc)
      (was_none : (s.threads q).isNone = true) (pc_eq : pc' = .pending)
  | cancelled (thread_eq : s.threads q = .exec svc spec .pending) (pc_eq : pc' = .cancelled)

theorem exec_after (h : Sys.step cfg s a = some s') {q svc : Nat} {spec : JobSpec} {pc' : ExecPc}
    (hq : s'.threads q = .exec svc spec pc') : ExecChange cfg s a s' q svc spec pc' := by
  cases thread_after q h with
  | same heq => exact .same (by rw [← heq, hq])
  | entered th _ _ hentry heq =>
    rw [heq] at hq
    subst hq
    cases hentry
  | called fresh locked op hact hc heq =>
    rw [heq] at hq
    cases hth : s.threads q with
    | exec v spec' pc =>
      have hop := hc.is_op
      rw [hth] at hq hop
      cases hq
      exact .called fresh locked pc op hact hc hth hop rfl
    | _ => rw [hth] at hq; cases hq
  | advanced k fresh inp th eff hact hadv heq =>
    rw [heq] at hq
    subst hq
    have hx := hadv.advance_eq
    cases hth : s.threads q with
    | none => rw [hth] at hx; cases hx
    | exec v spec' pc =>
      rw [hth] at hx
      obtain ⟨⟨pc₁, eff₁⟩, hy, hy'⟩ := Option.map_eq_some_iff.1 hx
      cases hy'
      exact .advanced k fresh inp pc _ hact hth (ExecPc.advance_cases hy)
    | _ =>
      rw [hth] at hx
      obtain ⟨x, -, hx'⟩ := Option.map_eq_some_iff.1 hx
      cases hx'
  | executed i fresh inp th spec' v _ hadv _ hnone heq _ =>
    rw [heq] at hq
    cases hq
    obtain ⟨hheld, hreleased⟩ := Thread.advance_execute hadv.advance_eq
    refine .executed i hheld (fun v' sp pc hth => ?_) hnone rfl
    have hx := hadv.advance_eq
    rw [hth] at hx
    obtain ⟨⟨pc₁, eff₁⟩, -, hx'⟩ := Option.map_eq_some_iff.1 hx
    cases hx'
    cases hreleased
  | beat i fresh inp th b run _ _ _ _ heq => rw [heq] at hq; cases hq
  | cancelled v spec' hpend heq =>
    rw [heq] at hq
    cases hq
    exact .cancelled hpend rfl

/-- A step that calls no store changes no phase. -/
theorem phase_of_silent (hs : Sole s) (h : Sys.step cfg s a = some s') (hcall : ∀ i fresh locked, a ≠ .call i fresh locked)
    {j : String} {p : Phase} (hp : s'.phase j p) : s.phase j p := by
  rcases hp with ⟨q, svc, spec, pc, hq, rfl, rfl⟩ | ⟨hnone, rfl⟩
  · cases exec_after h hq with
    | same hth => exact Or.inl ⟨q, svc, spec, pc, hth, rfl, rfl⟩
    | called fresh locked _ _ hact _ _ _ _ => exact absurd hact (hcall q fresh locked)
    | advanced k fresh inp pc₀ eff _ hth hadv => exact Or.inl ⟨q, svc, spec, pc₀, hth, rfl, hadv.phase.symm⟩
    | executed i hheld hnot _ hpc =>
      subst hpc
      refine Or.inr ⟨fun q' v spec' pc' hq' hsame => ?_, rfl⟩
      -- the dispatcher holds the job, so no execution does
      obtain rfl := hs q' i spec.jobId (by rw [hq', ← hsame]; rfl) hheld
      exact hnot v spec' pc' hq'
    | cancelled hth hpc =>
      subst hpc
      exact Or.inl ⟨q, svc, spec, .pending, hth, rfl, rfl⟩
  · refine Or.inr ⟨fun q svc spec pc hq => ?_, rfl⟩
    obtain ⟨pc', hq'⟩ := exec_persists h hq
    exact hnone q svc spec pc' hq'

/-- **One step keeps the rows in phase.** -/
theorem attemptInv_step (hi : QueueInv cfg s) (hs : Sole s) (ha : AttemptInv s) (h : Sys.step cfg s a = some s') :
    AttemptInv s' := by
  intro j p hp
  by_cases hcall : ∃ i fresh locked, a = .call i fresh locked
  · obtain ⟨i, fresh, locked, rfl⟩ := hcall
    obtain ⟨op, hc⟩ := Sys.call_some h
    have hw := hi.call_wf hc
    rw [hc.db_eq]
    rcases hp with ⟨q, svc, spec, pc, hq, rfl, rfl⟩ | ⟨hnone, rfl⟩
    · by_cases hqi : q = i
      · -- the execution itself
        subst hqi
        rw [hc.threads_eq, Function.update_self] at hq
        cases hth : s.threads q with
        | exec v spec' pc₀ =>
          rw [hth] at hq
          cases hq
          have hop := hc.is_op
          have hwf := hi.wf q
          rw [hth] at hop hwf
          obtain ⟨r, hr, -⟩ := hi.held q spec.jobId (by rw [hth]; rfl)
          exact exec_call_phase cfg.backend s.clock hop hwf hw ⟨r, hr⟩
            (ha spec.jobId pc₀.phase (Or.inl ⟨q, svc, spec, pc₀, hth, rfl, rfl⟩))
        | _ => rw [hth] at hq; cases hq
      · -- another party, while the execution stays where it is
        rw [hc.threads_eq, Function.update_of_ne hqi] at hq
        refine inPhase_foreign cfg.backend s.clock hw (Thread.op_foreign hc.is_op ?_)
          (ha spec.jobId pc.phase (Or.inl ⟨q, svc, spec, pc, hq, rfl, rfl⟩))
        intro v spec' pc' hth hsame
        exact hqi (hs q i spec.jobId (by rw [hq]; rfl) (by rw [hth, ← hsame]; rfl))
    · have hbefore : ∀ q svc spec pc, s.threads q = .exec svc spec pc → spec.jobId ≠ j := by
        intro q svc spec pc hq
        obtain ⟨pc', hq'⟩ := exec_persists h hq
        exact hnone q svc spec pc' hq'
      exact inPhase_foreign cfg.backend s.clock hw (Thread.op_foreign hc.is_op (hbefore i))
        (ha j .none (Or.inr ⟨hbefore, rfl⟩))
  · have hsilent : ∀ i fresh locked, a ≠ .call i fresh locked := fun i fresh locked heq => hcall ⟨i, fresh, locked, heq⟩
    rcases Sys.step_db h with hdb | ⟨i, fresh, locked, op, hact, -⟩
    · rw [hdb]
      exact ha j p (phase_of_silent hs h hsilent hp)
    · exact absurd hact (hsilent i fresh locked)

end Step

/-- The invariants of the deployments in which no Run is both dispatched by its submitter and handed to a worker. -/
structure ExecInv (cfg : Config) (s : Sys) : Prop where
  queue : QueueInv cfg s
  sole : Sole s
  attempts : AttemptInv s

theorem execInv_init (cfg : Config) : ExecInv cfg Sys.init :=
  ⟨queueInv_init cfg, (fun q q' j h => by cases h), attemptInv_init⟩

theorem execInv_step {cfg : Config} {s s' : Sys} {a : Act} (hi : ExecInv cfg s) (hsep : s'.Separate)
    (h : Sys.step cfg s a = some s') : ExecInv cfg s' where
  queue := queueInv_step hi.queue h
  sole := sole_step hi.queue hi.sole hsep h
  attempts := attemptInv_step hi.queue hi.sole hi.attempts h

end EdaLab
