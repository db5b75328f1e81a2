import EdaLab.Capacity
import EdaLab.Execution
/-!
# Dispatch — the capacity check of the claim loop

`drain` counts the active requests of its host before each claim, but a claimed Run enqueues its request later, in the
executor's thread.  What the check misses are the executions of this drain that have yet to enqueue; the bound holds where
the claims are made with those counted, as they are when `concurrency` is one.
-/
namespace EdaLab

open Relational

/-! ## What one call does to the count -/

section Count

variable (b : Backend) (now : Time) (db : Db)

theorem countActive_updateWhere_le (h : String) (p : ExecutionRequestRow → Bool)
    (f : ExecutionRequestRow → ExecutionRequestRow) (hf : ∀ r, (f r).executionId = r.executionId)
    (hle : ∀ r, p r = true → (f r).hostId = r.hostId ∧ ((f r).isActive = true → r.isActive = true)) :
    PostgresStore.countActiveExecutionRequests
      { db with executionRequests := db.executionRequests.updateWhere p f hf } h ≤
      PostgresStore.countActiveExecutionRequests db h := by
  unfold PostgresStore.countActiveExecutionRequests
  refine Table.countWhere_updateWhere_le _ _ _ hf _ ?_
  intro r _ hp hq
  obtain ⟨hhost, hact⟩ := hle r hp
  simp only [Bool.and_eq_true, decide_eq_true_eq] at hq ⊢
  exact ⟨hhost ▸ hq.1, hact hq.2⟩

theorem countActive_finalizer_le (h : String) {op : StoreOp} {c : Finalizer} (hop : op.finalizer now db = some c) :
    PostgresStore.countActiveExecutionRequests (op.after b now db) h ≤
      PostgresStore.countActiveExecutionRequests db h := by
  cases finalizer_cases b hop with
  | accepted _ _ _ rest hrest hafter =>
    rw [hafter]
    rcases hrest with rfl | ⟨j, n, rfl⟩
    · exact le_refl _
    · have hretire : PostgresStore.countActiveExecutionRequests (Store.retireRequests db j n) h ≤
          PostgresStore.countActiveExecutionRequests db h := by
        refine countActive_updateWhere_le db h _ _ _ ?_
        intro r _
        exact ⟨rfl, fun hact => by cases hact⟩
      exact hretire
  | noAttempt _ _ hafter => rw [hafter]
  | noRun _ _ _ hafter =>
    rw [hafter]
    cases b <;> exact le_refl _

/-- **Only an enqueue for the host can add to its count.** -/
theorem countActive_after_le (op : StoreOp) (h : String) (hop : ∀ e j n p, op ≠ .enqueueExecutionRequest e j n h p) :
    PostgresStore.countActiveExecutionRequests (op.after b now db) h ≤
      PostgresStore.countActiveExecutionRequests db h := by
  cases op with
  | enqueueExecutionRequest e j n host p =>
    have hne : host ≠ h := by
      rintro rfl
      exact hop e j n p rfl
    simp only [StoreOp.after, StoreOp.exec, Store.enqueueExecutionRequest, Reply.ofFlag]
    split
    · rename_i t ht
      unfold PostgresStore.countActiveExecutionRequests
      simp only [Table.countWhere_insertNew ht]
      simp [hne]
    · exact le_refl _
  | claimExecutionRequest host sup locked =>
    simp only [StoreOp.after, StoreOp.exec, Store.claimExecutionRequest]
    split
    · exact le_refl _
    · refine countActive_updateWhere_le db h _ _ _ ?_
      intro r hr
      simp only [Bool.and_eq_true, decide_eq_true_eq] at hr
      exact ⟨rfl, fun _ => by simp [ExecutionRequestRow.isActive, hr.2]⟩
  | recordSupervisorProcessStarted e sup pid =>
    refine countActive_updateWhere_le db h _ _ _ ?_
    intro r hr
    simp only [Store.isClaimedBy, Bool.and_eq_true, decide_eq_true_eq] at hr
    exact ⟨rfl, fun _ => by simp [ExecutionRequestRow.isActive, hr.1.2]⟩
  | recordTerminationWitness e kind code ap detail =>
    simp only [StoreOp.after, StoreOp.exec, Store.recordTerminationWitness, Reply.ofFlag]
    split
    · exact le_refl _
    · split
      · exact le_refl _
      · refine countActive_updateWhere_le db h _ _ _ ?_
        intro r _
        exact ⟨rfl, fun hact => by cases hact⟩
  | releaseTerminalExecutionRequests =>
    cases b with
    | sqlite => exact le_refl _
    | postgres =>
      refine countActive_updateWhere_le db h _ _ _ ?_
      intro r _
      exact ⟨rfl, fun hact => by cases hact⟩
  | finalizeRecovery j n token et e => exact countActive_finalizer_le b now db h rfl
  | finalizeAttemptAndRun c => exact countActive_finalizer_le b now db h rfl
  | createRun j d i f hash m p =>
    have hins : ∀ r, (Store.insertRun db r).1.executionRequests = db.executionRequests := by
      intro r
      unfold Store.insertRun
      split <;> rfl
    refine le_of_eq ?_
    unfold PostgresStore.countActiveExecutionRequests
    congr 1
    simp only [StoreOp.after, StoreOp.exec, Store.createRun, Reply.ofCreate]
    split
    · rw [hins]
    · split
      · rfl
      · split
        · rfl
        · rw [hins]
  | updateRun j f =>
    simp only [StoreOp.after, StoreOp.exec, Store.updateRun]
    split <;> exact le_refl _
  | recordAttempt j n st et e ap rc =>
    simp only [StoreOp.after, StoreOp.exec, Store.recordAttempt, Reply.ofExcept]
    split <;> exact le_refl _
  | startHostSession owner ttl =>
    simp only [StoreOp.after, StoreOp.exec, Store.startHostSession, Reply.ofExcept]
    split <;> exact le_refl _
  | claimNextRun locked =>
    cases b with
    | sqlite => exact le_refl _
    | postgres =>
      simp only [StoreOp.after, StoreOp.exec, PostgresStore.claimNextRun]
      split <;> exact le_refl _
  | countActiveExecutionRequests host => cases b <;> exact le_refl _
  | _ => exact le_refl _

theorem countActive_enqueue_le (e j : String) (n : Nat) (host : String) (p : RequestPayload) (h : String) :
    PostgresStore.countActiveExecutionRequests ((StoreOp.enqueueExecutionRequest e j n host p).after b now db) h ≤
      PostgresStore.countActiveExecutionRequests db h + 1 := by
  simp only [StoreOp.after, StoreOp.exec, Store.enqueueExecutionRequest, Reply.ofFlag]
  split
  · rename_i t ht
    unfold PostgresStore.countActiveExecutionRequests
    simp only [Table.countWhere_insertNew ht]
    split <;> omega
  · exact Nat.le_succ _

end Count

/-! ## Executions that have yet to enqueue -/

namespace ExecPc

/-- The execution may still enqueue a request. -/
def enqueues : ExecPc → Bool
  | pending | start | record _ | acquire _ _ | register _ _ _ _ | enqueue _ _ _ _ => true
  | _                                                                             => false

/-- Where the executions of a supervised service are: they never come to an adapter. -/
def Delivers : ExecPc → Prop
  | launch _ _ | adapter _ _ | spawned _ _ _ | observe _ _ _ | collect _ _ _ | transition _ _ _ _ => False
  | _                                                                                             => True

/-- The owner a registration or an enqueue is made for. -/
def target : ExecPc → Option ExecutionOwner
  | register _ _ _ o => some o
  | enqueue _ _ _ o  => some o
  | _                => none

theorem resume_delivers {svc : Service} {spec : JobSpec} {owner : Option ExecutionOwner} {fresh : String} {reply : Reply}
    (hmode : svc.executionMode = .supervised) {pc : ExecPc} (h : pc.Delivers) :
    (pc.resume svc spec owner fresh reply).Delivers ∧
      ((pc.resume svc spec owner fresh reply).enqueues = true → pc.enqueues = true) := by
  have hcases := pc.resume_cases svc spec owner fresh reply
  generalize pc.resume svc spec owner fresh reply = pc' at hcases
  cases hcases with
  | leased n t hno => exact absurd hmode hno
  | registered n t e o hno => exact absurd hmode hno
  | observed n t o => exact h.elim
  | collected n t r c scope => exact h.elim
  | retried n t k m => exact h.elim
  | unretried n t k m => exact h.elim
  | idle _ _ => exact ⟨h, fun he => he⟩
  | _ => exact ⟨trivial, fun _ => by first | rfl | contradiction⟩

theorem resume_target {svc : Service} {spec : JobSpec} {owner : Option ExecutionOwner} {fresh : String} {reply : Reply}
    {pc : ExecPc} {o : ExecutionOwner} (h : (pc.resume svc spec owner fresh reply).target = some o) :
    pc.target = some o ∨ owner = some o := by
  have hcases := pc.resume_cases svc spec owner fresh reply
  generalize pc.resume svc spec owner fresh reply = pc' at hcases h
  cases hcases with
  | owned n t o' ho => cases h; exact Or.inr ho
  | delivering n t e o' _ => exact Or.inl h
  | idle _ _ => exact Or.inl h
  | _ => cases h

theorem Advance.delivers {svc : Service} {spec : JobSpec} {births : Nat} {pc pc' : ExecPc} {eff : Effect}
    (hadv : ExecPc.Advance svc spec births pc pc' eff) (h : pc.Delivers) :
    pc'.Delivers ∧ (pc'.enqueues = true → pc.enqueues = true) := by
  cases hadv with
  | begin => exact ⟨trivial, fun h => h⟩
  | _ => exact h.elim

theorem Advance.target {svc : Service} {spec : JobSpec} {births : Nat} {pc pc' : ExecPc} {eff : Effect}
    (hadv : ExecPc.Advance svc spec births pc pc' eff) : pc'.target = none := by
  cases hadv with
  | raised n t e =>
    rcases adapterRaised_cases svc spec n t e with ⟨k, m, heq⟩ | ⟨c, heq, -, -⟩
    · rw [heq]; rfl
    · rw [heq]; rfl
  | _ => rfl

end ExecPc

/-! ## The drain of a Host Agent -/

/-- The drain a worker or a Host Agent is in: its service, its jobs and where it is. -/
def Thread.drainOf : Thread → Option (Nat × Drain × DrainPc)
  | .drain svc d pc            => some (svc, d, pc)
  | .agent svc _ d (.drain pc) => some (svc, d, pc)
  | _                          => Option.none

/-- How a drain goes on. -/
inductive DrainChange (cfg : Config) (s : Sys) (a : Act) (s' : Sys) (q svc : Nat) (d : Drain) (pc : DrainPc) : Prop
  | same (not_own : ∀ k fresh inp, a ≠ .advance q k fresh inp) (thread_eq : (s'.threads q).drainOf = some (svc, d, pc))
  | called (fresh : String) (locked : List String) (op : StoreOp) (child : Option Child)
      (is_act : a = .call q fresh locked) (call : Sys.Called cfg s q fresh locked op s')
      (is_op : pc.op (cfg.service svc) (s.owners svc) locked = some op)
      (thread_eq : (s'.threads q).drainOf =
        some (svc, d, pc.resume (cfg.service svc) child (op.reply cfg.backend s.clock s.db) d))
  | advanced (k : Nat) (fresh : String) (inp : Input) (d' : Drain) (pc' : DrainPc) (eff : Effect)
      (is_act : a = .advance q k fresh inp)
      (adv : pc.advance (cfg.service svc) (s.owners svc) (s.live svc) s.clock s.observed s.result k fresh inp d =
        some (d', pc', eff))
      (thread_eq : (s'.threads q).drainOf = some (svc, d', pc'))

theorem drain_step {cfg : Config} {s s' : Sys} {a : Act} {q svc : Nat} {d : Drain} {pc : DrainPc}
    (h : Sys.step cfg s a = some s') (hq : (s.threads q).drainOf = some (svc, d, pc)) :
    DrainChange cfg s a s' q svc d pc := by
  have hparty : (s.threads q).isNone = false := by
    cases hth : s.threads q with
    | none => rw [hth] at hq; cases hq
    | _ => rfl
  by_cases hact : ∃ k fresh inp, a = .advance q k fresh inp
  · obtain ⟨k, fresh, inp, rfl⟩ := hact
    obtain ⟨th, eff, hadv, heq⟩ := advanced_thread h
    have hx := hadv.advance_eq
    cases hth : s.threads q with
    | drain v d₀ pc₀ =>
      rw [hth] at hq hx
      cases hq
      obtain ⟨⟨d', pc', eff'⟩, hy, hy'⟩ := Option.map_eq_some_iff.1 hx
      cases hy'
      exact .advanced k fresh inp d' pc' _ rfl hy (by rw [heq]; rfl)
    | agent v self d₀ pc₀ =>
      rw [hth] at hq hx
      cases pc₀ with
      | drain pc₁ =>
        cases hq
        obtain ⟨⟨d', pc', eff'⟩, hy, hy'⟩ := Option.map_eq_some_iff.1 hx
        cases hy'
        obtain ⟨⟨d₂, pc₂, eff₂⟩, hz, hz'⟩ := Option.map_eq_some_iff.1 hy
        cases hz'
        exact .advanced k fresh inp d₂ pc₂ _ rfl hz (by rw [heq]; rfl)
      | _ => cases hq
    | _ => rw [hth] at hq; cases hq
  · have hother : ∀ k fresh inp, a ≠ .advance q k fresh inp := fun k fresh inp ha => hact ⟨k, fresh, inp, ha⟩
    cases thread_after q h with
    | same heq => exact .same hother (by rw [heq, hq])
    | called fresh locked op hcall hc heq =>
      have hop := hc.is_op
      cases hth : s.threads q with
      | drain v d₀ pc₀ =>
        rw [hth] at hq hop heq
        cases hq
        exact .called fresh locked op _ hcall hc hop (by rw [heq]; rfl)
      | agent v self d₀ pc₀ =>
        rw [hth] at hq hop heq
        cases pc₀ with
        | drain pc₁ =>
          cases hq
          exact .called fresh locked op _ hcall hc hop (by rw [heq]; rfl)
        | _ => cases hq
      | _ => rw [hth] at hq; cases hq
    | advanced k fresh inp _ _ ha => exact absurd ha (hother k fresh inp)
    | entered _ _ hnone => rw [hparty] at hnone; cases hnone
    | executed _ _ _ _ _ _ _ _ _ hnone => rw [hparty] at hnone; cases hnone
    | beat _ _ _ _ _ _ _ _ _ hnone => rw [hparty] at hnone; cases hnone
    | cancelled _ _ hpend => rw [hpend] at hq; cases hq

/-- The service of a worker or of a Host Agent, and the agent's own host. -/
def Thread.worker : Thread → Option (Nat × Option String)
  | .drain svc _ _      => some (svc, Option.none)
  | .agent svc self _ _ => some (svc, some self.hostId)
  | _                   => Option.none

/-- Another worker of the service, or another agent of the host. -/
def Thread.rivals (svc : Nat) (h : String) (th : Thread) : Bool :=
  th.worker.any (fun w => decide (w.1 = svc) || decide (w.2 = some h))

/-- A system with one Host Agent for the host: no second drain starts on it. -/
def Sys.hostStep (cfg : Config) (svc : Nat) (h : String) (s : Sys) : Act → Option Sys
  | .start i th => if th.rivals svc h then none else Sys.step cfg s (.start i th)
  | a           => Sys.step cfg s a

theorem Sys.hostStep_some {cfg : Config} {svc : Nat} {h : String} {s s' : Sys} {a : Act}
    (hstep : s.hostStep cfg svc h a = some s') :
    Sys.step cfg s a = some s' ∧ ∀ i th, a = .start i th → th.rivals svc h = false := by
  cases a with
  | start i th =>
    simp only [Sys.hostStep] at hstep
    split at hstep
    · cases hstep
    · rename_i hno
      refine ⟨hstep, ?_⟩
      rintro i' th' heq
      cases heq
      simpa using hno
  | _ => exact ⟨hstep, fun i th heq => by cases heq⟩

/-- Thread `p` is in the only drain of the service, which is the only one of the host. -/
structure SoleDrain (svc p : Nat) (h : String) (s : Sys) : Prop where
  draining : ∃ d pc, (s.threads p).drainOf = some (svc, d, pc)
  owner : ∃ o, s.owners svc = some o ∧ o.hostId = h
  other_owner : ∀ v o, v ≠ svc → s.owners v = some o → o.hostId ≠ h
  no_rival : ∀ q, q ≠ p → (s.threads q).rivals svc h = false
  no_submit : ∀ q spec, s.threads q ≠ .submit svc spec .dispatch
  foreign : ∀ q v spec pc o, v ≠ svc → s.threads q = .exec v spec pc → pc.target = some o → o.hostId ≠ h

/-- Who hands a Run to an executor. -/
theorem Thread.execute_cases {cfg : Config} {s : Sys} {k : Nat} {fresh : String} {inp : Input} {th th' : Thread}
    {spec : JobSpec} (h : th.advance cfg s k fresh inp = some (th', .execute spec)) :
    (∃ svc, th = .submit svc spec .dispatch ∧ th'.service = some svc) ∨
    ∃ svc d, th.drainOf = some (svc, d, .dispatch spec) ∧ th'.service = some svc ∧
      th'.drainOf = some (svc, { d with active := d.active ++ [(k, spec.jobId)] }, .loop) := by
  cases th with
  | none => cases h
  | submit svc sp pc =>
    obtain ⟨⟨pc', eff⟩, hx, hx'⟩ := Option.map_eq_some_iff.1 h
    cases hx'
    rcases SubmitPc.advance_effect hx with he | ⟨rfl, he⟩
    · cases he
    · cases he
      cases hx
      exact Or.inl ⟨svc, rfl, rfl⟩
  | cancel svc j pc =>
    obtain ⟨⟨pc', eff⟩, hx, hx'⟩ := Option.map_eq_some_iff.1 h
    cases hx'
    cases pc with
    | lookup => simp only [CancelPc.advance] at hx; split at hx <;> cases hx
    | _ => cases hx
  | exec svc sp pc =>
    obtain ⟨⟨pc', eff⟩, hx, hx'⟩ := Option.map_eq_some_iff.1 h
    cases hx'
    cases ExecPc.advance_cases hx
  | beat b pc => obtain ⟨x, -, hx'⟩ := Option.map_eq_some_iff.1 h; cases hx'
  | recover svc pc => obtain ⟨x, -, hx'⟩ := Option.map_eq_some_iff.1 h; cases hx'
  | drain svc d pc =>
    obtain ⟨⟨d', pc', eff⟩, hx, hx'⟩ := Option.map_eq_some_iff.1 h
    cases hx'
    rcases DrainPc.advance_effect hx with he | ⟨sp, rfl, he⟩
    · cases he
    · cases he
      cases hx
      exact Or.inr ⟨svc, d, rfl, rfl, rfl⟩
  | agent svc self d pc =>
    obtain ⟨⟨d', pc', eff⟩, hx, hx'⟩ := Option.map_eq_some_iff.1 h
    cases hx'
    rcases AgentPc.advance_effect hx with he | he | ⟨sp, rfl, he⟩
    · cases he
    · cases he
    · cases he
      cases hx
      exact Or.inr ⟨svc, d, rfl, rfl, rfl⟩
  | supervisor sup pc =>
    obtain ⟨⟨pc', eff⟩, hx, hx'⟩ := Option.map_eq_some_iff.1 h
    cases hx'
    cases SupervisorPc.advance_cases hx

/-- A worker stays the worker it is. -/
theorem worker_after {cfg : Config} {s s' : Sys} {a : Act} {q : Nat} (h : Sys.step cfg s a = some s') :
    (s'.threads q).worker = (s.threads q).worker ∨ (∃ th, a = .start q th ∧ s'.threads q = th) ∨
      (s'.threads q).worker = none := by
  cases thread_after q h with
  | same heq => exact Or.inl (by rw [heq])
  | entered th hact _ _ heq => exact Or.inr (Or.inl ⟨th, hact, heq⟩)
  | called fresh locked op _ _ heq =>
    left
    rw [heq]
    cases s.threads q <;> rfl
  | advanced k fresh inp th eff _ hadv heq =>
    left
    rw [heq]
    have hx := hadv.advance_eq
    cases hth : s.threads q with
    | none => rw [hth] at hx; cases hx
    | _ =>
      rw [hth] at hx
      obtain ⟨x, -, hx'⟩ := Option.map_eq_some_iff.1 hx
      cases hx'
      rfl
  | executed _ _ _ _ _ _ _ _ _ _ heq => exact Or.inr (Or.inr (by rw [heq]; rfl))
  | beat _ _ _ _ _ _ _ _ _ _ heq => exact Or.inr (Or.inr (by rw [heq]; rfl))
  | cancelled _ _ _ heq => exact Or.inr (Or.inr (by rw [heq]; rfl))

/-- Who takes an owner: the agent itself. -/
theorem Thread.own_cases {cfg : Config} {s : Sys} {k : Nat} {fresh : String} {inp : Input} {th th' : Thread}
    {owner : ExecutionOwner} (h : th.advance cfg s k fresh inp = some (th', .own owner)) :
    ∃ svc d, th = .agent svc owner d .own ∧ th'.service = some svc := by
  cases th with
  | none => cases h
  | agent svc self d pc =>
    obtain ⟨⟨d', pc', eff⟩, hx, hx'⟩ := Option.map_eq_some_iff.1 h
    cases hx'
    cases pc with
    | own =>
      simp only [AgentPc.advance] at hx
      split at hx
      · cases hx
        exact ⟨svc, d, rfl, rfl⟩
      · cases hx
    | drain pc₁ =>
      obtain ⟨⟨d₂, pc₂, eff₂⟩, hz, hz'⟩ := Option.map_eq_some_iff.1 hx
      cases hz'
      rcases DrainPc.advance_effect hz with he | ⟨_, -, he⟩ <;> cases he
    | _ => cases hx
  | submit svc sp pc =>
    obtain ⟨⟨pc', eff⟩, hx, hx'⟩ := Option.map_eq_some_iff.1 h
    cases hx'
    rcases SubmitPc.advance_effect hx with he | ⟨-, he⟩ <;> cases he
  | cancel svc j pc =>
    obtain ⟨⟨pc', eff⟩, hx, hx'⟩ := Option.map_eq_some_iff.1 h
    cases hx'
    cases pc with
    | lookup => simp only [CancelPc.advance] at hx; split at hx <;> cases hx
    | _ => cases hx
  | exec svc sp pc =>
    obtain ⟨⟨pc', eff⟩, hx, hx'⟩ := Option.map_eq_some_iff.1 h
    cases hx'
    cases ExecPc.advance_cases hx
  | beat b pc => obtain ⟨x, -, hx'⟩ := Option.map_eq_some_iff.1 h; cases hx'
  | recover svc r => obtain ⟨x, -, hx'⟩ := Option.map_eq_some_iff.1 h; cases hx'
  | drain svc d pc =>
    obtain ⟨⟨d', pc', eff⟩, hx, hx'⟩ := Option.map_eq_some_iff.1 h
    cases hx'
    rcases DrainPc.advance_effect hx with he | ⟨_, -, he⟩ <;> cases he
  | supervisor sup pc =>
    obtain ⟨⟨pc', eff⟩, hx, hx'⟩ := Option.map_eq_some_iff.1 h
    cases hx'
    cases SupervisorPc.advance_cases hx

/-- The owner of a service changes to that of an agent on it. -/
theorem owner_change {cfg : Config} {s s' : Sys} {a : Act} (h : Sys.step cfg s a = some s') (v : Nat) :
    s'.owners v = s.owners v ∨ ∃ i self d, s.threads i = .agent v self d .own ∧ s'.owners v = some self := by
  cases a with
  | advance i k fresh inp =>
    obtain ⟨th, eff, hadv, happ⟩ := Sys.proceed_some h
    cases eff with
    | own owner =>
      obtain ⟨svc, hsvc, rfl⟩ := Option.map_eq_some_iff.1 happ
      obtain ⟨svc', d, hth, hserv⟩ := Thread.own_cases hadv.advance_eq
      rw [hserv] at hsvc
      cases hsvc
      by_cases hv : v = svc
      · subst hv
        exact Or.inr ⟨i, owner, d, hth, Function.update_self ..⟩
      · exact Or.inl (Function.update_of_ne hv ..)
    | cancelFuture j =>
      obtain ⟨svc, -, rfl⟩ := Option.map_eq_some_iff.1 happ
      obtain ⟨threads, heq⟩ := Sys.cancelFuture_eq (s := s.put i fresh th) svc j
      rw [heq]
      exact Or.inl rfl
    | _ =>
      left
      cases Sys.apply_cases happ
      all_goals rfl
  | call i fresh locked =>
    obtain ⟨op, hc⟩ := Sys.call_some h
    exact Or.inl (by rw [hc.owners_eq])
  | _ =>
    left
    cases Sys.step_cases h
    all_goals rfl

section Step

variable {cfg : Config} {svc p : Nat} {h : String} {s s' : Sys} {a : Act}

theorem drainOf_of_agent {th : Thread} {v : Nat} {self : ExecutionOwner} {d : Drain} (hth : th = .agent v self d .own) :
    th.drainOf = none := by
  rw [hth]
  rfl

/-- A submit dispatches in local mode only. -/
theorem SubmitPc.resume_supervised {sv : Service} {specHash : JobSpec → String} {spec : JobSpec} {reply : Reply}
    {pc : SubmitPc}
    (hmode : sv.executionMode = .supervised) (h : pc.resume sv specHash spec reply = .dispatch) : pc = .dispatch := by
  have hexisting : ∀ v : RunView, SubmitPc.existing specHash spec v ≠ .dispatch := by
    intro v
    unfold SubmitPc.existing
    split <;> simp
  cases pc with
  | dispatch => rfl
  | create =>
    simp only [SubmitPc.resume, hmode] at h
    split at h <;> cases h
  | lookup =>
    simp only [SubmitPc.resume] at h
    split at h
    · exact absurd h (hexisting _)
    · cases h
  | reread =>
    simp only [SubmitPc.resume] at h
    split at h
    · exact absurd h (hexisting _)
    · cases h
  | readback =>
    simp only [SubmitPc.resume] at h
    split at h <;> cases h
  | _ => cases h

/-- A submit that calls no store comes to no dispatch. -/
theorem SubmitPc.advance_dispatch {sv : Service} {spec : JobSpec} {n : Nat} {pc pc' : SubmitPc} {eff : Effect}
    (h : pc.advance sv spec n = some (pc', eff)) : pc' ≠ .dispatch := by
  rintro rfl
  cases pc with
  | limit =>
    simp only [SubmitPc.advance] at h
    split at h
    · cases h
    · split at h <;> cases h
  | _ => cases h

/-- Only an agent on another service, of another host, may take an owner. -/
theorem SoleDrain.owner_step (hi : SoleDrain svc p h s) (hs : Sys.step cfg s a = some s') (v : Nat) :
    s'.owners v = s.owners v ∨ (v ≠ svc ∧ ∃ o, s'.owners v = some o ∧ o.hostId ≠ h) := by
  obtain ⟨d, pc, hdrain⟩ := hi.draining
  rcases owner_change hs v with heq | ⟨i, self, d', hth, hv⟩
  · exact Or.inl heq
  · have hne : i ≠ p := by
      rintro rfl
      rw [drainOf_of_agent hth] at hdrain
      cases hdrain
    have hrival := hi.no_rival i hne
    rw [hth] at hrival
    simp only [Thread.rivals, Thread.worker, Option.any_some, Bool.or_eq_false_iff, decide_eq_false_iff_not] at hrival
    exact Or.inr ⟨hrival.1, self, hv, fun hh => hrival.2 (by rw [hh])⟩

theorem SoleDrain.draining_step (hi : SoleDrain svc p h s) (hs : Sys.step cfg s a = some s') :
    ∃ d pc, (s'.threads p).drainOf = some (svc, d, pc) := by
  obtain ⟨d, pc, hdrain⟩ := hi.draining
  cases drain_step hs hdrain with
  | same _ heq => exact ⟨d, pc, heq⟩
  | called _ _ _ _ _ _ _ heq => exact ⟨d, _, heq⟩
  | advanced _ _ _ d' pc' _ _ _ heq => exact ⟨d', pc', heq⟩

theorem SoleDrain.rival_step (hi : SoleDrain svc p h s) (hs : Sys.step cfg s a = some s')
    (hstart : ∀ i th, a = .start i th → th.rivals svc h = false) {q : Nat} (hq : q ≠ p) :
    (s'.threads q).rivals svc h = false := by
  rcases worker_after (q := q) hs with heq | ⟨th, hact, heq⟩ | heq
  · have hold := hi.no_rival q hq
    unfold Thread.rivals at hold ⊢
    rw [heq]
    exact hold
  · rw [heq]
    exact hstart q th hact
  · unfold Thread.rivals
    rw [heq]
    rfl

theorem SoleDrain.submit_step (hmode : (cfg.service svc).executionMode = .supervised) (hi : SoleDrain svc p h s)
    (hs : Sys.step cfg s a = some s') (q : Nat) (spec : JobSpec) : s'.threads q ≠ .submit svc spec .dispatch := by
  intro hq
  cases thread_after q hs with
  | same heq => exact hi.no_submit q spec (by rw [← heq, hq])
  | entered th _ _ hentry heq => rw [hq] at heq; subst heq; cases hentry
  | called fresh locked op _ _ heq =>
    rw [hq] at heq
    cases hth : s.threads q with
    | submit v sp pc =>
      rw [hth] at heq
      simp only [Thread.resume, Thread.submit.injEq] at heq
      obtain ⟨rfl, rfl, hpc⟩ := heq
      obtain rfl := SubmitPc.resume_supervised hmode hpc.symm
      exact hi.no_submit q spec hth
    | _ => rw [hth] at heq; cases heq
  | advanced k fresh inp th eff _ hadv heq =>
    rw [hq] at heq
    subst heq
    have hx := hadv.advance_eq
    cases hth : s.threads q with
    | none => rw [hth] at hx; cases hx
    | submit v sp pc =>
      rw [hth] at hx
      obtain ⟨⟨pc', eff'⟩, hy, hy'⟩ := Option.map_eq_some_iff.1 hx
      cases hy'
      exact SubmitPc.advance_dispatch hy rfl
    | _ =>
      rw [hth] at hx
      obtain ⟨x, -, hx'⟩ := Option.map_eq_some_iff.1 hx
      cases hx'
  | executed _ _ _ _ _ _ _ _ _ _ heq => rw [hq] at heq; cases heq
  | beat _ _ _ _ _ _ _ _ _ _ heq => rw [hq] at heq; cases heq
  | cancelled _ _ _ heq => rw [hq] at heq; cases heq

theorem SoleDrain.foreign_step (hi : SoleDrain svc p h s) (hs : Sys.step cfg s a = some s') {q v : Nat} {spec : JobSpec}
    {pc : ExecPc} {o : ExecutionOwner} (hv : v ≠ svc) (hq : s'.threads q = .exec v spec pc) (ho : pc.target = some o) :
    o.hostId ≠ h := by
  cases exec_after hs hq with
  | same hth => exact hi.foreign q v spec pc o hv hth ho
  | called fresh locked pc₀ op _ _ hth _ hpc =>
    subst hpc
    rcases ExecPc.resume_target ho with hold | hnew
    · exact hi.foreign q v spec pc₀ o hv hth hold
    · exact hi.other_owner v o hv hnew
  | advanced _ _ _ pc₀ _ _ _ hadv =>
    rw [hadv.target] at ho
    cases ho
  | executed _ _ _ _ hpc => subst hpc; cases ho
  | cancelled _ hpc => subst hpc; cases ho

/-- **One Host Agent stays the only one.** -/
theorem soleDrain_step (hmode : (cfg.service svc).executionMode = .supervised) (hi : SoleDrain svc p h s)
    (hstep : s.hostStep cfg svc h a = some s') : SoleDrain svc p h s' := by
  obtain ⟨hs, hstart⟩ := Sys.hostStep_some hstep
  refine ⟨hi.draining_step hs, ?_, fun v o hv ho => ?_, fun q hq => hi.rival_step hs hstart hq, hi.submit_step hmode hs,
    fun q v spec pc o hv hq ho => hi.foreign_step hs hv hq ho⟩
  · obtain ⟨o, ho, hh⟩ := hi.owner
    rcases hi.owner_step hs svc with heq | ⟨hne, -⟩
    · exact ⟨o, by rw [heq, ho], hh⟩
    · exact absurd rfl hne
  · rcases hi.owner_step hs v with heq | ⟨-, o', ho', hne⟩
    · rw [heq] at ho
      exact hi.other_owner v o hv ho
    · rw [ho'] at ho
      cases ho
      exact hne

end Step

/-! ## The bound -/

/-- The executions of the drain that may still enqueue. -/
def Sys.outstanding (s : Sys) (d : Drain) : Nat :=
  d.active.countP (fun f => (s.execPc f.1).any ExecPc.enqueues)

/-- What a claim or a dispatch in progress will add to them. -/
def DrainPc.reserved : DrainPc → Nat
  | dispatch _ => 1
  | _          => 0

/-- The executions of the service are the drain's, and none of them comes to an adapter. -/
structure Executions (svc : Nat) (d : Drain) (s : Sys) : Prop where
  delivers : ∀ q spec pc, s.threads q = .exec svc spec pc → pc.Delivers
  listed : ∀ q spec pc, s.threads q = .exec svc spec pc → pc.enqueues = true → ∃ f ∈ d.active, f.1 = q
  active : ∀ f ∈ d.active, ∃ spec pc, s.threads f.1 = .exec svc spec pc

/-- Requests that count, executions that may add one, and the claim under way are within the budget. -/
structure WithinBudget (svc p budget : Nat) (h : String) (s : Sys) : Prop where
  sole : SoleDrain svc p h s
  within : ∀ d pc, (s.threads p).drainOf = some (svc, d, pc) → Executions svc d s ∧
    PostgresStore.countActiveExecutionRequests s.db h + s.outstanding d + pc.reserved ≤ budget

/-- A claim of the drain is made while the requests that count and the executions that may add one are below the budget. -/
def ClaimsBelow (svc p budget : Nat) (h : String) (s : Sys) (a : Act) : Prop :=
  ∀ fresh locked d, a = .call p fresh locked → (s.threads p).drainOf = some (svc, d, .claim) →
    PostgresStore.countActiveExecutionRequests s.db h + s.outstanding d < budget

section Bound

variable {cfg : Config} {svc p budget : Nat} {h : String} {s s' : Sys} {a : Act}

theorem execPc_eq {q v : Nat} {spec : JobSpec} {pc : ExecPc} (hq : s.threads q = .exec v spec pc) :
    s.execPc q = some pc := by
  unfold Sys.execPc
  rw [hq]

/-- What one step does to an execution of the service that was there. -/
theorem delivers_step (hmode : (cfg.service svc).executionMode = .supervised) (hs : Sys.step cfg s a = some s') {q : Nat}
    {spec : JobSpec} {pc : ExecPc} (hq : s.threads q = .exec svc spec pc) (hd : pc.Delivers) :
    ∃ pc', s'.threads q = .exec svc spec pc' ∧ pc'.Delivers ∧ (pc'.enqueues = true → pc.enqueues = true) := by
  obtain ⟨pc', hq'⟩ := exec_persists hs hq
  refine ⟨pc', hq', ?_⟩
  cases exec_after hs hq' with
  | same hth => rw [hq] at hth; cases hth; exact ⟨hd, fun h => h⟩
  | called fresh locked pc₀ op _ _ hth _ hpc =>
    rw [hq] at hth
    cases hth
    subst hpc
    exact ExecPc.resume_delivers hmode hd
  | advanced _ _ _ pc₀ _ _ hth hadv =>
    rw [hq] at hth
    cases hth
    exact hadv.delivers hd
  | executed _ _ _ hnone => rw [hq] at hnone; cases hnone
  | cancelled hth hpc => subst hpc; exact ⟨trivial, fun h => by cases h⟩

/-- An execution that is new in a step was dispatched by the drain. -/
theorem executed_by_drain (hi : SoleDrain svc p h s) (hs : Sys.step cfg s a = some s') {q : Nat} {spec : JobSpec}
    {pc : ExecPc} (hq : s'.threads q = .exec svc spec pc) (hnone : (s.threads q).isNone = true) :
    ∃ d fresh inp, a = .advance p q fresh inp ∧ pc = .pending ∧ (s.threads p).drainOf = some (svc, d, .dispatch spec) ∧
      (s'.threads p).drainOf = some (svc, { d with active := d.active ++ [(q, spec.jobId)] }, .loop) := by
  cases thread_after q hs with
  | same heq => rw [← heq, hq] at hnone; cases hnone
  | entered th _ _ hentry heq => rw [hq] at heq; subst heq; cases hentry
  | called fresh locked op _ hc =>
    have hop := hc.is_op
    cases hth : s.threads q with
    | none => rw [hth] at hop; cases hop
    | _ => rw [hth] at hnone; cases hnone
  | advanced k fresh inp th eff _ hadv =>
    have hx := (Thread.advance_isNone hadv.advance_eq).1
    rw [hnone] at hx
    cases hx
  | beat _ _ _ _ _ _ _ _ _ _ heq => rw [hq] at heq; cases heq
  | cancelled _ _ hpend => rw [hpend] at hnone; cases hnone
  | executed i fresh inp th spec' svc' hact hadv hserv _ heq hparent =>
    rw [hq] at heq
    cases heq
    rcases Thread.execute_cases hadv.advance_eq with ⟨v, hth, hv⟩ | ⟨v, d, hth, hv, hafter⟩
    · rw [hserv] at hv
      cases hv
      exact absurd hth (hi.no_submit i spec)
    · rw [hserv] at hv
      cases hv
      have hip : i = p := by
        by_contra hne
        have hrival := hi.no_rival i hne
        cases hti : s.threads i with
        | drain v₀ d₀ pc₀ =>
          rw [hti] at hth hrival
          cases hth
          simp [Thread.rivals, Thread.worker] at hrival
        | agent v₀ self d₀ pc₀ =>
          rw [hti] at hth hrival
          cases pc₀ with
          | drain pc₁ =>
            cases hth
            simp [Thread.rivals, Thread.worker] at hrival
          | _ => cases hth
        | _ => rw [hti] at hth; cases hth
      subst hip
      exact ⟨d, fresh, inp, hact, rfl, hth, by rw [hparent]; exact hafter⟩

theorem countP_lt {α : Type} {f g : α → Bool} {x : α} : ∀ {l : List α}, (∀ y ∈ l, f y = true → g y = true) → x ∈ l →
    f x = false → g x = true → l.countP f < l.countP g
  | [], _, hx, _, _ => by cases hx
  | y :: l, hfg, hx, hf, hg => by
    have hrest : l.countP f ≤ l.countP g := List.countP_mono_left (fun z hz => hfg z (List.mem_cons_of_mem y hz))
    rcases List.mem_cons.1 hx with rfl | hx
    · rw [List.countP_cons_of_neg (by simp [hf]), List.countP_cons_of_pos hg]
      omega
    · have hlt := countP_lt (fun z hz => hfg z (List.mem_cons_of_mem y hz)) hx hf hg
      have hhead := hfg y (List.mem_cons_self ..)
      simp only [List.countP_cons]
      by_cases hfy : f y = true
      · rw [if_pos hfy, if_pos (hhead hfy)]
        omega
      · rw [if_neg hfy]
        split <;> omega

/-- **The executions of a drain and the requests that count trade places**: a step that keeps the list adds no request
that the list does not lose. -/
theorem count_outstanding_le (hmode : (cfg.service svc).executionMode = .supervised) (hi : SoleDrain svc p h s)
    {d : Drain} (he : Executions svc d s) (hs : Sys.step cfg s a = some s') :
    PostgresStore.countActiveExecutionRequests s'.db h + s'.outstanding d ≤
      PostgresStore.countActiveExecutionRequests s.db h + s.outstanding d := by
  have hmono : ∀ f ∈ d.active, (s'.execPc f.1).any ExecPc.enqueues = true → (s.execPc f.1).any ExecPc.enqueues = true := by
    intro f hf hafter
    obtain ⟨spec, pc, hth⟩ := he.active f hf
    obtain ⟨pc', hth', -, hle⟩ := delivers_step hmode hs hth (he.delivers f.1 spec pc hth)
    rw [execPc_eq hth'] at hafter
    rw [execPc_eq hth]
    exact hle hafter
  have hle : s'.outstanding d ≤ s.outstanding d := List.countP_mono_left hmono
  rcases Sys.step_db hs with hdb | ⟨i, fresh, locked, op, rfl, hc⟩
  · rw [hdb]
    omega
  · rw [hc.db_eq]
    by_cases henq : ∃ e j n x, op = .enqueueExecutionRequest e j n h x
    · obtain ⟨e, j, n, x, rfl⟩ := henq
      obtain ⟨v, spec, pc, hth, -, hop⟩ := Thread.op_ofExecution hc.is_op rfl
      cases pc with
      | enqueue m t e' o =>
        cases hop
        -- the execution that enqueues is the service's, so it is on the list, and it leaves it
        have hv : v = svc := by
          by_contra hv
          exact hi.foreign i v spec _ o hv hth rfl rfl
        subst hv
        obtain ⟨f, hf, rfl⟩ := he.listed i spec _ hth rfl
        have hth' : s'.threads f.1 = .exec v spec ((ExecPc.enqueue n t e o).resume (cfg.service v) spec (s.owners v) fresh
            ((StoreOp.enqueueExecutionRequest e spec.jobId n o.hostId ⟨spec, t, o⟩).reply cfg.backend s.clock s.db)) := by
          rw [hc.threads_eq, Function.update_self, hth]
          rfl
        have hlt : s'.outstanding d < s.outstanding d := by
          refine countP_lt hmono hf ?_ (by rw [execPc_eq hth]; rfl)
          rw [execPc_eq hth', Option.any_some]
          simp only [ExecPc.resume]
          split
          · rfl
          · rfl
        have hadd := countActive_enqueue_le cfg.backend s.clock s.db e spec.jobId n o.hostId ⟨spec, t, o⟩ o.hostId
        omega
      | _ => cases hop
    · have hkeep := countActive_after_le cfg.backend s.clock s.db op h (fun e j n x heq => henq ⟨e, j, n, x, heq⟩)
      omega

/-- What a drain's own step does to its list. -/
theorem DrainPc.advance_active {sv : Service} {owner : Option ExecutionOwner} {live : String → Bool} {clock : Time}
    {observed : Nat → Option (Nat × Option String)} {result : Nat → Option FutureResult} {child : Nat} {fresh : String}
    {inp : Input} {d d' : Drain} {pc pc' : DrainPc} {eff : Effect}
    (hadv : pc.advance sv owner live clock observed result child fresh inp d = some (d', pc', eff)) :
    pc'.reserved = 0 ∧ d'.concurrency = d.concurrency ∧
    ((d'.active = d.active ∧ (∀ spec, pc ≠ .dispatch spec) ∧ pc ≠ .wait) ∨
     (pc = .wait ∧ d'.active = d.active.filter (fun f => (result f.1).isNone)) ∨
     ∃ spec, pc = .dispatch spec ∧ d' = { d with active := d.active ++ [(child, spec.jobId)] }) := by
  have hrecover : ∀ r, (DrainPc.ofRecover r).reserved = 0 := by
    intro r
    cases r <;> rfl
  cases pc with
  | enter =>
    simp only [DrainPc.advance] at hadv
    split at hadv <;> cases hadv <;> exact ⟨rfl, rfl, Or.inl ⟨rfl, (fun _ h => by cases h), (fun h => by cases h)⟩⟩
  | recovering r =>
    obtain ⟨x, -, hx⟩ := Option.map_eq_some_iff.1 hadv
    cases hx
    exact ⟨hrecover x, rfl, Or.inl ⟨rfl, (fun _ h => by cases h), (fun h => by cases h)⟩⟩
  | loop =>
    simp only [DrainPc.advance] at hadv
    split at hadv
    · split at hadv <;> cases hadv <;> exact ⟨rfl, rfl, Or.inl ⟨rfl, (fun _ h => by cases h), (fun h => by cases h)⟩⟩
    · cases hadv
      exact ⟨rfl, rfl, Or.inl ⟨rfl, (fun _ h => by cases h), (fun h => by cases h)⟩⟩
  | slots =>
    simp only [DrainPc.advance] at hadv
    split at hadv <;> cases hadv <;> exact ⟨rfl, rfl, Or.inl ⟨rfl, (fun _ h => by cases h), (fun h => by cases h)⟩⟩
  | wait =>
    simp only [DrainPc.advance] at hadv
    split at hadv
    · cases hadv
      exact ⟨rfl, rfl, Or.inr (Or.inl ⟨rfl, rfl⟩)⟩
    · cases hadv
  | dispatch spec =>
    cases hadv
    exact ⟨rfl, rfl, Or.inr (Or.inr ⟨spec, rfl, rfl⟩)⟩
  | collect rest =>
    have hother : (∀ spec, DrainPc.collect rest ≠ .dispatch spec) ∧ DrainPc.collect rest ≠ .wait :=
      ⟨fun _ h => (by cases h), fun h => (by cases h)⟩
    cases rest with
    | nil => cases hadv; exact ⟨rfl, rfl, Or.inl ⟨rfl, hother⟩⟩
    | cons f rest =>
      simp only [DrainPc.advance] at hadv
      split at hadv
      · cases hadv; exact ⟨rfl, rfl, Or.inl ⟨rfl, hother⟩⟩
      · cases hadv; exact ⟨rfl, rfl, Or.inl ⟨rfl, hother⟩⟩
      · cases hadv
  | _ => cases hadv

/-- A drain comes to a dispatch by its claim only. -/
theorem DrainPc.resume_reserved {sv : Service} {child : Option Child} {reply : Reply} {d : Drain} {pc : DrainPc}
    (hop : ∀ spec, pc ≠ .dispatch spec) (hclaim : pc ≠ .claim) : (pc.resume sv child reply d).reserved = 0 := by
  cases pc with
  | recovering r =>
    simp only [DrainPc.resume]
    generalize r.resume child reply = r'
    cases r' <;> rfl
  | capacity =>
    simp only [DrainPc.resume]
    split
    · split <;> rfl
    · rfl
  | claim => exact absurd rfl hclaim
  | dispatch spec => exact absurd rfl (hop spec)
  | _ => rfl

theorem executions_active {d d' : Drain} (hd : d'.active = d.active) (he : Executions svc d s) : Executions svc d' s where
  delivers := he.delivers
  listed := by rw [hd]; exact he.listed
  active := by rw [hd]; exact he.active

/-- A step that is not a dispatch of the drain leaves its executions on its list. -/
theorem executions_step (hmode : (cfg.service svc).executionMode = .supervised) (hi : SoleDrain svc p h s) {d : Drain}
    {pc : DrainPc} (hd : (s.threads p).drainOf = some (svc, d, pc)) (he : Executions svc d s)
    (hs : Sys.step cfg s a = some s')
    (hno : ∀ k fresh inp spec, a = .advance p k fresh inp → pc ≠ .dispatch spec) : Executions svc d s' := by
  have hbefore : ∀ q spec pc', s'.threads q = .exec svc spec pc' →
      ∃ pc₀, s.threads q = .exec svc spec pc₀ ∧ pc'.Delivers ∧ (pc'.enqueues = true → pc₀.enqueues = true) := by
    intro q spec pc' hq
    have hold : ∀ pc₀, s.threads q = .exec svc spec pc₀ →
        ∃ pc₀, s.threads q = .exec svc spec pc₀ ∧ pc'.Delivers ∧ (pc'.enqueues = true → pc₀.enqueues = true) := by
      intro pc₀ hth
      obtain ⟨pc₁, hth', hdel, hle⟩ := delivers_step hmode hs hth (he.delivers q spec pc₀ hth)
      rw [hq] at hth'
      cases hth'
      exact ⟨pc₀, hth, hdel, hle⟩
    cases exec_after hs hq with
    | same hth => exact hold _ hth
    | called _ _ pc₀ _ _ _ hth => exact hold pc₀ hth
    | advanced _ _ _ pc₀ _ _ hth => exact hold pc₀ hth
    | cancelled hth => exact hold _ hth
    | executed _ _ _ hnone =>
      obtain ⟨d₁, fresh, inp, hact, -, hdis, -⟩ := executed_by_drain hi hs hq hnone
      rw [hd] at hdis
      cases hdis
      exact absurd rfl (hno q fresh inp spec hact)
  refine ⟨?_, ?_, ?_⟩
  · intro q spec pc' hq
    obtain ⟨-, -, hdel, -⟩ := hbefore q spec pc' hq
    exact hdel
  · intro q spec pc' hq henq
    obtain ⟨pc₀, hth, -, hle⟩ := hbefore q spec pc' hq
    exact he.listed q spec pc₀ hth (hle henq)
  · intro f hf
    obtain ⟨spec, pc₀, hth⟩ := he.active f hf
    obtain ⟨pc', hth'⟩ := exec_persists hs hth
    exact ⟨spec, pc', hth'⟩

/-- A dispatch starts its execution as the thread the executor gives it. -/
theorem drain_dispatched {k : Nat} {fresh : String} {inp : Input} {d : Drain} {spec : JobSpec}
    (hs : Sys.step cfg s (.advance p k fresh inp) = some s') (hd : (s.threads p).drainOf = some (svc, d, .dispatch spec)) :
    (s.threads k).isNone = true ∧ s'.threads k = .exec svc spec .pending := by
  obtain ⟨th, eff, hadv, happ⟩ := Sys.proceed_some hs
  have hx := hadv.advance_eq
  have hexec : eff = .execute spec ∧ th.service = some svc := by
    cases hth : s.threads p with
    | drain v d₀ pc₀ =>
      rw [hth] at hd hx
      cases hd
      cases hx
      exact ⟨rfl, rfl⟩
    | agent v self d₀ pc₀ =>
      rw [hth] at hd hx
      cases pc₀ with
      | drain pc₁ =>
        cases hd
        cases hx
        exact ⟨rfl, rfl⟩
      | _ => cases hd
    | _ => rw [hth] at hd; cases hd
  obtain ⟨rfl, hserv⟩ := hexec
  have hparty := (Thread.advance_isNone hx).2
  cases Sys.apply_cases happ with
  | execute _ v hv hnone =>
    rw [hserv] at hv
    cases hv
    have hne : k ≠ p := by
      rintro rfl
      simp only [Sys.put, Function.update_self] at hnone
      rw [hparty] at hnone
      cases hnone
    simp only [Sys.put, Function.update_of_ne hne] at hnone
    exact ⟨hnone, Function.update_self ..⟩

/-- A dispatch puts its execution on the list. -/
theorem executions_dispatch (hmode : (cfg.service svc).executionMode = .supervised) (hi : SoleDrain svc p h s)
    {d : Drain} {spec : JobSpec} {k : Nat} {fresh : String} {inp : Input}
    (hd : (s.threads p).drainOf = some (svc, d, .dispatch spec)) (he : Executions svc d s)
    (hs : Sys.step cfg s (.advance p k fresh inp) = some s') :
    Executions svc { d with active := d.active ++ [(k, spec.jobId)] } s' := by
  obtain ⟨-, hnew⟩ := drain_dispatched hs hd
  -- an execution is the new one, or it was on the list
  have hbefore : ∀ q sp pc', s'.threads q = .exec svc sp pc' →
      (q = k ∧ pc' = .pending) ∨
        ∃ pc₀, s.threads q = .exec svc sp pc₀ ∧ pc'.Delivers ∧ (pc'.enqueues = true → pc₀.enqueues = true) := by
    intro q sp pc' hq
    have hold : ∀ pc₀, s.threads q = .exec svc sp pc₀ →
        ∃ pc₀, s.threads q = .exec svc sp pc₀ ∧ pc'.Delivers ∧ (pc'.enqueues = true → pc₀.enqueues = true) := by
      intro pc₀ hth
      obtain ⟨pc₁, hth', hdel, hle⟩ := delivers_step hmode hs hth (he.delivers q sp pc₀ hth)
      rw [hq] at hth'
      cases hth'
      exact ⟨pc₀, hth, hdel, hle⟩
    cases exec_after hs hq with
    | same hth => exact Or.inr (hold _ hth)
    | called _ _ pc₀ _ _ _ hth => exact Or.inr (hold pc₀ hth)
    | advanced _ _ _ pc₀ _ _ hth => exact Or.inr (hold pc₀ hth)
    | cancelled hth => exact Or.inr (hold _ hth)
    | executed _ _ _ hnone =>
      obtain ⟨d₁, fresh', inp', hact, hpend, -, -⟩ := executed_by_drain hi hs hq hnone
      cases hact
      exact Or.inl ⟨rfl, hpend⟩
  refine ⟨?_, ?_, ?_⟩
  · intro q sp pc' hq
    rcases hbefore q sp pc' hq with ⟨-, rfl⟩ | ⟨-, -, hdel, -⟩
    · exact trivial
    · exact hdel
  · intro q sp pc' hq henq
    rcases hbefore q sp pc' hq with ⟨rfl, -⟩ | ⟨pc₀, hth, -, hle⟩
    · exact ⟨(q, spec.jobId), by simp, rfl⟩
    · obtain ⟨f, hf, hfq⟩ := he.listed q sp pc₀ hth (hle henq)
      exact ⟨f, List.mem_append_left _ hf, hfq⟩
  · intro f hf
    rcases List.mem_append.1 hf with hf | hf
    · obtain ⟨sp, pc₀, hth⟩ := he.active f hf
      obtain ⟨pc', hth'⟩ := exec_persists hs hth
      exact ⟨sp, pc', hth'⟩
    · rw [List.mem_singleton.1 hf]
      exact ⟨spec, .pending, hnew⟩

/-- A future that has ended will not enqueue. -/
theorem enqueues_of_result {k : Nat} {r : FutureResult} (hr : s.result k = some r) :
    (s.execPc k).any ExecPc.enqueues = false := by
  unfold Sys.result at hr
  split at hr
  · rename_i hpc; rw [hpc]; rfl
  · rename_i hpc; rw [hpc]; rfl
  · rename_i hpc; rw [hpc]; rfl
  · cases hr

/-- **One step keeps the budget** where a claim in it was made below the budget. -/
theorem withinBudget_step (hmode : (cfg.service svc).executionMode = .supervised) (hi : WithinBudget svc p budget h s)
    (hclaim : ClaimsBelow svc p budget h s a) (hstep : s.hostStep cfg svc h a = some s') :
    WithinBudget svc p budget h s' := by
  obtain ⟨hs, -⟩ := Sys.hostStep_some hstep
  refine ⟨soleDrain_step hmode hi.sole hstep, ?_⟩
  intro d' pc' hd'
  obtain ⟨d, pc, hd⟩ := hi.sole.draining
  obtain ⟨he, hle⟩ := hi.within d pc hd
  have hcount := count_outstanding_le hmode hi.sole he hs
  cases drain_step hs hd with
  | same hother heq =>
    rw [hd'] at heq
    cases heq
    exact ⟨executions_step hmode hi.sole hd he hs (fun k fresh inp _ hact => absurd hact (hother k fresh inp)), by omega⟩
  | called fresh locked op child hact hc hop heq =>
    rw [hd'] at heq
    cases heq
    refine ⟨executions_step hmode hi.sole hd he hs (fun k fr inp spec hact' => by rw [hact] at hact'; cases hact'), ?_⟩
    by_cases hpc : pc = .claim
    · subst hpc
      have hlt := hclaim fresh locked d' hact hd
      have hone : ((DrainPc.claim).resume (cfg.service svc) child (op.reply cfg.backend s.clock s.db) d').reserved ≤ 1 := by
        simp only [DrainPc.resume]
        split
        · exact le_refl 1
        · exact Nat.zero_le 1
      omega
    · have hzero : (pc.resume (cfg.service svc) child (op.reply cfg.backend s.clock s.db) d').reserved = 0 :=
        DrainPc.resume_reserved (fun spec hdis => by subst hdis; cases hop) hpc
      omega
  | advanced k fresh inp d₁ pc₁ eff hact hadv heq =>
    rw [hd'] at heq
    cases heq
    obtain ⟨hzero, -, ⟨hsame, hno, -⟩ | ⟨rfl, hfilter⟩ | ⟨spec, rfl, rfl⟩⟩ := DrainPc.advance_active hadv
    · have hex := executions_step hmode hi.sole hd he hs (fun _ _ _ spec _ => hno spec)
      refine ⟨executions_active hsame hex, ?_⟩
      have hout : s'.outstanding d' = s'.outstanding d := by unfold Sys.outstanding; rw [hsame]
      omega
    · -- the futures that `wait` takes off the list have ended
      have hex := executions_step hmode hi.sole hd he hs (fun _ _ _ spec _ hpc => by cases hpc)
      have hout : s'.outstanding d' ≤ s'.outstanding d := by
        unfold Sys.outstanding
        rw [hfilter, List.countP_filter]
        exact List.countP_mono_left (fun f _ hf => by simp only [Bool.and_eq_true] at hf; exact hf.1)
      refine ⟨⟨hex.delivers, ?_, ?_⟩, by omega⟩
      · intro q spec pc' hq henq
        obtain ⟨f, hf, rfl⟩ := hex.listed q spec pc' hq henq
        refine ⟨f, ?_, rfl⟩
        rw [hfilter, List.mem_filter]
        refine ⟨hf, ?_⟩
        cases hr : s.result f.1 with
        | none => rfl
        | some r =>
          obtain ⟨spec₀, pc₀, hth⟩ := he.active f hf
          obtain ⟨pc₁, hth', -, hle⟩ := delivers_step hmode hs hth (he.delivers f.1 spec₀ pc₀ hth)
          rw [hq] at hth'
          cases hth'
          have hdone := enqueues_of_result hr
          rw [execPc_eq hth, Option.any_some, hle henq] at hdone
          cases hdone
      · intro f hf
        rw [hfilter] at hf
        exact hex.active f (List.mem_of_mem_filter hf)
    · subst hact
      refine ⟨executions_dispatch hmode hi.sole hd he hs, ?_⟩
      have hout : s'.outstanding { d with active := d.active ++ [(k, spec.jobId)] } ≤ s'.outstanding d + 1 := by
        unfold Sys.outstanding
        rw [List.countP_append]
        exact Nat.add_le_add_left List.countP_le_length _
      simp only [DrainPc.reserved] at hle hzero ⊢
      omega

/-! ## One execution at a time -/

/-- A drain of concurrency one looks at the count while it has no execution. -/
structure SerialDrain (svc p budget : Nat) (h : String) (s : Sys) : Prop where
  within : WithinBudget svc p budget h s
  serial : ∀ d pc, (s.threads p).drainOf = some (svc, d, pc) → d.concurrency = 1 ∧
    (pc = .slots → d.active = [] → PostgresStore.countActiveExecutionRequests s.db h < budget) ∧
    (pc = .claim → d.active = [] ∧ PostgresStore.countActiveExecutionRequests s.db h < budget)

theorem outstanding_nil {d : Drain} (hd : d.active = []) : s.outstanding d = 0 := by
  unfold Sys.outstanding
  rw [hd]
  rfl

/-- Its claims are below the budget. -/
theorem SerialDrain.claimsBelow (hi : SerialDrain svc p budget h s) (a : Act) : ClaimsBelow svc p budget h s a := by
  intro fresh locked d _ hd
  obtain ⟨hactive, hlt⟩ := (hi.serial d _ hd).2.2 rfl
  rw [outstanding_nil hactive]
  exact hlt

/-- A drain goes to `slots` from a check that found room, and to `claim` from `slots`. -/
theorem DrainPc.resume_slots {sv : Service} {child : Option Child} {reply : Reply} {d : Drain} {pc : DrainPc}
    (hpc : pc.resume sv child reply d = .slots) : pc = .slots ∨
      (pc = .capacity ∧ ∃ n room, sv.maxInFlight = some room ∧ reply = .rowcount n ∧ n < room) := by
  cases pc with
  | recovering r =>
    simp only [DrainPc.resume] at hpc
    generalize r.resume child reply = r' at hpc
    cases r' <;> cases hpc
  | capacity =>
    simp only [DrainPc.resume] at hpc
    split at hpc
    · rename_i room n hroom
      split at hpc
      · cases hpc
      · exact Or.inr ⟨rfl, n, room, hroom, rfl, by omega⟩
    · cases hpc
  | claim =>
    simp only [DrainPc.resume] at hpc
    split at hpc <;> cases hpc
  | slots => exact Or.inl rfl
  | _ => cases hpc

theorem DrainPc.resume_claim {sv : Service} {child : Option Child} {reply : Reply} {d : Drain} {pc : DrainPc}
    (hpc : pc.resume sv child reply d = .claim) : pc = .claim := by
  cases pc with
  | recovering r =>
    simp only [DrainPc.resume] at hpc
    generalize r.resume child reply = r' at hpc
    cases r' <;> cases hpc
  | capacity =>
    simp only [DrainPc.resume] at hpc
    split at hpc
    · split at hpc <;> cases hpc
    · cases hpc
  | claim => rfl
  | _ => cases hpc

theorem DrainPc.advance_slots {sv : Service} {owner : Option ExecutionOwner} {live : String → Bool} {clock : Time}
    {observed : Nat → Option (Nat × Option String)} {result : Nat → Option FutureResult} {k : Nat} {fresh : String}
    {inp : Input} {d d' : Drain} {pc pc' : DrainPc} {eff : Effect} (hmode : sv.executionMode = .supervised)
    (howner : owner.isSome = true)
    (hadv : pc.advance sv owner live clock observed result k fresh inp d = some (d', pc', eff)) :
    pc' ≠ .slots ∧ (pc' = .claim → pc = .slots ∧ d' = d ∧ d.active.length < d.concurrency) := by
  cases pc with
  | enter =>
    simp only [DrainPc.advance] at hadv
    split at hadv <;> cases hadv <;> exact ⟨fun h => (by cases h), fun h => by cases h⟩
  | recovering r =>
    obtain ⟨x, -, hx⟩ := Option.map_eq_some_iff.1 hadv
    cases hx
    cases x <;> exact ⟨fun h => (by cases h), fun h => by cases h⟩
  | loop =>
    have hgate : sv.executionMode = .supervised ∧ owner.isSome = true := ⟨hmode, howner⟩
    simp only [DrainPc.advance, if_pos hgate] at hadv
    split at hadv <;> cases hadv <;> exact ⟨fun h => (by cases h), fun h => by cases h⟩
  | slots =>
    simp only [DrainPc.advance] at hadv
    split at hadv
    · cases hadv
      exact ⟨fun h => (by cases h), fun h => by cases h⟩
    · rename_i hroom
      cases hadv
      exact ⟨fun h => (by cases h), fun _ => ⟨rfl, rfl, by omega⟩⟩
  | wait =>
    simp only [DrainPc.advance] at hadv
    split at hadv
    · cases hadv
      exact ⟨fun h => (by cases h), fun h => by cases h⟩
    · cases hadv
  | dispatch spec =>
    cases hadv
    exact ⟨fun h => (by cases h), fun h => by cases h⟩
  | collect rest =>
    cases rest with
    | nil =>
      cases hadv
      exact ⟨fun h => (by cases h), fun h => by cases h⟩
    | cons f rest =>
      simp only [DrainPc.advance] at hadv
      split at hadv
      · cases hadv
        exact ⟨fun h => (by cases h), fun h => by cases h⟩
      · cases hadv
        exact ⟨fun h => (by cases h), fun h => by cases h⟩
      · cases hadv
  | _ => cases hadv

/-- **One step of a serial drain.** -/
theorem serialDrain_step (hmode : (cfg.service svc).executionMode = .supervised)
    (hbudget : (cfg.service svc).maxInFlight = some budget) (hi : SerialDrain svc p budget h s)
    (hstep : s.hostStep cfg svc h a = some s') : SerialDrain svc p budget h s' := by
  obtain ⟨hs, -⟩ := Sys.hostStep_some hstep
  refine ⟨withinBudget_step hmode hi.within (hi.claimsBelow a) hstep, ?_⟩
  intro d' pc' hd'
  obtain ⟨d, pc, hd⟩ := hi.within.sole.draining
  obtain ⟨he, -⟩ := hi.within.within d pc hd
  obtain ⟨hone, hslots, hclaim⟩ := hi.serial d pc hd
  -- while the drain has no execution the count does not grow
  have hkeep : d.active = [] → PostgresStore.countActiveExecutionRequests s'.db h ≤
      PostgresStore.countActiveExecutionRequests s.db h := by
    intro hactive
    have hcount := count_outstanding_le hmode hi.within.sole he hs
    rw [outstanding_nil hactive, outstanding_nil hactive] at hcount
    exact hcount
  cases drain_step hs hd with
  | same _ heq =>
    rw [hd'] at heq
    cases heq
    refine ⟨hone, fun hpc hactive => lt_of_le_of_lt (hkeep hactive) (hslots hpc hactive), fun hpc => ?_⟩
    obtain ⟨hactive, hlt⟩ := hclaim hpc
    exact ⟨hactive, lt_of_le_of_lt (hkeep hactive) hlt⟩
  | called fresh locked op child _ hc hop heq =>
    rw [hd'] at heq
    cases heq
    refine ⟨hone, fun hpc hactive => ?_, fun hpc => ?_⟩
    · rcases DrainPc.resume_slots hpc with rfl | ⟨rfl, n, room, hroom, hreply, hlt⟩
      · cases hop
      · obtain ⟨o, ho, hh⟩ := hi.within.sole.owner
        simp only [DrainPc.op, ho, Option.map_some, Option.some.injEq] at hop
        subst hop
        rw [hbudget] at hroom
        cases hroom
        have hn : n = PostgresStore.countActiveExecutionRequests s.db h := by
          cases hb : cfg.backend with
          | sqlite => rw [hb] at hreply; cases hreply
          | postgres => rw [hb, hh] at hreply; cases hreply; rfl
        exact lt_of_le_of_lt (hkeep hactive) (hn ▸ hlt)
    · -- a claim's call leaves it
      have hwas := DrainPc.resume_claim hpc
      subst hwas
      simp only [DrainPc.resume] at hpc
      split at hpc <;> cases hpc
  | advanced k fresh inp d₁ pc₁ eff _ hadv heq =>
    rw [hd'] at heq
    cases heq
    obtain ⟨o, ho, -⟩ := hi.within.sole.owner
    obtain ⟨-, hconc, -⟩ := DrainPc.advance_active hadv
    obtain ⟨hno, hyes⟩ := DrainPc.advance_slots hmode (by rw [ho]; rfl) hadv
    refine ⟨by rw [hconc, hone], fun hpc => absurd hpc hno, fun hpc => ?_⟩
    obtain ⟨hwas, rfl, hroom⟩ := hyes hpc
    have hactive : d'.active = [] := List.length_eq_zero_iff.1 (by omega)
    exact ⟨hactive, lt_of_le_of_lt (hkeep hactive) (hslots hwas hactive)⟩

/-! ## A whole drain -/

/-- When a drain starts: it has dispatched nothing, no execution of its service has yet to enqueue, and the requests of the
host are within the budget. -/
structure DrainStart (svc p budget : Nat) (d : Drain) (h : String) (s : Sys) : Prop where
  sole : SoleDrain svc p h s
  entering : (s.threads p).drainOf = some (svc, d, .enter)
  inactive : d.active = []
  delivered : ∀ q spec pc, s.threads q = .exec svc spec pc → pc.Delivers ∧ pc.enqueues = false
  count_le : PostgresStore.countActiveExecutionRequests s.db h ≤ budget

theorem DrainStart.withinBudget {d : Drain} (hi : DrainStart svc p budget d h s) : WithinBudget svc p budget h s := by
  refine ⟨hi.sole, ?_⟩
  intro d' pc hd
  rw [hi.entering] at hd
  cases hd
  refine ⟨⟨fun q spec pc hq => (hi.delivered q spec pc hq).1, fun q spec pc hq henq => ?_, fun f hf => ?_⟩, ?_⟩
  · rw [(hi.delivered q spec pc hq).2] at henq
    cases henq
  · rw [hi.inactive] at hf
    cases hf
  · rw [outstanding_nil hi.inactive]
    exact hi.count_le

theorem DrainStart.serialDrain {d : Drain} (hi : DrainStart svc p budget d h s) (hone : d.concurrency = 1) :
    SerialDrain svc p budget h s := by
  refine ⟨hi.withinBudget, ?_⟩
  intro d' pc hd
  rw [hi.entering] at hd
  cases hd
  exact ⟨hone, fun h => (by cases h), fun h => by cases h⟩

/-- The requests of the host stay within the budget through the run. -/
def DispatchWithin (cfg : Config) (svc budget : Nat) (h : String) (s : Sys) (acts : List Act) : Prop :=
  ∀ pre post m, acts = pre ++ post → Trace.run (Sys.hostStep cfg svc h) s pre = some m →
    PostgresStore.countActiveExecutionRequests m.db h ≤ budget

theorem WithinBudget.count_le (hi : WithinBudget svc p budget h s) :
    PostgresStore.countActiveExecutionRequests s.db h ≤ budget := by
  obtain ⟨d, pc, hd⟩ := hi.sole.draining
  obtain ⟨-, hle⟩ := hi.within d pc hd
  omega

/-- **Dispatch stays within capacity** in a run whose claims are each made below the budget, and every claim of a drain of
concurrency one is. -/
theorem dispatch_within_capacity (cfg : Config) (svc p budget : Nat) (d : Drain) (h : String) (s : Sys) (acts : List Act)
    (hmode : (cfg.service svc).executionMode = .supervised) (hbudget : (cfg.service svc).maxInFlight = some budget)
    (hs : DrainStart svc p budget d h s) :
    (Trace.Every (Sys.hostStep cfg svc h) (ClaimsBelow svc p budget h) s acts → DispatchWithin cfg svc budget h s acts) ∧
    (d.concurrency = 1 → Trace.Every (Sys.hostStep cfg svc h) (ClaimsBelow svc p budget h) s acts) := by
  constructor
  · rintro hevery pre post m rfl hm
    have hpre := (Trace.every_append.1 hevery).1
    have hlast : WithinBudget svc p budget h m :=
      Trace.run_preserves_of_every (fun _ _ _ hi hc hstep => withinBudget_step hmode hi hc hstep) hs.withinBudget hpre hm
    exact hlast.count_le
  · intro hone
    rw [Trace.every_iff_forall_split]
    rintro pre a post m rfl hm
    have hserial : SerialDrain svc p budget h m :=
      Trace.run_preserves (fun _ _ _ hi hstep => serialDrain_step hmode hbudget hi hstep) (hs.serialDrain hone) hm
    exact hserial.claimsBelow a

end Bound

/-! ### Two claims before the first enqueue -/

def supervisedConfig : Config :=
  ⟨.postgres, fun _ => { workerService with executionMode := .supervised, maxInFlight := some 1 }, fun spec => spec.jobId⟩

def secondSpec : JobSpec := { timingSpec with jobId := "second" }

/-- Two queued Runs and the session of the Host Agent. -/
def backlogDb : Db :=
  (StoreOp.startHostSession ⟨"host", "epoch", "session"⟩ 30).after .postgres 1
    ((StoreOp.createRun "second" "design" "ip" "flow" (some "second") (some 5) (some secondSpec)).after .postgres 1
      ((StoreOp.createRun "job" "design" "ip" "flow" (some "job") (some 5) (some timingSpec)).after .postgres 0 Db.empty))

/-- The Host Agent before its drain, with an execution capacity of one. -/
def hostAgent (concurrency : Nat) : Sys :=
  { Sys.init with
    clock := 1
    db := backlogDb
    threads := Function.update Sys.init.threads 0
      (.agent 0 ⟨"host", "epoch", "session"⟩ ⟨none, concurrency, [], []⟩ (.drain .enter))
    owners := Function.update Sys.init.owners 0 (some ⟨"host", "epoch", "session"⟩) }

/-- The drain up to its first dispatch, and its next look at the capacity. -/
def firstDispatchActs : List Act :=
  [.advance 0 0 "a1" .go, .advance 0 0 "a2" .go, .call 0 "a3" [], .call 0 "a4" [], .advance 0 0 "a5" .go,
   .advance 0 0 "a6" .go, .call 0 "a7" [], .advance 0 0 "a8" .go, .call 0 "a9" [], .advance 0 0 "a10" .go,
   .call 0 "a11" [], .advance 0 1 "a12" .go, .advance 0 0 "a13" .go, .call 0 "a14" []]

/-- The execution in thread 1 enqueues its request. -/
def firstEnqueueActs : List Act :=
  [.advance 1 0 "b1" .go, .call 1 "b2" [], .call 1 "b3" [], .call 1 "b4" [], .call 1 "b5" [], .call 1 "b6" []]

/-- The drain claims the second Run before the first has enqueued. -/
def windowActs : List Act :=
  firstDispatchActs ++ [.advance 0 0 "a15" .go, .call 0 "a16" [], .advance 0 2 "a17" .go] ++ firstEnqueueActs ++
  [.advance 2 0 "c1" .go, .call 2 "c2" [], .call 2 "c3" [], .call 2 "c4" [], .call 2 "c5" [], .call 2 "c6" []]

theorem hostAgent_threads {c q : Nat} (hq : q ≠ 0) : (hostAgent c).threads q = .none := by
  unfold hostAgent
  exact Function.update_of_ne hq ..

theorem hostAgent_start (c : Nat) : DrainStart 0 0 1 ⟨none, c, [], []⟩ "host" (hostAgent c) := by
  -- no thread but the agent's own, so none is an execution, a submit or a rival
  have hthread : ∀ q th, (hostAgent c).threads q = th → th.isNone = true ∨
      th = .agent 0 ⟨"host", "epoch", "session"⟩ ⟨none, c, [], []⟩ (.drain .enter) := by
    rintro q th rfl
    by_cases hq : q = 0
    · subst hq
      exact Or.inr rfl
    · rw [hostAgent_threads hq]
      exact Or.inl rfl
  have hexec : ∀ q v spec pc, (hostAgent c).threads q ≠ .exec v spec pc := by
    intro q v spec pc hq
    rcases hthread q _ hq with h | h <;> cases h
  refine ⟨⟨⟨_, _, rfl⟩, ⟨_, rfl, rfl⟩, ?_, ?_, ?_, ?_⟩, rfl, rfl, ?_, ?_⟩
  · intro v o hv ho
    have hnone : (hostAgent c).owners v = none := Function.update_of_ne hv ..
    rw [hnone] at ho
    cases ho
  · intro q hq
    rw [hostAgent_threads hq]
    rfl
  · intro q spec hq
    rcases hthread q _ hq with h | h <;> cases h
  · intro q v spec pc o _ hq
    exact absurd hq (hexec q v spec pc)
  · intro q spec pc hq
    exact absurd hq (hexec q 0 spec pc)
  · have hzero : PostgresStore.countActiveExecutionRequests backlogDb "host" = 0 := by decide +kernel
    have hdb : (hostAgent c).db = backlogDb := rfl
    rw [hdb, hzero]
    exact Nat.zero_le 1

/-- **With a window of two the drain of a Host Agent goes beyond a capacity of one.** -/
theorem window_overruns_capacity :
    ¬ ∀ (cfg : Config) (svc p budget : Nat) (d : Drain) (h : String) (s : Sys) (acts : List Act),
      (cfg.service svc).executionMode = .supervised → (cfg.service svc).maxInFlight = some budget → 1 ≤ d.concurrency →
      1 ≤ budget → DrainStart svc p budget d h s → DispatchWithin cfg svc budget h s acts := by
  intro hall
  have hrun : ((Trace.run (Sys.hostStep supervisedConfig 0 "host") (hostAgent 2) windowActs).map
      (fun s => PostgresStore.countActiveExecutionRequests s.db "host")) = some 2 := by decide +kernel
  obtain ⟨m, hm, hcount⟩ := Option.map_eq_some_iff.1 hrun
  have hle := hall supervisedConfig 0 0 1 ⟨none, 2, [], []⟩ "host" (hostAgent 2) windowActs rfl rfl (by decide) (by decide)
    (hostAgent_start 2) windowActs [] m (by simp) hm
  omega

theorem serialAgent_within :
    DispatchWithin supervisedConfig 0 1 "host" (hostAgent 1) (firstDispatchActs ++ firstEnqueueActs) := by
  have h := dispatch_within_capacity supervisedConfig 0 0 1 ⟨none, 1, [], []⟩ "host" (hostAgent 1)
    (firstDispatchActs ++ firstEnqueueActs) rfl rfl (hostAgent_start 1)
  exact h.1 (h.2 rfl)

end EdaLab
