import EdaLab.Agreement
import EdaLab.Capacity
import EdaLab.Progress
import EdaLab.Relay
/-!
# Subscriber — what is heard of a Run

`_execute` and the supervisor publish what they have written, after they wrote it, and go on whether or not that worked.
So an event is late and may be lost, and between the write and its event the other parties go on; a message is on the
channel before its `publish` returns, or never.  Where no Run has two executions, what is heard of a Run is in the order in
which it was written: `RUNNING`, and then how one Attempt was completed (`heard_in_order`).
-/
namespace EdaLab

/-! ## Who publishes what -/

/-- What a thread publishes on the reply to its call. -/
def Thread.progress (reply : Reply) : Thread → Option ProgressEvent
  | .exec _ spec .start               => some { jobId := spec.jobId, status := .running }
  | .exec _ _ (.finalize c _)         =>
    if reply = .flag true then some { jobId := c.jobId, status := c.runStatus, attemptNo := some c.attemptNo }
    else Option.none
  | .supervisor sup (.finalize req c) =>
    if reply = .flag true then
      some { jobId := req.jobId, status := c.runStatus, attemptNo := some req.attemptNo,
             supervisor := some (sup.hostId, sup.supervisorId) }
    else Option.none
  | _ => Option.none

/-- The thread that takes the step. -/
def Act.party : Act → Option Nat
  | .call i _ _      => some i
  | .advance i _ _ _ => some i
  | _                => none

/-- What the step leaves a thread to publish. -/
def Sys.publishes (cfg : Config) (s : Sys) : Act → Option (Nat × ProgressEvent)
  | .call i _ locked =>
    ((s.threads i).op cfg s locked).bind (fun op =>
      ((s.threads i).progress (op.reply cfg.backend s.clock s.db)).map (fun e => (i, e)))
  | _ => none

/-- The system, what its threads are about to publish and the messages Redis has taken; `written` is what has been written
that is to be published. -/
structure Feed where
  sys        : Sys
  publishing : Nat → Option ProgressEvent
  channel    : List (List Char)
  written    : List ProgressEvent

def Feed.init : Feed := ⟨Sys.init, fun _ => none, [], []⟩

inductive FeedAct
  | act (a : Act)
  /-- The call of `publish` returns; `taken` is whether Redis took the message, the client heard so or not. -/
  | publish (i : Nat) (observedAt : ObservedAt) (taken : Bool)

/-- A thread that is publishing takes no other step.  The others may already see its execution done, which adds runs and
takes none away. -/
def Feed.step (cfg : Config) (publisher : Thread → Publisher) (f : Feed) : FeedAct → Option Feed
  | .act a =>
    if (a.party.bind f.publishing).isSome then none
    else (Sys.step cfg f.sys a).map (fun s =>
      match f.sys.publishes cfg a with
      | none        => { f with sys := s }
      | some (i, e) =>
        { f with sys := s, publishing := Function.update f.publishing i (some e), written := f.written ++ [e] })
  | .publish i observedAt taken =>
    (f.publishing i).map (fun e =>
      { f with
        publishing := Function.update f.publishing i none
        channel := f.channel ++ (if taken then ((publisher (f.sys.threads i)).sends e observedAt).toList else []) })

/-! ## What a step does -/

section Step

variable {cfg : Config} {publisher : Thread → Publisher} {f f' : Feed}

inductive Feed.Stepped (cfg : Config) (publisher : Thread → Publisher) (f : Feed) : FeedAct → Feed → Prop
  | quiet (a : Act) (s : Sys) (step_eq : Sys.step cfg f.sys a = some s)
      (free : ∀ i, a.party = some i → f.publishing i = none) (silent : f.sys.publishes cfg a = none) :
      Stepped cfg publisher f (.act a) { f with sys := s }
  | wrote (a : Act) (s : Sys) (i : Nat) (e : ProgressEvent) (step_eq : Sys.step cfg f.sys a = some s)
      (free : ∀ i, a.party = some i → f.publishing i = none) (publishes_eq : f.sys.publishes cfg a = some (i, e)) :
      Stepped cfg publisher f (.act a)
        { f with sys := s, publishing := Function.update f.publishing i (some e), written := f.written ++ [e] }
  | published (i : Nat) (e : ProgressEvent) (observedAt : ObservedAt) (taken : Bool) (was : f.publishing i = some e) :
      Stepped cfg publisher f (.publish i observedAt taken)
        { f with
          publishing := Function.update f.publishing i none
          channel := f.channel ++ (if taken then ((publisher (f.sys.threads i)).sends e observedAt).toList else []) }

theorem Feed.step_cases {x : FeedAct} (h : Feed.step cfg publisher f x = some f') : Stepped cfg publisher f x f' := by
  cases x with
  | act a =>
    rw [Feed.step] at h
    split at h
    · cases h
    · rename_i hfree
      have hfree' : ∀ i, a.party = some i → f.publishing i = none := by
        intro i hi
        rw [hi, Option.bind_some, Bool.not_eq_true, Option.isSome_eq_false_iff, Option.isNone_iff_eq_none] at hfree
        exact hfree
      obtain ⟨s, hs, rfl⟩ := Option.map_eq_some_iff.1 h
      cases hp : f.sys.publishes cfg a with
      | none => exact .quiet a s hs hfree' hp
      | some x => exact .wrote a s x.1 x.2 hs hfree' hp
  | publish i observedAt taken =>
    obtain ⟨e, he, rfl⟩ := Option.map_eq_some_iff.1 h
    exact .published i e observedAt taken he

/-- The call that writes the completion, for this owner. -/
def Completion.call (c : Completion) (owner : Option ExecutionOwner) : StoreOp :=
  .finalizeAttemptAndRun { c with executionOwner := owner }

/-- The two writes that are published. -/
inductive Sys.Written (cfg : Config) (s : Sys) (a : Act) (i : Nat) (e : ProgressEvent) (s' : Sys) : Prop
  | started (svc : Nat) (spec : JobSpec) (was : s.threads i = .exec svc spec .start)
      (event_eq : e = { jobId := spec.jobId, status := .running }) (attempts_eq : s'.db.attempts = s.db.attempts)
      (begun : ∃ pc, s'.threads i = .exec svc spec pc ∧ pc.phase ≠ .none)
  | completed (fresh : String) (locked : List String) (c : Completion) (owner : Option ExecutionOwner)
      (is_act : a = .call i fresh locked) (finishing_eq : (s.threads i).finishing = some c)
      (call : Sys.Called cfg s i fresh locked (c.call owner) s')
      (accepted : (c.call owner).reply cfg.backend s.clock s.db = .flag true)
      (progress_eq : (s.threads i).progress (.flag true) = some e)

theorem Sys.publishes_cases {s s' : Sys} {a : Act} {i : Nat} {e : ProgressEvent} (hp : s.publishes cfg a = some (i, e))
    (h : Sys.step cfg s a = some s') : a.party = some i ∧ s.Written cfg a i e s' := by
  cases a with
  | call q fresh locked =>
    obtain ⟨op, hc⟩ := Sys.call_some h
    have hop := hc.is_op
    simp only [Sys.publishes, hop, Option.bind_some, Option.map_eq_some_iff, Prod.mk.injEq] at hp
    obtain ⟨e, he, rfl, rfl⟩ := hp
    refine ⟨rfl, ?_⟩
    cases hth : s.threads q with
    | exec svc spec pc =>
      rw [hth] at he hop
      cases pc with
      | start =>
        cases he
        cases hop
        refine .started svc spec hth rfl (by rw [hc.db_eq, updateRun_attempts])
          ⟨ExecPc.start.resume (cfg.service svc) spec (s.owners svc) fresh
            ((StoreOp.updateRun spec.jobId { status := some .running }).reply cfg.backend s.clock s.db), ?_, ?_⟩
        · rw [hc.threads_eq, Function.update_self, hth]
          rfl
        · simp only [ExecPc.resume]
          split <;> (intro hnone; cases hnone)
      | finalize c scope =>
        cases hop
        simp only [Thread.progress] at he
        split at he
        · rename_i hrep
          refine .completed fresh locked c _ rfl (by rw [hth]; rfl) hc hrep ?_
          rw [hth, Thread.progress, if_pos rfl, ← he]
        · cases he
      | _ => cases he
    | supervisor sup pc =>
      rw [hth] at he hop
      cases pc with
      | finalize req c =>
        cases hop
        simp only [Thread.progress] at he
        split at he
        · rename_i hrep
          refine .completed fresh locked c c.executionOwner rfl (by rw [hth]; rfl) hc hrep ?_
          rw [hth, Thread.progress, if_pos rfl, ← he]
        · cases he
      | _ => cases he
    | _ => rw [hth] at he; cases he
  | _ => cases hp

/-! ## Executions that have begun -/

theorem begun_after {s s' : Sys} {a : Act} (h : Sys.step cfg s a = some s') {q svc : Nat} {spec : JobSpec} {pc : ExecPc}
    (hq : s.threads q = .exec svc spec pc) (hbegun : pc.phase ≠ .none) :
    ∃ pc', s'.threads q = .exec svc spec pc' ∧ pc'.phase ≠ .none := by
  obtain ⟨pc', hq'⟩ := exec_persists h hq
  refine ⟨pc', hq', ?_⟩
  cases exec_after h hq' with
  | same hth => rw [hq] at hth; cases hth; exact hbegun
  | called fresh locked pc₀ op _ _ hth _ hpc =>
    rw [hq] at hth
    cases hth
    subst hpc
    have hcases := pc.resume_cases (cfg.service svc) spec (s.owners svc) fresh (op.reply cfg.backend s.clock s.db)
    generalize pc.resume (cfg.service svc) spec (s.owners svc) fresh (op.reply cfg.backend s.clock s.db) = pc' at hcases
    cases hcases with
    | idle => exact hbegun
    | _ => intro hnone; cases hnone
  | advanced _ fresh inp pc₀ eff _ hth hadv =>
    rw [hq] at hth
    cases hth
    cases hadv with
    | begin => exact absurd rfl hbegun
    | raised n t e =>
      rcases adapterRaised_cases (cfg.service svc) spec n t e with ⟨k, m, heq⟩ | ⟨c, heq, -, -⟩
      · rw [heq]; intro hnone; cases hnone
      · rw [heq]; intro hnone; cases hnone
    | _ => intro hnone; cases hnone
  | executed i _ _ hnone _ => rw [hq] at hnone; cases hnone
  | cancelled hth _ => rw [hq] at hth; cases hth; exact absurd rfl hbegun

/-- An execution that has begun had, or its step is the write that it publishes. -/
theorem begun_before {s s' : Sys} {a : Act} (h : Sys.step cfg s a = some s') {q svc : Nat} {spec : JobSpec} {pc' : ExecPc}
    (hq : s'.threads q = .exec svc spec pc') (hbegun : pc'.phase ≠ .none) :
    (∃ pc, s.threads q = .exec svc spec pc ∧ pc.phase ≠ .none) ∨
    ∃ e, s.publishes cfg a = some (q, e) ∧ e.jobId = spec.jobId := by
  cases exec_after h hq with
  | same hth => exact Or.inl ⟨pc', hth, hbegun⟩
  | called fresh locked pc op hact hc hth hop hpc =>
    cases pc with
    | start =>
      subst hact
      refine Or.inr ⟨{ jobId := spec.jobId, status := .running }, ?_, rfl⟩
      have hsome := hc.is_op
      rw [hth] at hsome
      simp only [Sys.publishes, hth, hsome, Option.bind_some, Thread.progress, Option.map_some]
    | pending => cases hop
    | cancelled => cases hop
    | _ => exact Or.inl ⟨_, hth, fun hnone => by cases hnone⟩
  | advanced _ fresh inp pc eff _ hth hadv =>
    refine Or.inl ⟨pc, hth, fun hnone => ?_⟩
    cases hadv with
    | begin => exact hbegun rfl
    | _ => cases hnone
  | executed i _ _ _ hpc => subst hpc; exact absurd rfl hbegun
  | cancelled _ hpc => subst hpc; exact absurd rfl hbegun

/-- A job with an Attempt has an execution that has begun. -/
theorem begun_of_attempt {s : Sys} (hi : ExecInv cfg s) {j : String} {n : Nat} {a : AttemptRow}
    (ha : s.db.attempts.get (j, n) = some a) :
    ∃ q svc spec pc, s.threads q = .exec svc spec pc ∧ spec.jobId = j ∧ pc.phase ≠ .none := by
  obtain ⟨p, hp⟩ := s.exists_phase j
  have hphase := hi.attempts j p hp
  have hsome : p ≠ .none := by
    rintro rfl
    have hrange := (hphase.isSome_iff n).1 (by rw [ha]; rfl)
    omega
  rcases hp with ⟨q, svc, spec, pc, hq, hj, hpc⟩ | ⟨-, hnone⟩
  · exact ⟨q, svc, spec, pc, hq, hj, by rw [hpc]; exact hsome⟩
  · exact absurd hnone hsome

/-! ## The requests supervisors hold -/

/-- A completion of a supervisor is of its request. -/
def SupervisorPc.Finishes : SupervisorPc → Prop
  | finalize req c => c.jobId = req.jobId ∧ c.attemptNo = req.attemptNo
  | _              => True

def RequestsHeld (s : Sys) : Prop := ∀ q sup pc, s.threads q = .supervisor sup pc → pc.Finishes ∧
  ∀ req, pc.request = some req → ∃ r, s.db.executionRequests.get req.executionId = some r ∧ r.jobId = req.jobId

theorem requestsHeld_init : RequestsHeld Sys.init := fun _ _ _ h => by cases h

theorem SupervisorPc.resume_finishes {pc : SupervisorPc} {reply : Reply} (h : pc.Finishes) :
    (pc.resume reply).Finishes := by
  cases pc with
  | claim => simp only [resume]; split <;> trivial
  | started req pid => simp only [resume]; split <;> trivial
  | witness req w result =>
    cases result with
    | none => trivial
    | some r =>
      simp only [resume]
      split
      · simp only [Finishes, completion]
        split <;> exact ⟨rfl, rfl⟩
      · trivial
  | finalize req c => simp only [resume]; split <;> trivial
  | _ => exact h

theorem SupervisorPc.resume_request {pc : SupervisorPc} {reply : Reply} {req : ExecutionRequestRow}
    (h : (pc.resume reply).request = some req) :
    pc.request = some req ∨ (pc = .claim ∧ reply = .request (some req)) := by
  cases pc with
  | claim =>
    simp only [resume] at h
    split at h
    · cases h
      exact Or.inr ⟨rfl, rfl⟩
    · cases h
  | started req' pid => simp only [resume] at h; split at h <;> exact Or.inl h
  | witness req' w result =>
    cases result with
    | none => cases h
    | some r =>
      simp only [resume] at h
      split at h
      · exact Or.inl h
      · cases h
  | finalize req' c => simp only [resume] at h; split at h <;> cases h
  | _ => exact Or.inl h

theorem requestsHeld_step {s s' : Sys} {a : Act} (hr : RequestsHeld s) (h : Sys.step cfg s a = some s') :
    RequestsHeld s' := by
  have hkept : ∀ {req : ExecutionRequestRow},
      (∃ r, s.db.executionRequests.get req.executionId = some r ∧ r.jobId = req.jobId) →
      ∃ r, s'.db.executionRequests.get req.executionId = some r ∧ r.jobId = req.jobId := by
    rintro req ⟨r, hget, hjob⟩
    obtain ⟨r', hget', hjob', -⟩ := request_after_step h hget
    exact ⟨r', hget', hjob'.trans hjob⟩
  intro q sup pc' hq
  cases supervisor_after h hq with
  | same hth => exact ⟨(hr q sup pc' hth).1, fun req hreq => hkept ((hr q sup pc' hth).2 req hreq)⟩
  | entered _ hpc => subst hpc; exact ⟨trivial, fun req hreq => by cases hreq⟩
  | called pc fresh locked op hth _ hc hop hpc =>
    subst hpc
    refine ⟨SupervisorPc.resume_finishes (hr q sup pc hth).1, fun req hreq => ?_⟩
    rcases SupervisorPc.resume_request hreq with hold | ⟨rfl, hrep⟩
    · exact hkept ((hr q sup pc hth).2 req hold)
    · cases hop
      obtain ⟨-, -, r', hr', hjob', -⟩ := claimExecutionRequest_request hrep
      exact ⟨r', by rw [hc.db_eq]; exact hr', hjob'⟩
  | advanced pc eff hth _ _ _ _ hadv =>
    have hold := (hr q sup pc hth).2
    cases hadv with
    | unread => exact ⟨trivial, fun req hreq => by cases hreq⟩
    | _ => exact ⟨trivial, fun req hreq => hkept (hold req hreq)⟩

/-! ## A completion that was written -/

/-- The job's execution has left, none of its Attempts runs, and the Attempt of the event is in the state it says. -/
structure Completed (s : Sys) (e : ProgressEvent) : Prop where
  left : ∃ q svc spec pc, s.threads q = .exec svc spec pc ∧ spec.jobId = e.jobId ∧ pc.entered = none
  quiet : ∀ n a, s.db.attempts.get (e.jobId, n) = some a → a.status ≠ .running
  attempt : ∃ n a, e.attemptNo = some n ∧ s.db.attempts.get (e.jobId, n) = some a ∧
    (e.status = .succeeded ↔ a.status = .succeeded)

/-- The execution that records an Attempt of the job is the one there is. -/
theorem recording_exec {s : Sys} (hi : ExecInv cfg s) {i q svc : Nat} {locked : List String} {j : String} {n : Nat}
    {st : AttemptStatus} {et e ap : Option String} {rc : Option RetryClass}
    (hop : (s.threads i).op cfg s locked = some (.recordAttempt j n st et e ap rc)) {spec : JobSpec} {pc : ExecPc}
    (hq : s.threads q = .exec svc spec pc) (hj : spec.jobId = j) : q = i ∧ pc.entered ≠ none := by
  obtain ⟨svc', spec', pc', hth, hjob, hpc⟩ := Thread.op_ofExecution hop rfl
  obtain ⟨rfl, -, rfl⟩ := one_mode hi.sole hq hth (hj.trans hjob.symm)
  refine ⟨rfl, fun hnone => ?_⟩
  cases pc with
  | record m => cases hnone
  | _ => cases hpc

/-- **A written completion stays true.** -/
theorem Completed.step {s s' : Sys} {a : Act} {e : ProgressEvent} (hi : ExecInv cfg s) (hm : FinishingMade s)
    (hc : Completed s e) (h : Sys.step cfg s a = some s') : Completed s' e := by
  obtain ⟨q, svc, spec, pc, hq, hj, hleft⟩ := hc.left
  obtain ⟨pc', hq', hleft'⟩ := left_after h hq hleft
  obtain ⟨n, row, hn, hrow, hst⟩ := hc.attempt
  rcases Sys.step_db h with hdb | ⟨i, fresh, locked, op, -, hcall⟩
  · exact ⟨⟨q, svc, spec, pc', hq', hj, hleft'⟩, by rw [hdb]; exact hc.quiet, n, row, hn, by rw [hdb]; exact hrow,
      hst⟩
  · have hpaired := Thread.op_paired hi hm hcall.is_op
    refine ⟨⟨q, svc, spec, pc', hq', hj, hleft'⟩, fun m a' ha' => ?_, n, row, hn, ?_, hst⟩
    · rw [hcall.db_eq] at ha'
      cases attempts_after cfg.backend s.clock s.db op (e.jobId, m) with
      | same hget => rw [hget] at ha'; exact hc.quiet m a' ha'
      | recorded st et err ap rc hop =>
        have hop' := hcall.is_op
        rw [hop] at hop'
        exact absurd hleft (recording_exec hi hop' hq hj).2
      | updated u a₀ hop _ ha₀ hg => exact absurd (attemptUpdate_running hop hg) (hc.quiet m a₀ ha₀)
      | renewed t ttl a₀ _ ha₀ hg =>
        simp only [Store.isQueuedDelivery, Bool.and_eq_true] at hg
        exact absurd (by simpa [AttemptRow.isRunning] using hg.1.1.1) (hc.quiet m a₀ ha₀)
    · rw [hcall.db_eq]
      exact closed_kept hpaired hrow (hc.quiet n row hrow)

section Write

variable {s s' : Sys} {i : Nat} {e : ProgressEvent} {fresh : String} {locked : List String} {c : Completion}
  {owner : Option ExecutionOwner}

/-- The event of a completion is of its job, its Attempt and its Run status. -/
theorem event_of_completion (hi : ExecInv cfg s) (hr : RequestsHeld s) (hfin : (s.threads i).finishing = some c)
    (hprog : (s.threads i).progress (.flag true) = some e) :
    e.jobId = c.jobId ∧ e.status = c.runStatus ∧ e.attemptNo = some c.attemptNo ∧ c.attemptStatus ≠ .running ∧
      c.runStatus.isTerminal = true := by
  have hwf := hi.queue.wf i
  cases hth : s.threads i with
  | exec svc spec pc =>
    rw [hth] at hfin hprog hwf
    cases pc with
    | finalize c₀ scope =>
      cases hfin
      simp only [Thread.progress, if_true, Option.some.injEq] at hprog
      subst hprog
      exact ⟨rfl, rfl, rfl, hwf.2⟩
    | _ => cases hfin
  | supervisor sup pc =>
    rw [hth] at hfin hprog hwf
    cases pc with
    | finalize req c₀ =>
      cases hfin
      simp only [Thread.progress, if_true, Option.some.injEq] at hprog
      subst hprog
      obtain ⟨hjob, hno⟩ := (hr i sup _ hth).1
      exact ⟨hjob.symm, rfl, congrArg some hno.symm, hwf.2⟩
    | _ => cases hfin
  | _ => rw [hth] at hfin; cases hfin

/-- The execution of a job that has been completed has left: it wrote the completion, or its supervisor did. -/
theorem left_of_completion (hi : ExecInv cfg s) (hd : DeliveryInv cfg s) (hr : RequestsHeld s)
    (hfin : (s.threads i).finishing = some c)
    (hcall : Sys.Called cfg s i fresh locked (c.call owner) s')
    (hrep : (c.call owner).reply cfg.backend s.clock s.db = .flag true)
    (h : Sys.step cfg s (.call i fresh locked) = some s') :
    ∃ q svc spec pc, s'.threads q = .exec svc spec pc ∧ spec.jobId = c.jobId ∧ pc.entered = none := by
  have hwf := hi.queue.wf i
  have hthreads := hcall.threads_eq
  cases hth : s.threads i with
  | exec svc spec pc =>
    rw [hth] at hfin hwf hthreads
    cases pc with
    | finalize c₀ scope =>
      cases hfin
      refine ⟨i, svc, spec, _, by rw [hthreads, Function.update_self]; rfl, hwf.1.symm, ?_⟩
      rw [hrep]
      cases scope with
      | body payload => simp only [ExecPc.resume, if_true]; split <;> rfl
      | handler => rfl
    | _ => cases hfin
  | supervisor sup pc =>
    rw [hth] at hfin hwf
    cases pc with
    | finalize req c₀ =>
      cases hfin
      obtain ⟨r, hget, hrjob⟩ := (hr i sup _ hth).2 req rfl
      obtain ⟨q, svc, spec, pc, hq, hspec, -, hleft⟩ := hd.enqueued _ r hget
      obtain ⟨pc', hq', hleft'⟩ := left_after h hq hleft
      exact ⟨q, svc, spec, pc', hq', (hspec.trans hrjob).trans hwf.1.symm, hleft'⟩
    | _ => cases hfin
  | _ => rw [hth] at hfin; cases hfin

/-- **An accepted completion is true of what it leaves**, and its Attempt was running. -/
theorem completed_of_written (hi : ExecInv cfg s) (hd : DeliveryInv cfg s) (hm : FinishingMade s) (hr : RequestsHeld s)
    (hfin : (s.threads i).finishing = some c)
    (hcall : Sys.Called cfg s i fresh locked (c.call owner) s')
    (hrep : (c.call owner).reply cfg.backend s.clock s.db = .flag true)
    (hprog : (s.threads i).progress (.flag true) = some e) (h : Sys.step cfg s (.call i fresh locked) = some s') :
    (∃ n a, s.db.attempts.get (e.jobId, n) = some a ∧ a.status = .running) ∧ e.status.isTerminal = true ∧
      Completed s' e := by
  obtain ⟨hjob, hstatus, hno, hclosed, hterminal⟩ := event_of_completion hi hr hfin hprog
  obtain ⟨hbefore, row, hrow, hrowst⟩ := completion_accepted hrep
  have hpaired := (hm i c hfin).paired
  refine ⟨⟨c.attemptNo, by rw [hjob]; exact hbefore⟩, by rw [hstatus]; exact hterminal, ?_, fun m a' ha' => ?_,
    c.attemptNo, row, hno, ?_, ?_⟩
  · rw [hjob]
    exact left_of_completion hi hd hr hfin hcall hrep h
  · rw [hjob, hcall.db_eq] at ha'
    by_cases hmn : m = c.attemptNo
    · subst hmn
      cases Option.some.inj (hrow.symm.trans ha')
      rw [hrowst]
      exact hclosed
    · cases attempts_after cfg.backend s.clock s.db (c.call owner)
          (c.jobId, m) with
      | same hget =>
        rw [hget] at ha'
        intro hrun
        obtain ⟨p, hp⟩ := s.exists_phase c.jobId
        obtain ⟨k, hk⟩ := Db.inPhase_numbered (hi.attempts c.jobId p hp)
        obtain ⟨a, ha, harun⟩ := hbefore
        exact hmn ((hk.running_last ha' hrun).trans (hk.running_last ha harun).symm)
      | recorded _ _ _ _ _ hne => cases hne
      | updated u a₀ hu hkey =>
        cases hu
        exact absurd (Prod.mk.inj hkey).2.symm hmn
      | renewed _ _ _ hne => cases hne
  · rw [hjob, hcall.db_eq]
    exact hrow
  · rw [hstatus, hrowst]
    refine ⟨hpaired.succeeds, fun hst => hpaired.closes _ ?_⟩
    rw [hst]
    rfl

end Write

/-! ## The invariant -/

/-- `RUNNING`, and then how one Attempt was completed. -/
inductive EventOrder : List ProgressEvent → Prop
  | none : EventOrder []
  | running (e : ProgressEvent) (is_running : e.status = .running) : EventOrder [e]
  | completed (e e' : ProgressEvent) (is_running : e.status = .running) (is_terminal : e'.status.isTerminal = true) :
    EventOrder [e, e']

/-- What is written to be published of a job. -/
def Feed.writtenOf (f : Feed) (j : String) : List ProgressEvent := Relay.entries ProgressEvent.jobId j f.written

def Begun (s : Sys) (j : String) : Prop :=
  ∃ q svc spec pc, s.threads q = .exec svc spec pc ∧ spec.jobId = j ∧ pc.phase ≠ .none

/-- The deployment's invariants. -/
structure SystemInv (cfg : Config) (s : Sys) : Prop where
  exec     : ExecInv cfg s
  delivery : DeliveryInv cfg s
  made     : FinishingMade s
  held     : RequestsHeld s

theorem systemInv_init (cfg : Config) : SystemInv cfg Sys.init :=
  ⟨execInv_init cfg, deliveryInv_init cfg, finishing_made_init, requestsHeld_init⟩

theorem systemInv_step {s s' : Sys} {a : Act} (hi : SystemInv cfg s) (hsep : s'.Separate)
    (h : Sys.step cfg s a = some s') : SystemInv cfg s' where
  exec := execInv_step hi.exec hsep h
  delivery := deliveryInv_step hi.exec hi.delivery h
  made := finishing_made_step hi.made h
  held := requestsHeld_step hi.held h

/-- The thread is an execution of the job, which has recorded no Attempt. -/
def Unattempted (s : Sys) (i : Nat) (j : String) : Prop :=
  (∃ svc spec pc, s.threads i = .exec svc spec pc ∧ spec.jobId = j) ∧ ∀ n, s.db.attempts.get (j, n) = none

/-- What the parties know of what they have written. -/
structure WrittenInv (s : Sys) (written : List ProgressEvent) (publishing : Nat → Option ProgressEvent) : Prop where
  order : ∀ j, EventOrder (Relay.entries ProgressEvent.jobId j written)
  begun : ∀ e ∈ written, Begun s e.jobId
  all : ∀ j, Begun s j → ∃ e ∈ written, e.jobId = j
  /-- While the first event of a Run is on its way, its execution has not recorded an Attempt. -/
  first : ∀ i e, publishing i = some e → e.status = .running → Unattempted s i e.jobId
  completed : ∀ e ∈ written, e.status ≠ .running → Completed s e

section Steps

variable {s s' : Sys} {a : Act} {written : List ProgressEvent} {publishing : Nat → Option ProgressEvent}

theorem Begun.step {j : String} (hb : Begun s j) (h : Sys.step cfg s a = some s') : Begun s' j := by
  obtain ⟨q, svc, spec, pc, hq, hj, hbegun⟩ := hb
  obtain ⟨pc', hq', hbegun'⟩ := begun_after h hq hbegun
  exact ⟨q, svc, spec, pc', hq', hj, hbegun'⟩

theorem Completed.begun {e : ProgressEvent} (hc : Completed s e) : Begun s e.jobId := by
  obtain ⟨q, svc, spec, pc, hq, hj, hleft⟩ := hc.left
  refine ⟨q, svc, spec, pc, hq, hj, fun hnone => ?_⟩
  cases pc with
  | metrics t payload => cases hnone
  | returned => cases hnone
  | raised => cases hnone
  | _ => cases hleft

/-- No Attempt is recorded while the first event is on its way. -/
theorem first_step (hi : SystemInv cfg s) (hw : WrittenInv s written publishing) (h : Sys.step cfg s a = some s')
    (hfree : ∀ i, a.party = some i → publishing i = none) {i : Nat} {e : ProgressEvent} (hp : publishing i = some e)
    (hst : e.status = .running) : Unattempted s' i e.jobId := by
  obtain ⟨⟨svc, spec, pc, hth, hj⟩, hnone⟩ := hw.first i e hp hst
  obtain ⟨pc', hth'⟩ := exec_persists h hth
  refine ⟨⟨svc, spec, pc', hth', hj⟩, fun n => ?_⟩
  rcases Sys.step_db h with hdb | ⟨q, fresh, locked, op, rfl, hc⟩
  · rw [hdb]
    exact hnone n
  · rw [hc.db_eq]
    cases attempts_after cfg.backend s.clock s.db op (e.jobId, n) with
    | same hget => rw [hget]; exact hnone n
    | recorded st et err ap rc hop =>
      -- it would be the execution that is publishing
      have hop' := hc.is_op
      rw [hop] at hop'
      obtain ⟨rfl, -⟩ := recording_exec hi.exec hop' hth hj
      rw [hfree i rfl] at hp
      cases hp
    | updated u a₀ _ _ ha₀ => rw [hnone n] at ha₀; cases ha₀
    | renewed t ttl a₀ _ ha₀ => rw [hnone n] at ha₀; cases ha₀

/-- **A step that writes nothing to be published.** -/
theorem written_quiet (hi : SystemInv cfg s) (hw : WrittenInv s written publishing) (h : Sys.step cfg s a = some s')
    (hfree : ∀ i, a.party = some i → publishing i = none) (hquiet : s.publishes cfg a = none) :
    WrittenInv s' written publishing where
  order := hw.order
  begun e he := (hw.begun e he).step h
  all j hb := by
    obtain ⟨q, svc, spec, pc', hq, hj, hbegun⟩ := hb
    rcases begun_before h hq hbegun with ⟨pc, hth, hold⟩ | ⟨e, hp, -⟩
    · exact hw.all j ⟨q, svc, spec, pc, hth, hj, hold⟩
    · rw [hquiet] at hp
      cases hp
  first i e hp hst := first_step hi hw h hfree hp hst
  completed e he hst := (hw.completed e he hst).step hi.exec hi.made h

/-- What a step that writes something to be published finds: nothing of the job is on its way, and the event is the
next. -/
structure NextEvent (s' : Sys) (written : List ProgressEvent) (publishing : Nat → Option ProgressEvent) (i : Nat)
    (e : ProgressEvent) : Prop where
  order : EventOrder (Relay.entries ProgressEvent.jobId e.jobId written ++ [e])
  alone : ∀ i' e', publishing i' = some e' → e'.jobId ≠ e.jobId
  begun : Begun s' e.jobId
  first : e.status = .running → Unattempted s' i e.jobId
  completed : e.status ≠ .running → Completed s' e

theorem nextEvent (hi : SystemInv cfg s) (hw : WrittenInv s written publishing)
    (hflying : ∀ i e, publishing i = some e → e ∈ written) (h : Sys.step cfg s a = some s') {i : Nat}
    {e : ProgressEvent} (hp : s.publishes cfg a = some (i, e)) : NextEvent s' written publishing i e := by
  obtain ⟨hparty, hwritten⟩ := Sys.publishes_cases hp h
  cases hwritten with
  | started svc spec hth he hattempts hbegun =>
    subst he
    obtain ⟨pc', hth', hbegun'⟩ := hbegun
    -- the execution has not begun, and it is the only one of the job
    have hnew : ∀ e' ∈ written, e'.jobId ≠ spec.jobId := by
      intro e' he' hjob
      obtain ⟨q, svc', spec', pc, hq, hj, hold⟩ := hw.begun e' he'
      obtain ⟨-, -, rfl⟩ := one_mode hi.exec.sole hth hq (hj.trans hjob).symm
      exact hold rfl
    have hnil : Relay.entries ProgressEvent.jobId spec.jobId written = [] :=
      List.filter_eq_nil_iff.2 (fun e' he' hd => hnew e' he' (of_decide_eq_true hd))
    refine ⟨?_, fun i' e' hf => hnew e' (hflying i' e' hf), ⟨i, svc, spec, pc', hth', rfl, hbegun'⟩, fun _ => ?_,
      fun hst => absurd rfl hst⟩
    · show EventOrder (Relay.entries ProgressEvent.jobId spec.jobId written ++ _)
      rw [hnil]
      exact .running _ rfl
    · refine ⟨⟨svc, spec, pc', hth', rfl⟩, fun n => ?_⟩
      have hphase := hi.exec.attempts spec.jobId .none (Or.inl ⟨i, svc, spec, _, hth, rfl, rfl⟩)
      rw [hattempts, ← Option.not_isSome_iff_eq_none]
      intro hsome
      have hrange := (hphase.isSome_iff n).1 hsome
      omega
  | completed fresh locked c owner hact hfin hcall hrep hprog =>
    subst hact
    obtain ⟨⟨n, row, hrow, hrun⟩, hterminal, hdone⟩ :=
      completed_of_written hi.exec hi.delivery hi.made hi.held hfin hcall hrep hprog h
    have hnotRunning : e.status ≠ .running := fun hst => by rw [hst] at hterminal; cases hterminal
    -- its Attempt runs, so the job has no completion yet
    have hopen : ∀ e' ∈ written, e'.jobId = e.jobId → e'.status = .running := by
      intro e' he' hj
      by_contra hst
      exact (hw.completed e' he' hst).quiet n row (by rw [hj]; exact hrow) hrun
    refine ⟨?_, fun i' e' hf hj => ?_, hdone.begun, fun hst => absurd hst hnotRunning, fun _ => hdone⟩
    · obtain ⟨e₀, he₀, hj₀⟩ := hw.all e.jobId (begun_of_attempt hi.exec hrow)
      have hmem : ∀ e', e' ∈ Relay.entries ProgressEvent.jobId e.jobId written → e'.status = .running :=
        fun e' he' => hopen e' (Relay.mem_entries.1 he').1 (Relay.mem_entries.1 he').2
      have hin := Relay.mem_entries.2 ⟨he₀, hj₀⟩
      have horder := hw.order e.jobId
      generalize Relay.entries ProgressEvent.jobId e.jobId written = l at hmem hin horder ⊢
      cases horder with
      | none => cases hin
      | running e₁ hst => exact .completed e₁ e hst hterminal
      | completed e₁ e₂ _ hst =>
        rw [hmem e₂ (List.mem_cons_of_mem _ List.mem_cons_self)] at hst
        cases hst
    · have hnone := (hw.first i' e' hf (hopen e' (hflying i' e' hf) hj)).2 n
      rw [hj, hrow] at hnone
      cases hnone

/-- **A step that writes something to be published.** -/
theorem written_wrote (hi : SystemInv cfg s) (hw : WrittenInv s written publishing)
    (hflying : ∀ i e, publishing i = some e → e ∈ written) (h : Sys.step cfg s a = some s')
    (hfree : ∀ i, a.party = some i → publishing i = none) {i : Nat} {e : ProgressEvent}
    (hp : s.publishes cfg a = some (i, e)) :
    WrittenInv s' (written ++ [e]) (Function.update publishing i (some e)) where
  order j := by
    have hnext := nextEvent hi hw hflying h hp
    by_cases hj : e.jobId = j
    · subst hj
      rw [Relay.entries_snoc_self]
      exact hnext.order
    · rw [Relay.entries_snoc_other hj]
      exact hw.order j
  begun e' he' := by
    rcases List.mem_append.1 he' with he' | he'
    · exact (hw.begun e' he').step h
    · rw [List.mem_singleton.1 he']
      exact (nextEvent hi hw hflying h hp).begun
  all j hb := by
    obtain ⟨q, svc, spec, pc', hq, hj, hbegun⟩ := hb
    rcases begun_before h hq hbegun with ⟨pc, hth, hold⟩ | ⟨e', hp', hj'⟩
    · obtain ⟨e', he', hjob⟩ := hw.all j ⟨q, svc, spec, pc, hth, hj, hold⟩
      exact ⟨e', List.mem_append_left _ he', hjob⟩
    · rw [hp] at hp'
      cases hp'
      exact ⟨e, List.mem_append_right _ List.mem_cons_self, hj'.trans hj⟩
  first i' e' hp' hst := by
    by_cases hi' : i' = i
    · subst hi'
      rw [Function.update_self] at hp'
      cases hp'
      exact (nextEvent hi hw hflying h hp).first hst
    · rw [Function.update_of_ne hi'] at hp'
      exact first_step hi hw h hfree hp' hst
  completed e' he' hst := by
    rcases List.mem_append.1 he' with he' | he'
    · exact (hw.completed e' he' hst).step hi.exec hi.made h
    · rw [List.mem_singleton.1 he'] at hst ⊢
      exact (nextEvent hi hw hflying h hp).completed hst

theorem written_settled (hw : WrittenInv s written publishing) (i : Nat) :
    WrittenInv s written (Function.update publishing i none) where
  order := hw.order
  begun := hw.begun
  all := hw.all
  first i' e hp hst := by
    by_cases hi' : i' = i
    · subst hi'
      rw [Function.update_self] at hp
      cases hp
    · rw [Function.update_of_ne hi'] at hp
      exact hw.first i' e hp hst
  completed := hw.completed

end Steps

/-! ## Runs -/

/-- The messages are those of what was heard, and what was heard is relayed from what was written. -/
structure FeedInv (cfg : Config) (f : Feed) (heard : List (ProgressEvent × ObservedAt)) : Prop where
  system  : SystemInv cfg f.sys
  written : WrittenInv f.sys f.written f.publishing
  relay   : Relay.Inv ProgressEvent.jobId ⟨f.written, f.publishing, heard.map (·.1)⟩
  channel : f.channel.map PyValue.loads = heard.map (fun x => some (.object (x.1.sorted x.2)))

theorem feedInv_init (cfg : Config) : FeedInv cfg Feed.init [] where
  system := systemInv_init cfg
  written := ⟨fun _ => .none, (fun _ h => by cases h), (fun _ ⟨_, _, _, _, hq, _⟩ => by cases hq),
    (fun _ _ h => by cases h), (fun _ h => by cases h)⟩
  relay := Relay.inv_empty
  channel := rfl

theorem feedInv_step {heard : List (ProgressEvent × ObservedAt)} {x : FeedAct} (hi : FeedInv cfg f heard)
    (hsep : f'.sys.Separate) (h : Feed.step cfg publisher f x = some f') : ∃ heard', FeedInv cfg f' heard' := by
  have hflying : ∀ i e, f.publishing i = some e → e ∈ f.written := fun i e he => hi.relay.mem_log he
  cases Feed.step_cases h with
  | quiet a s hs hfree hquiet =>
    exact ⟨heard, systemInv_step hi.system hsep hs, written_quiet hi.system hi.written hs hfree hquiet, hi.relay,
      hi.channel⟩
  | wrote a s i e hs hfree hp =>
    have hnext := nextEvent hi.system hi.written hflying hs hp
    exact ⟨heard, systemInv_step hi.system hsep hs, written_wrote hi.system hi.written hflying hs hfree hp,
      hi.relay.append hnext.alone, hi.channel⟩
  | published i e observedAt taken he =>
    have hlost : FeedInv cfg { f with publishing := Function.update f.publishing i none } heard :=
      ⟨hi.system, written_settled hi.written i, by simpa [Relay.State.settle] using hi.relay.settle i false,
        hi.channel⟩
    cases taken with
    | false => exact ⟨heard, by simpa using hlost⟩
    | true =>
      cases hsent : (publisher (f.sys.threads i)).sends e observedAt with
      | none => exact ⟨heard, by simpa [hsent] using hlost⟩
      | some text =>
        have htext : e.message observedAt = some text := by
          cases hpub : publisher (f.sys.threads i) with
          | redis => rw [hpub] at hsent; exact hsent
          | _ => rw [hpub] at hsent; cases hsent
        refine ⟨heard ++ [(e, observedAt)], hi.system, written_settled hi.written i, ?_, ?_⟩
        · have hsettled := hi.relay.settle i true
          simpa [Relay.State.settle, he] using hsettled
        · simp [hi.channel, ProgressEvent.loads_message e observedAt htext]

end Step

/-- What is heard of a job: its events in the order they were written in, which is `RUNNING` and then one completion, and
what the completion says of its Attempt is true. -/
structure Told (f : Feed) (j : String) (heard : List ProgressEvent) : Prop where
  relayed : heard.Sublist (f.writtenOf j)
  written : EventOrder (f.writtenOf j)
  completed : ∀ e ∈ heard, e.status ≠ .running → Completed f.sys e

theorem separate_feed {cfg : Config} {publisher : Thread → Publisher} {f f' : Feed} {x : FeedAct}
    (h : Feed.step cfg publisher f x = some f') (hsep : f'.sys.Separate) : f.sys.Separate := by
  cases Feed.step_cases h with
  | quiet a s hs => exact separate_before hs hsep
  | wrote a s i e hs => exact separate_before hs hsep
  | published => exact hsep

theorem feedInv_run {cfg : Config} {publisher : Thread → Publisher} : ∀ {acts : List FeedAct} {f f' : Feed},
    Trace.run (Feed.step cfg publisher) f acts = some f' → f'.sys.Separate →
      f.sys.Separate ∧ ((∃ heard, FeedInv cfg f heard) → ∃ heard, FeedInv cfg f' heard)
  | [], _, _, h, hsep => by
    cases h
    exact ⟨hsep, id⟩
  | x :: acts, f, f', h, hsep => by
    obtain ⟨m, hm, h⟩ := Trace.run_cons.1 h
    obtain ⟨hsepm, hrun⟩ := feedInv_run h hsep
    refine ⟨separate_feed hm hsepm, fun hf => hrun ?_⟩
    obtain ⟨heard, hi⟩ := hf
    exact feedInv_step hi hsepm hm

/-- **Whatever is lost and however late it comes, what is heard of a Run is in the order in which it was written**: each
message is read as the event it was written for; of each Run they are `RUNNING` and then one completion, at most; and the
Attempt that a completion names is in the state it says. -/
theorem heard_in_order (cfg : Config) (publisher : Thread → Publisher) (acts : List FeedAct) (f : Feed)
    (h : Trace.run (Feed.step cfg publisher) Feed.init acts = some f) (hsep : f.sys.Separate) :
    ∃ heard : List (ProgressEvent × ObservedAt),
      f.channel.map PyValue.loads = heard.map (fun x => some (.object (x.1.sorted x.2))) ∧
      ∀ j, Told f j (Relay.entries ProgressEvent.jobId j (heard.map (·.1))) := by
  obtain ⟨heard, hi⟩ := (feedInv_run h hsep).2 ⟨[], feedInv_init cfg⟩
  refine ⟨heard, hi.channel, fun j => ⟨hi.relay.heard j, hi.written.order j, fun e he hst => ?_⟩⟩
  exact hi.written.completed e ((Relay.mem_entries.1 ((hi.relay.heard j).subset he)).1) hst

def epoch : ObservedAt := ⟨.finite 0, PyFloat.isDouble_zero⟩

/-- An execution that a scan overtakes, with its two events taken. -/
def heardActs : List FeedAct :=
  claimActs.map .act ++ [.publish 2 epoch true] ++ (overtakenActs.drop claimActs.length).map .act ++
    [.publish 2 epoch true]

theorem overtaken_heard : ∃ f, Trace.run (Feed.step workerConfig (fun _ => .redis)) Feed.init heardActs = some f ∧
    f.channel.length = 2 ∧ ∃ heard : List (ProgressEvent × ObservedAt),
      f.channel.map PyValue.loads = heard.map (fun x => some (.object (x.1.sorted x.2))) ∧
      ∀ j, Told f j (Relay.entries ProgressEvent.jobId j (heard.map (·.1))) := by
  have hrun : (Trace.run (Feed.step workerConfig (fun _ => .redis)) Feed.init heardActs).map (fun f =>
      decide (f.sys.history.kept = []) && decide (f.channel.length = 2)) = some true := by
    decide +kernel
  obtain ⟨f, hf, hend⟩ := Option.map_eq_some_iff.1 hrun
  obtain ⟨hkept, hlength⟩ := Bool.and_eq_true_iff.1 hend
  refine ⟨f, hf, of_decide_eq_true hlength,
    heard_in_order workerConfig (fun _ => .redis) heardActs f hf (fun j _ hj => ?_)⟩
  rw [of_decide_eq_true hkept] at hj
  cases hj

end EdaLab
