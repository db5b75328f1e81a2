import EdaLab.Absorbing
import EdaLab.Delivery
/-!
# Capacity — when an execution request stops counting

A request counts while it is `QUEUED`, `CLAIMED` or `RUNNING`.  Its execution has ended once it has a termination witness,
or once its Attempt is closed.  Three operations can end an execution and leave its request counting: a witness of a request
that is still queued, a completion of an Attempt that has another request, and PostgreSQL's refused finalizer; an enqueue can
add a request of an Attempt that is closed already.
-/
namespace EdaLab

open Relational

/-- The Attempt is on record, and closed. -/
def Db.attemptLeft (db : Db) (j : String) (n : Nat) : Bool := (db.attempts.get (j, n)).any (fun a => !a.isRunning)

/-- The execution of the request has a witness, or its Attempt has left `RUNNING`. -/
def Db.ended (db : Db) (e : ExecutionRequestRow) : Bool :=
  (db.executionWitnesses.get e.executionId).isSome || db.attemptLeft e.jobId e.attemptNo

/-- No ended execution holds delivery capacity: its request is not active, so it is neither handed out nor counted. -/
structure NoLeak (db : Db) : Prop where
  inactive : ∀ x e, db.executionRequests.get x = some e → db.ended e = true → e.isActive = false
  unclaimed : ∀ b now h sup locked e, (StoreOp.claimExecutionRequest h sup locked).reply b now db = .request (some e) →
    db.ended e = false
  uncounted : ∀ h, PostgresStore.countActiveExecutionRequests db h =
    db.executionRequests.countWhere (fun e => decide (e.hostId = h) && e.isActive && !db.ended e)

/-- What is claimed and what is counted follows from what is active. -/
theorem NoLeak.of_inactive {db : Db}
    (h : ∀ x e, db.executionRequests.get x = some e → db.ended e = true → e.isActive = false) : NoLeak db where
  inactive := h
  unclaimed := by
    intro b now host sup locked e hr
    obtain ⟨hget, hq, -⟩ := claimExecutionRequest_request hr
    by_contra hended
    have hoff := h e.executionId e hget (by simpa using hended)
    simp [ExecutionRequestRow.isActive, hq] at hoff
  uncounted := by
    intro host
    unfold PostgresStore.countActiveExecutionRequests Table.countWhere
    apply List.countP_congr
    intro e he
    have hget := db.executionRequests.get_of_mem he
    by_cases hended : db.ended e = true
    · simp [h e.executionId e hget hended]
    · simp [hended]

theorem noLeak_iff {db : Db} :
    NoLeak db ↔ ∀ x e, db.executionRequests.get x = some e → db.ended e = true → e.isActive = false :=
  ⟨fun h => h.inactive, NoLeak.of_inactive⟩

/-! ## What one operation does -/

/-- An update of requests that matches active ones only, or leaves what it matches inactive. -/
theorem noLeak_updateRequests {db : Db} (hdb : NoLeak db) (p : ExecutionRequestRow → Bool)
    (f : ExecutionRequestRow → ExecutionRequestRow) (hf : ∀ r, (f r).executionId = r.executionId)
    (hkey : ∀ r, (f r).jobId = r.jobId ∧ (f r).attemptNo = r.attemptNo)
    (h : ∀ r, p r = true → r.isActive = true ∨ (f r).isActive = false) :
    NoLeak { db with executionRequests := db.executionRequests.updateWhere p f hf } := by
  apply NoLeak.of_inactive
  intro x e he hended
  simp only [Table.get_updateWhere] at he
  obtain ⟨r, hr, rfl⟩ := Option.map_eq_some_iff.1 he
  by_cases hp : p r = true
  · rw [if_pos hp] at hended ⊢
    have hsame : db.ended (f r) = db.ended r := by
      unfold Db.ended
      rw [hf r, (hkey r).1, (hkey r).2]
    rcases h r hp with hact | hoff
    · have hoff := hdb.inactive x r hr (hsame.symm.trans hended)
      rw [hact] at hoff
      cases hoff
    · exact hoff
  · rw [if_neg hp] at hended ⊢
    exact hdb.inactive x r hr hended

theorem noLeak_claim {db : Db} (hdb : NoLeak db) (now : Time) (h sup : String) (locked : List String) :
    NoLeak (Store.claimExecutionRequest db now h sup locked).1 := by
  unfold Store.claimExecutionRequest
  cases hn : Store.nextRequest db h locked with
  | none => exact hdb
  | some row =>
    refine noLeak_updateRequests hdb _ _ _ (fun _ => ⟨rfl, rfl⟩) ?_
    intro r hr
    left
    simp only [Bool.and_eq_true, decide_eq_true_eq] at hr
    simp [ExecutionRequestRow.isActive, hr.2]

theorem noLeak_started {db : Db} (hdb : NoLeak db) (now : Time) (e sup : String) (pid : Nat) :
    NoLeak (Store.recordSupervisorProcessStarted db now e sup pid).1 := by
  refine noLeak_updateRequests hdb _ _ _ (fun _ => ⟨rfl, rfl⟩) ?_
  intro r hr
  left
  simp only [Store.isClaimedBy, Bool.and_eq_true, decide_eq_true_eq] at hr
  simp [ExecutionRequestRow.isActive, hr.1.2]

/-- **An enqueue leaks** exactly where it adds a request of an Attempt that is closed. -/
theorem noLeak_enqueue_iff {db : Db} (hdb : NoLeak db)
    (hwit : ∀ x, (db.executionWitnesses.get x).isSome = true → (db.executionRequests.get x).isSome = true) (now : Time)
    (e j : String) (n : Nat) (h : String) (p : RequestPayload) :
    NoLeak (Store.enqueueExecutionRequest db now e j n h p).1 ↔
      (db.executionRequests.get e = none → db.attemptLeft j n = false) := by
  unfold Store.enqueueExecutionRequest
  cases hi : db.executionRequests.insertNew
      { executionId := e, jobId := j, attemptNo := n, hostId := h, status := .queued, payload := p, createdAt := now } with
  | none =>
    have htaken := Table.insertNew_eq_none_iff.1 hi
    refine ⟨fun _ hnone => ?_, fun _ => hdb⟩
    rw [hnone] at htaken
    cases htaken
  | some t =>
    have hfree : db.executionRequests.get e = none := Table.get_key_of_insertNew hi
    have hget := Table.get_insertNew hi
    have hnowit : (db.executionWitnesses.get e).isSome = false := by
      cases hw : (db.executionWitnesses.get e).isSome with
      | false => rfl
      | true =>
        have := hwit e hw
        rw [hfree] at this
        cases this
    rw [noLeak_iff]
    constructor
    · intro hafter _
      by_contra hleft
      have hrow := hget e
      rw [if_pos rfl] at hrow
      have := hafter e _ hrow (by simpa [Db.ended, Db.attemptLeft] using Or.inr hleft)
      cases this
    · intro hopen x r hr hended
      simp only [hget] at hr
      split at hr
      · rename_i hx
        cases hr
        simp only [Db.ended, Bool.or_eq_true] at hended
        rcases hended with hw | hleft
        · simp only [hnowit, Bool.false_eq_true] at hw
        · have := hopen hfree
          simp only [Db.attemptLeft] at hleft this
          rw [this] at hleft
          cases hleft
      · exact hdb.inactive x r hr hended

/-- **A witness leaks** exactly where its request is still queued. -/
theorem noLeak_witness_iff {db : Db} (hdb : NoLeak db) (now : Time) (e : String) (kind : WitnessKind)
    (code : Option Int) (ap : Option String) (detail : String) :
    NoLeak (Store.recordTerminationWitness db now e kind code ap detail).1 ↔
      ∀ r, db.executionRequests.get e = some r → r.status ≠ .queued := by
  unfold Store.recordTerminationWitness
  cases hr : db.executionRequests.get e with
  | none => exact ⟨fun _ r hr => (by cases hr), fun _ => hdb⟩
  | some r =>
    cases hw : db.executionWitnesses.insertNew ⟨e, kind, now, code, ap, detail⟩ with
    | none =>
      have hold := Table.insertNew_eq_none_iff.1 hw
      refine ⟨?_, fun _ => hdb⟩
      rintro - r' hr' hq
      cases hr'
      have hoff := hdb.inactive e r hr (by simp only [Db.ended, Table.key_of_get hr, Bool.or_eq_true]; exact Or.inl hold)
      simp [ExecutionRequestRow.isActive, hq] at hoff
    | some ws =>
      have hget := Table.get_insertNew hw
      have hkey := Table.key_of_get hr
      rw [noLeak_iff]
      constructor
      · rintro hafter r' hr' hq
        cases hr'
        have hrow : (db.executionRequests.updateWhere
            (fun e' => decide (e'.executionId = e) && decide (e'.status = .claimed ∨ e'.status = .running))
            (fun e' => { e' with status := .completed }) (fun _ => rfl)).get e = some r := by
          rw [Table.get_updateWhere, hr]
          simp [hq]
        have hoff := hafter e r hrow (by simp [Db.ended, hkey, hget])
        simp [ExecutionRequestRow.isActive, hq] at hoff
      · intro hopen x r' hr' hended
        simp only [Table.get_updateWhere] at hr'
        obtain ⟨r₀, hr₀, rfl⟩ := Option.map_eq_some_iff.1 hr'
        by_cases hp : (decide (r₀.executionId = e) && decide (r₀.status = .claimed ∨ r₀.status = .running)) = true
        · rw [if_pos hp]
          rfl
        · rw [if_neg hp] at hended ⊢
          by_cases hx : r₀.executionId = e
          · have hsame : r₀ = r := by
              rw [← Table.key_of_get hr₀, hx, hr] at hr₀
              exact (Option.some.inj hr₀).symm
            subst hsame
            have hq := hopen r₀ rfl
            cases hst : r₀.status <;> simp_all [ExecutionRequestRow.isActive]
          · refine hdb.inactive x r₀ hr₀ ?_
            simp only [Db.ended, hget, Ne.symm hx, if_false] at hended ⊢
            exact hended

/-- The finalizers, on either backend: what a refused Run leaves is the backend's. -/
theorem finalizeRecovery_exec (b : Backend) (now : Time) (db : Db) (j : String) (n : Nat) (token et e : String) :
    (StoreOp.finalizeRecovery j n token et e).exec b now db = Reply.ofFlag
      (closing db now (Store.abandonAttempt now j n token et e) j { status := some .failed, error := some (some e) }
        (fun d => Store.retireRequests d j n) (b.refused db)) := by
  cases b with
  | sqlite => rfl
  | postgres =>
    rw [StoreOp.exec, PostgresStore.finalizeRecovery_eq]
    rfl

theorem finalizeAttemptAndRun_exec (b : Backend) (now : Time) (db : Db) (c : Completion) :
    (StoreOp.finalizeAttemptAndRun c).exec b now db = Reply.ofFlag
      (closing db now (Store.completeAttempt db now c) c.jobId c.fields id (b.refused db)) := by
  cases b with
  | sqlite => rfl
  | postgres =>
    rw [StoreOp.exec, PostgresStore.finalizeAttemptAndRun_eq]
    rfl

/-- Which Attempts one statement closes. -/
theorem attemptLeft_exec (u : AttemptUpdate) (db : Db) (j : String) (n : Nat) :
    (u.exec db).1.attemptLeft j n =
      (db.attempts.get (j, n)).any (fun a =>
        if u.key = (j, n) ∧ u.guard a = true then !(u.write a).isRunning else !a.isRunning) := by
  unfold Db.attemptLeft
  rw [u.get_exec db (j, n)]
  cases db.attempts.get (j, n) with
  | none => rfl
  | some a =>
    simp only [Option.map_some, Option.any_some]
    split <;> rfl

/-- Other Attempts stay as they are. -/
theorem attemptLeft_exec_of_ne {u : AttemptUpdate} (db : Db) {j : String} {n : Nat} (h : u.key ≠ (j, n)) :
    (u.exec db).1.attemptLeft j n = db.attemptLeft j n := by
  rw [attemptLeft_exec]
  unfold Db.attemptLeft
  simp [h]

/-- **A statement that closes an Attempt leaks** exactly where the Attempt has an active request. -/
theorem noLeak_close_iff {db : Db} (hdb : NoLeak db) {u : AttemptUpdate} {j : String} {n : Nat} (hkey : u.key = (j, n))
    (henabled : u.Enabled db) (hcloses : ∀ a, (u.write a).isRunning = false) :
    NoLeak (u.exec db).1 ↔
      ∀ x r, db.executionRequests.get x = some r → r.jobId = j → r.attemptNo = n → r.isActive = false := by
  have hleft : (u.exec db).1.attemptLeft j n = true := by
    obtain ⟨a, ha, hg⟩ := henabled
    rw [attemptLeft_exec, ← hkey, ha]
    simp [hg, hcloses a]
  rw [noLeak_iff]
  constructor
  · rintro hafter x r hr rfl rfl
    exact hafter x r hr (by simp [Db.ended, hleft])
  · intro hoff x r hr hended
    by_cases hk : u.key = (r.jobId, r.attemptNo)
    · rw [hkey] at hk
      obtain ⟨rfl, rfl⟩ := Prod.mk.inj hk
      exact hoff x r hr rfl rfl
    · refine hdb.inactive x r hr ?_
      unfold Db.ended at hended ⊢
      rw [attemptLeft_exec_of_ne db hk] at hended
      exact hended

/-- The rest of a transaction that leaves requests, witnesses and Attempts alone. -/
theorem noLeak_congr (db db' : Db) (hr : db'.executionRequests = db.executionRequests)
    (hw : db'.executionWitnesses = db.executionWitnesses) (ha : ∀ j n, db'.attemptLeft j n = db.attemptLeft j n) :
    NoLeak db' ↔ NoLeak db := by
  have hended : ∀ e, db'.ended e = db.ended e := by
    intro e
    unfold Db.ended
    rw [hw, ha]
  rw [noLeak_iff, noLeak_iff, hr]
  simp only [hended]

/-- The Attempt of a completion is closed by it: its row is accepted, and what the transaction does then stands. -/
def Completion.closes (c : Completion) (b : Backend) (now : Time) (db : Db) : Prop :=
  c.attemptStatus ≠ .running ∧ (Store.completeAttempt db now c).Enabled db ∧ (b = .postgres ∨ db.runningRun c.jobId)

/-- **A completion leaks** exactly where the Attempt it closes has an active request. -/
theorem noLeak_completion_iff {db : Db} (hdb : NoLeak db) (b : Backend) (now : Time) {c : Completion}
    (hst : c.attemptStatus ≠ .running) :
    NoLeak ((StoreOp.finalizeAttemptAndRun c).after b now db) ↔
      (c.closes b now db → ∀ x r, db.executionRequests.get x = some r → r.jobId = c.jobId → r.attemptNo = c.attemptNo →
        r.isActive = false) := by
  have hcloses : ∀ a, ((Store.completeAttempt db now c).write a).isRunning = false := by
    intro a
    simp [Store.completeAttempt, AttemptRow.setOutcome, AttemptRow.isRunning, hst]
  rw [StoreOp.after, finalizeAttemptAndRun_exec, Reply.ofFlag]
  have htrue : (closing db now (Store.completeAttempt db now c) c.jobId c.fields id (b.refused db)).2 = true ↔ _ :=
    closing_true_iff
  cases hok : (closing db now (Store.completeAttempt db now c) c.jobId c.fields id (b.refused db)).2 with
  | true =>
    obtain ⟨henabled, hrun⟩ := htrue.1 hok
    rw [closing_of_true hok, id_eq, noLeak_congr _ _ (Db.updateRuns_executionRequests ..)
      (Db.updateRuns_executionWitnesses ..) (fun _ _ => rfl), noLeak_close_iff hdb rfl henabled hcloses]
    exact ⟨fun h _ => h, fun h => h ⟨hst, henabled, Or.inr hrun⟩⟩
  | false =>
    rcases closing_of_false hok with ⟨hno, heq⟩ | ⟨henabled, hno, heq⟩
    · rw [heq]
      exact ⟨fun _ hc => absurd hc.2.1 hno, fun _ => hdb⟩
    · rw [heq]
      cases b with
      | sqlite =>
        refine ⟨?_, fun _ => hdb⟩
        rintro - ⟨-, -, hpg | hrun⟩
        · cases hpg
        · exact absurd hrun hno
      | postgres =>
        show NoLeak ((Store.completeAttempt db now c).exec db).1 ↔ _
        rw [noLeak_close_iff hdb rfl henabled hcloses]
        exact ⟨fun h _ => h, fun h => h ⟨hst, henabled, Or.inl rfl⟩⟩

/-- **A recovery leaks** exactly where PostgreSQL commits the abandoned Attempt of a refused Run with an active request. -/
theorem noLeak_recovery_iff {db : Db} (hdb : NoLeak db) (b : Backend) (now : Time) (j : String) (n : Nat)
    (token et e : String) :
    NoLeak ((StoreOp.finalizeRecovery j n token et e).after b now db) ↔
      (b = .postgres → (Store.abandonAttempt now j n token et e).Enabled db → ¬ db.runningRun j →
        ∀ x r, db.executionRequests.get x = some r → r.jobId = j → r.attemptNo = n → r.isActive = false) := by
  rw [StoreOp.after, finalizeRecovery_exec, Reply.ofFlag]
  generalize hu : Store.abandonAttempt now j n token et e = u
  have hkey : u.key = (j, n) := by rw [← hu]; rfl
  have hcloses : ∀ a, (u.write a).isRunning = false := by
    intro a
    rw [← hu]
    rfl
  generalize hf : ({ status := some .failed, error := some (some e) } : RunFields) = fields
  have htrue : (closing db now u j fields (fun d => Store.retireRequests d j n) (b.refused db)).2 = true ↔ _ :=
    closing_true_iff
  cases hok : (closing db now u j fields (fun d => Store.retireRequests d j n) (b.refused db)).2 with
  | true =>
    obtain ⟨-, hrun⟩ := htrue.1 hok
    refine ⟨fun _ _ _ hno => absurd hrun hno, fun _ => ?_⟩
    rw [closing_of_true hok]
    -- the requests of the Attempt are retired, the others have the Attempts they had
    apply NoLeak.of_inactive
    intro x r' hr' hended
    simp only [Store.retireRequests, Db.updateRuns_executionRequests, AttemptUpdate.exec_executionRequests,
      Table.get_updateWhere] at hr'
    obtain ⟨r, hr, rfl⟩ := Option.map_eq_some_iff.1 hr'
    by_cases hp : (decide (r.jobId = j) && decide (r.attemptNo = n) && r.isActive) = true
    · rw [if_pos hp]
      rfl
    · rw [if_neg hp] at hended ⊢
      by_cases hk : u.key = (r.jobId, r.attemptNo)
      · rw [hkey] at hk
        obtain ⟨rfl, rfl⟩ := Prod.mk.inj hk
        simpa using hp
      · refine hdb.inactive x r hr ?_
        have hleft := attemptLeft_exec_of_ne db hk
        unfold Db.ended at hended ⊢
        rw [← hleft]
        exact hended
  | false =>
    rcases closing_of_false hok with ⟨hno, heq⟩ | ⟨henabled, hno, heq⟩
    · rw [heq]
      exact ⟨fun _ _ hen => absurd hen hno, fun _ => hdb⟩
    · rw [heq]
      cases b with
      | sqlite => exact ⟨fun _ hpg => (by cases hpg), fun _ => hdb⟩
      | postgres =>
        show NoLeak (u.exec db).1 ↔ _
        rw [noLeak_close_iff hdb hkey henabled hcloses]
        exact ⟨fun h _ _ _ => h, fun h => h rfl henabled hno⟩

/-! ## The condition -/

/-- The operations around a delivery whose arguments the theorem leaves to their callers. -/
def StoreOp.isDelivery : StoreOp → Bool
  | .enqueueExecutionRequest ..        => true
  | .claimExecutionRequest ..          => true
  | .recordSupervisorProcessStarted .. => true
  | .recordTerminationWitness ..       => true
  | .finalizeRecovery ..               => true
  | .heartbeatHostSession ..           => true
  | .heartbeatAttempt ..               => true
  | _                                  => false

/-- The call leaves no capacity behind: `own` is the execution whose supervisor makes it. -/
def StoreOp.Releases (b : Backend) (now : Time) (db : Db) (own : Option String) : StoreOp → Prop
  -- the Attempt of a new request is not closed yet
  | .enqueueExecutionRequest e j n _ _ => db.executionRequests.get e = none → db.attemptLeft j n = false
  -- the request a witness comes for has been claimed
  | .recordTerminationWitness e _ _ _ _ => ∀ r, db.executionRequests.get e = some r → r.status ≠ .queued
  -- a completion that closes its Attempt finds no other request of it active
  | .finalizeAttemptAndRun c =>
    c.closes b now db → ∀ x r, db.executionRequests.get x = some r → some x ≠ own → r.jobId = c.jobId →
      r.attemptNo = c.attemptNo → r.isActive = false
  -- a recovery that PostgreSQL refuses after its first statement finds no request of the Attempt active
  | .finalizeRecovery j n token et e =>
    b = .postgres → (Store.abandonAttempt now j n token et e).Enabled db → ¬ db.runningRun j →
      ∀ x r, db.executionRequests.get x = some r → r.jobId = j → r.attemptNo = n → r.isActive = false
  | _ => True

/-- **One operation of a delivery leaks** exactly where it does not meet its condition. -/
theorem noLeak_after_iff {db : Db} (hdb : NoLeak db)
    (hwit : ∀ x, (db.executionWitnesses.get x).isSome = true → (db.executionRequests.get x).isSome = true)
    (b : Backend) (now : Time) {own : Option String} (hown : ∀ x, own = some x → (db.executionWitnesses.get x).isSome = true)
    {op : StoreOp} (hop : op.isDelivery = true ∨ ∃ c, op = .finalizeAttemptAndRun c ∧ c.attemptStatus ≠ .running) :
    NoLeak (op.after b now db) ↔ op.Releases b now db own := by
  rcases hop with hop | ⟨c, rfl, hst⟩
  · cases op with
    | enqueueExecutionRequest e j n h p => exact noLeak_enqueue_iff hdb hwit now e j n h p
    | claimExecutionRequest h sup locked =>
      exact ⟨fun _ => trivial, fun _ => noLeak_claim hdb now h sup (b.locked locked)⟩
    | recordSupervisorProcessStarted e sup pid => exact ⟨fun _ => trivial, fun _ => noLeak_started hdb now e sup pid⟩
    | recordTerminationWitness e kind code ap detail => exact noLeak_witness_iff hdb now e kind code ap detail
    | finalizeRecovery j n token et e => exact noLeak_recovery_iff hdb b now j n token et e
    | heartbeatHostSession sid ttl =>
      refine ⟨fun _ => trivial, fun _ => ?_⟩
      rw [noLeak_congr db ((StoreOp.heartbeatHostSession sid ttl).after b now db) rfl rfl (fun _ _ => rfl)]
      exact hdb
    | heartbeatAttempt j n token ttl =>
      have hleft : ∀ j' n', ((StoreOp.heartbeatAttempt j n token ttl).after b now db).attemptLeft j' n' =
          db.attemptLeft j' n' := by
        intro j' n'
        refine (attemptLeft_exec (Store.heartbeatAttempt now j n token ttl) db j' n').trans ?_
        unfold Db.attemptLeft
        congr 1
        funext a
        split <;> rfl
      refine ⟨fun _ => trivial, fun _ => ?_⟩
      rw [noLeak_congr db ((StoreOp.heartbeatAttempt j n token ttl).after b now db) rfl rfl hleft]
      exact hdb
    | _ => cases hop
  · rw [noLeak_completion_iff hdb b now hst]
    refine ⟨fun h hc x r hr _ => h hc x r hr, fun h hc x r hr hj hn => ?_⟩
    by_cases hx : some x = own
    · refine hdb.inactive x r hr ?_
      have hw := hown x hx.symm
      rw [← Table.key_of_get hr] at hw
      simp [Db.ended, hw]
    · exact h hc x r hr hx hj hn

/-! ## Deliveries -/

/-- A step of a supervisor or of its heartbeat thread, or one of the other operations by anyone. -/
inductive DeliveryAct
  | party (a : Act)
  | store (op : StoreOp)

def Thread.isSupervision : Thread → Bool
  | .supervisor _ _ => true
  | .beat _ _       => true
  | _               => false

def Sys.isSupervision (s : Sys) : Act → Bool
  | .start _ th      => th.isSupervision
  | .call i _ _      => (s.threads i).isSupervision
  | .advance i _ _ _ => (s.threads i).isSupervision
  | _                => true

def Sys.deliveryStep (cfg : Config) (s : Sys) : DeliveryAct → Option Sys
  | .party a  => if s.isSupervision a then Sys.step cfg s a else none
  | .store op => if op.isDelivery then some { s with db := op.after cfg.backend s.clock s.db } else none

/-- The execution a supervisor is about to complete. -/
def Thread.completes : Thread → Option String
  | .supervisor _ (.finalize req _) => some req.executionId
  | _                               => Option.none

/-- The step's call, if it makes one, meets its condition. -/
def Sys.Releases (cfg : Config) (s : Sys) : DeliveryAct → Prop
  | .party (.call i fresh locked) => (s.threads i).isSupervision = true → s.isFresh fresh = true →
    ∀ op, (s.threads i).op cfg s locked = some op → op.Releases cfg.backend s.clock s.db (s.threads i).completes
  | .store op => op.isDelivery = true → op.Releases cfg.backend s.clock s.db none
  | _ => True

/-- The request a supervisor holds. -/
def SupervisorPc.request : SupervisorPc → Option ExecutionRequestRow
  | ready req | running req | started req _ | witness req _ _ | finalize req _ => some req
  | _                                                                          => none

/-- What the tables and the supervisors agree on. -/
structure DeliveryTables (s : Sys) : Prop where
  requested : ∀ x, (s.db.executionWitnesses.get x).isSome = true → (s.db.executionRequests.get x).isSome = true
  holds : ∀ q sup pc req, s.threads q = .supervisor sup pc → pc.request = some req →
    (s.db.executionRequests.get req.executionId).isSome = true
  /-- A supervisor completes after its witness call, and never with a `RUNNING` Attempt. -/
  witnessed : ∀ q sup req c, s.threads q = .supervisor sup (.finalize req c) →
    (s.db.executionWitnesses.get req.executionId).isSome = true ∧ c.attemptStatus ≠ .running

/-- What a call can do to one witness. -/
theorem witness_after (b : Backend) (now : Time) (db : Db) (op : StoreOp) (x : String) :
    (op.after b now db).executionWitnesses.get x = db.executionWitnesses.get x ∨
    ((db.executionRequests.get x).isSome = true ∧ ((op.after b now db).executionWitnesses.get x).isSome = true) := by
  cases op with
  | recordTerminationWitness e kind code ap detail =>
    simp only [StoreOp.after, StoreOp.exec, Store.recordTerminationWitness, Reply.ofFlag]
    cases hr : db.executionRequests.get e with
    | none => exact Or.inl rfl
    | some r =>
      cases hw : db.executionWitnesses.insertNew ⟨e, kind, now, code, ap, detail⟩ with
      | none => exact Or.inl rfl
      | some ws =>
        by_cases hx : e = x
        · subst hx
          refine Or.inr ⟨by rw [hr]; rfl, ?_⟩
          simp only [Table.get_insertNew hw, if_true, Option.isSome_some]
        · left
          simp only [Table.get_insertNew hw, hx, if_false]
  | createRun j d i f h m p =>
    left
    have hins : ∀ r, (Store.insertRun db r).1.executionWitnesses = db.executionWitnesses := by
      intro r
      unfold Store.insertRun
      split <;> rfl
    simp only [StoreOp.after, StoreOp.exec, Store.createRun, Reply.ofCreate]
    split
    · rw [hins]
    · split
      · rfl
      · split
        · rfl
        · rw [hins]
  | updateRun j f =>
    left
    simp only [StoreOp.after, StoreOp.exec, Store.updateRun]
    split <;> rfl
  | recordAttempt j n st et e ap rc =>
    left
    simp only [StoreOp.after, StoreOp.exec, Store.recordAttempt, Reply.ofExcept]
    split <;> rfl
  | startHostSession owner ttl =>
    left
    simp only [StoreOp.after, StoreOp.exec, Store.startHostSession, Reply.ofExcept]
    split <;> rfl
  | enqueueExecutionRequest e j n h p =>
    left
    simp only [StoreOp.after, StoreOp.exec, Store.enqueueExecutionRequest, Reply.ofFlag]
    split <;> rfl
  | claimExecutionRequest h s locked =>
    left
    simp only [StoreOp.after, StoreOp.exec, Store.claimExecutionRequest]
    split <;> rfl
  | claimNextRun locked =>
    left
    cases b with
    | sqlite => rfl
    | postgres =>
      simp only [StoreOp.after, StoreOp.exec, PostgresStore.claimNextRun]
      split <;> rfl
  | releaseTerminalExecutionRequests => left; cases b <;> rfl
  | countActiveExecutionRequests h => left; cases b <;> rfl
  | finalizeRecovery j n token et e =>
    left
    cases finalizer_cases b (show (StoreOp.finalizeRecovery j n token et e).finalizer now db = some _ from rfl) with
    | accepted _ _ _ rest _ hafter => rw [hafter]; rfl
    | noAttempt _ _ hafter => rw [hafter]
    | noRun _ _ _ hafter => rw [hafter]; cases b <;> rfl
  | finalizeAttemptAndRun c =>
    left
    cases finalizer_cases b (show (StoreOp.finalizeAttemptAndRun c).finalizer now db = some _ from rfl) with
    | accepted _ _ _ rest _ hafter => rw [hafter]; rfl
    | noAttempt _ _ hafter => rw [hafter]
    | noRun _ _ _ hafter => rw [hafter]; cases b <;> rfl
  | _ => exact Or.inl rfl

/-- A witness call leaves a witness of a request that is there. -/
theorem witness_recorded (b : Backend) (now : Time) {db : Db} {e : String} (kind : WitnessKind) (code : Option Int)
    (ap : Option String) (detail : String) (he : (db.executionRequests.get e).isSome = true) :
    (((StoreOp.recordTerminationWitness e kind code ap detail).after b now db).executionWitnesses.get e).isSome = true := by
  obtain ⟨r, hr⟩ := Option.isSome_iff_exists.1 he
  simp only [StoreOp.after, StoreOp.exec, Store.recordTerminationWitness, Reply.ofFlag, hr]
  cases hw : db.executionWitnesses.insertNew ⟨e, kind, now, code, ap, detail⟩ with
  | none => exact Table.insertNew_eq_none_iff.1 hw
  | some ws => simp [Table.get_insertNew hw]

theorem request_isSome_after (b : Backend) (now : Time) {db : Db} (op : StoreOp) {x : String}
    (h : (db.executionRequests.get x).isSome = true) :
    ((op.after b now db).executionRequests.get x).isSome = true := by
  obtain ⟨r, hr⟩ := Option.isSome_iff_exists.1 h
  obtain ⟨r', hr', -⟩ := request_persists b now op hr
  rw [hr']
  rfl

theorem witness_isSome_after (b : Backend) (now : Time) {db : Db} (op : StoreOp) {x : String}
    (h : (db.executionWitnesses.get x).isSome = true) :
    ((op.after b now db).executionWitnesses.get x).isSome = true := by
  rcases witness_after b now db op x with heq | ⟨-, hnew⟩
  · rw [heq]
    exact h
  · exact hnew

theorem requested_after (b : Backend) (now : Time) {db : Db} (op : StoreOp)
    (h : ∀ x, (db.executionWitnesses.get x).isSome = true → (db.executionRequests.get x).isSome = true) :
    ∀ x, ((op.after b now db).executionWitnesses.get x).isSome = true →
      ((op.after b now db).executionRequests.get x).isSome = true := by
  intro x hx
  rcases witness_after b now db op x with heq | ⟨hreq, -⟩
  · rw [heq] at hx
    exact request_isSome_after b now op (h x hx)
  · exact request_isSome_after b now op hreq

/-- The completion of a supervisor closes its Attempt. -/
theorem SupervisorPc.completion_status (req : ExecutionRequestRow) (r : AdapterReturn) (parsed : ParseResult) :
    (completion req r parsed).attemptStatus ≠ .running := by
  unfold completion
  split
  · intro h; cases h
  · intro h; cases h

theorem deliveryTables_step {cfg : Config} {s s' : Sys} {a : Act} (ht : DeliveryTables s)
    (h : Sys.step cfg s a = some s') : DeliveryTables s' := by
  have hreq : ∀ x, (s.db.executionRequests.get x).isSome = true → (s'.db.executionRequests.get x).isSome = true := by
    intro x hx
    rcases Sys.step_db h with hdb | ⟨i, fresh, locked, op, -, hc⟩
    · rw [hdb]; exact hx
    · rw [hc.db_eq]; exact request_isSome_after cfg.backend s.clock op hx
  have hwit : ∀ x, (s.db.executionWitnesses.get x).isSome = true → (s'.db.executionWitnesses.get x).isSome = true := by
    intro x hx
    rcases Sys.step_db h with hdb | ⟨i, fresh, locked, op, -, hc⟩
    · rw [hdb]; exact hx
    · rw [hc.db_eq]; exact witness_isSome_after cfg.backend s.clock op hx
  refine ⟨?_, ?_, ?_⟩
  · rcases Sys.step_db h with hdb | ⟨i, fresh, locked, op, -, hc⟩
    · rw [hdb]; exact ht.requested
    · rw [hc.db_eq]; exact requested_after cfg.backend s.clock op ht.requested
  · intro q sup pc' req hq hpc
    cases supervisor_after h hq with
    | same hwas => exact hreq _ (ht.holds q sup pc' req hwas hpc)
    | entered _ heq => subst heq; cases hpc
    | advanced pc eff hwas k fresh inp _ hadv =>
      have hsame : pc.request = some req := by cases hadv <;> first | exact hpc | cases hpc
      exact hreq _ (ht.holds q sup pc req hwas hsame)
    | called pc fresh locked op hwas _ hc hop heq =>
      subst heq
      cases pc with
      | claim =>
        cases hop
        simp only [SupervisorPc.resume] at hpc
        split at hpc
        · rename_i req' hrep
          cases hpc
          obtain ⟨-, -, r', hr', -⟩ := claimExecutionRequest_request hrep
          rw [hc.db_eq, hr']
          rfl
        · cases hpc
      | started req' pid =>
        refine hreq _ (ht.holds q sup _ req hwas ?_)
        simp only [SupervisorPc.resume] at hpc
        split at hpc <;> exact hpc
      | witness req' w result =>
        refine hreq _ (ht.holds q sup _ req hwas ?_)
        simp only [SupervisorPc.resume] at hpc
        split at hpc
        · cases hpc
        · split at hpc
          · exact hpc
          · cases hpc
      | finalize req' c =>
        simp only [SupervisorPc.resume] at hpc
        split at hpc <;> cases hpc
      | _ => cases hop
  · intro q sup req c hq
    cases supervisor_after h hq with
    | same hwas =>
      obtain ⟨hw, hst⟩ := ht.witnessed q sup req c hwas
      exact ⟨hwit _ hw, hst⟩
    | entered _ heq => cases heq
    | advanced pc eff hwas k fresh inp _ hadv => cases hadv
    | called pc fresh locked op hwas _ hc hop heq =>
      cases pc with
      | witness req' w result =>
        cases hop
        simp only [SupervisorPc.resume] at heq
        split at heq
        · cases heq
        · rename_i r
          split at heq
          · cases heq
            refine ⟨?_, SupervisorPc.completion_status req r _⟩
            rw [hc.db_eq]
            exact witness_recorded cfg.backend s.clock w.kind w.processExitCode w.artifactPath w.detail
              (ht.holds q sup _ req hwas rfl)
          · cases heq
      | claim => simp only [SupervisorPc.resume] at heq; split at heq <;> cases heq
      | started req' pid => simp only [SupervisorPc.resume] at heq; split at heq <;> cases heq
      | finalize req' c' => simp only [SupervisorPc.resume] at heq; split at heq <;> cases heq
      | _ => cases hop

theorem deliveryStep_tables {cfg : Config} {s s' : Sys} {a : DeliveryAct} (ht : DeliveryTables s)
    (h : s.deliveryStep cfg a = some s') : DeliveryTables s' := by
  cases a with
  | party a =>
    simp only [Sys.deliveryStep] at h
    split at h
    · exact deliveryTables_step ht h
    · cases h
  | store op =>
    simp only [Sys.deliveryStep] at h
    split at h
    · cases h
      refine ⟨requested_after cfg.backend s.clock op ht.requested, ?_, ?_⟩
      · intro q sup pc req hq hpc
        exact request_isSome_after cfg.backend s.clock op (ht.holds q sup pc req hq hpc)
      · intro q sup req c hq
        obtain ⟨hw, hst⟩ := ht.witnessed q sup req c hq
        exact ⟨witness_isSome_after cfg.backend s.clock op hw, hst⟩
    · cases h

/-- The call of a supervisor, or of its heartbeat thread. -/
theorem supervision_op {cfg : Config} {s : Sys} (ht : DeliveryTables s) {i : Nat} {locked : List String} {op : StoreOp}
    (hi : (s.threads i).isSupervision = true) (hop : (s.threads i).op cfg s locked = some op) :
    op.isDelivery = true ∨ ∃ c, op = .finalizeAttemptAndRun c ∧ c.attemptStatus ≠ .running := by
  cases hth : s.threads i with
  | supervisor sup pc =>
    rw [hth] at hop
    cases pc with
    | finalize req c => cases hop; exact Or.inr ⟨c, rfl, (ht.witnessed i sup req c hth).2⟩
    | claim => cases hop; exact Or.inl rfl
    | started req pid => cases hop; exact Or.inl rfl
    | witness req w r => cases hop; exact Or.inl rfl
    | _ => cases hop
  | beat b pc =>
    rw [hth] at hop
    cases pc with
    | session sid => cases hop; exact Or.inl rfl
    | attempt => cases hop; exact Or.inl rfl
    | _ => cases hop
  | _ => rw [hth] at hi; cases hi

theorem completes_witnessed {s : Sys} (ht : DeliveryTables s) (i : Nat) :
    ∀ x, (s.threads i).completes = some x → (s.db.executionWitnesses.get x).isSome = true := by
  intro x hx
  cases hth : s.threads i with
  | supervisor sup pc =>
    rw [hth] at hx
    cases pc with
    | finalize req c =>
      cases hx
      exact (ht.witnessed i sup req c hth).1
    | _ => cases hx
  | _ => rw [hth] at hx; cases hx

/-- **One step** leaks nothing exactly where its call meets its condition. -/
theorem deliveryStep_noLeak_iff {cfg : Config} {s : Sys} (hs : NoLeak s.db) (ht : DeliveryTables s) (a : DeliveryAct) :
    (∀ s', s.deliveryStep cfg a = some s' → NoLeak s'.db) ↔ s.Releases cfg a := by
  cases a with
  | store op =>
    by_cases hop : op.isDelivery = true
    · have hiff : NoLeak (op.after cfg.backend s.clock s.db) ↔ op.Releases cfg.backend s.clock s.db none :=
        noLeak_after_iff hs ht.requested cfg.backend s.clock (fun x hx => by cases hx) (Or.inl hop)
      simp only [Sys.deliveryStep, hop, if_true, Option.some.injEq]
      constructor
      · intro h _
        exact hiff.1 (h _ rfl)
      · rintro h s' rfl
        exact hiff.2 (h hop)
    · simp only [Sys.deliveryStep, hop, Bool.false_eq_true, if_false]
      exact ⟨fun _ h => absurd h hop, fun _ s' h => by cases h⟩
  | party a =>
    by_cases hsup : s.isSupervision a = true
    · simp only [Sys.deliveryStep, hsup, if_true]
      constructor
      · intro h
        cases a with
        | call i fresh locked =>
          intro hi hfresh op hop
          obtain ⟨s', hs'⟩ := Option.isSome_iff_exists.1 (Sys.call_isSome_iff.2 ⟨⟨op, hop⟩, hfresh⟩)
          obtain ⟨op', hc⟩ := Sys.call_some hs'
          obtain rfl : op = op' := Option.some.inj (hop.symm.trans hc.is_op)
          have hafter := h s' hs'
          rw [hc.db_eq] at hafter
          exact (noLeak_after_iff hs ht.requested cfg.backend s.clock (completes_witnessed ht i)
            (supervision_op ht hi hop)).1 hafter
        | _ => trivial
      · intro h s' hstep
        rcases Sys.step_db hstep with hdb | ⟨i, fresh, locked, op, rfl, hc⟩
        · rw [hdb]
          exact hs
        · rw [hc.db_eq]
          exact (noLeak_after_iff hs ht.requested cfg.backend s.clock (completes_witnessed ht i)
            (supervision_op ht hsup hc.is_op)).2 (h hsup hc.is_fresh op hc.is_op)
    · simp only [Sys.deliveryStep, hsup, Bool.false_eq_true, if_false]
      refine ⟨fun _ => ?_, fun _ s' h => by cases h⟩
      cases a with
      | call i fresh locked => exact fun hi => absurd hi hsup
      | _ => trivial

/-- No state the run goes through leaks capacity. -/
def CapacityKept (cfg : Config) (s : Sys) (acts : List DeliveryAct) : Prop :=
  ∀ pre post m, acts = pre ++ post → Trace.run (Sys.deliveryStep cfg) s pre = some m → NoLeak m.db

/-- **Delivery capacity is kept in exactly the runs whose calls each meet their condition.** -/
theorem capacity_kept_iff (cfg : Config) (s : Sys) (acts : List DeliveryAct) (hs : NoLeak s.db) (ht : DeliveryTables s) :
    CapacityKept cfg s acts ↔ Trace.Every (Sys.deliveryStep cfg) (Sys.Releases cfg) s acts := by
  constructor
  · intro h
    rw [Trace.every_iff_forall_split]
    rintro pre a post m rfl hm
    have htables : DeliveryTables m :=
      Trace.run_preserves (fun _ _ _ hi hstep => deliveryStep_tables hi hstep) ht hm
    refine (deliveryStep_noLeak_iff (h pre (a :: post) m rfl hm) htables a).1 (fun m' hstep => ?_)
    exact h (pre ++ [a]) post m' (by simp) (Trace.run_append.2 ⟨m, hm, Trace.run_cons.2 ⟨m', hstep, rfl⟩⟩)
  · rintro h pre post m rfl hm
    have hpre := (Trace.every_append.1 h).1
    have hboth : NoLeak m.db ∧ DeliveryTables m :=
      Trace.run_preserves_of_every (P := fun s => NoLeak s.db ∧ DeliveryTables s)
        (fun s₁ a s₂ hi hc hstep =>
          ⟨(deliveryStep_noLeak_iff hi.1 hi.2 a).2 hc s₂ hstep, deliveryStep_tables hi.2 hstep⟩)
        ⟨hs, ht⟩ hpre hm
    exact hboth.1

/-! ### A witness of a queued request -/

def timingRequest : StoreOp :=
  .enqueueExecutionRequest "execution" "job" 1 "host" ⟨timingSpec, "token", ⟨"host", "epoch", "session"⟩⟩

def earlyWitness : StoreOp := .recordTerminationWitness "execution" .runtimeTerminated none none "container is gone"

/-- An observer reports the end of the runtime before a supervisor has claimed the request. -/
def earlyWitnessActs : List DeliveryAct := [.store timingRequest, .store earlyWitness]

/-- **The request has a witness, and is handed out all the same.** -/
theorem early_witness_leaks : ¬ CapacityKept workerConfig Sys.init earlyWitnessActs := by
  intro h
  have hclaimed : ((Trace.run (Sys.deliveryStep workerConfig) Sys.init earlyWitnessActs).map (fun s =>
      s.db.executionRequests.rows.any (fun e =>
        decide ((StoreOp.claimExecutionRequest "host" "supervisor" []).reply .postgres
        s.clock s.db = .request (some e)) && s.db.ended e))) = some true := by decide +kernel
  obtain ⟨m, hm, hany⟩ := Option.map_eq_some_iff.1 hclaimed
  obtain ⟨e, -, hrow⟩ := List.any_eq_true.1 hany
  obtain ⟨hrep, hended⟩ := Bool.and_eq_true_iff.1 hrow
  have hclaim := (h earlyWitnessActs [] m (by simp) hm).unclaimed .postgres m.clock "host" "supervisor" [] e
    (of_decide_eq_true hrep)
  rw [hclaim] at hended
  cases hended

/-! ### A request that is claimed, witnessed and completed -/

/-- The condition of a call, read off the rows. -/
def StoreOp.clears (db : Db) (own : Option String) : StoreOp → Bool
  | .enqueueExecutionRequest _ j n _ _ => !db.attemptLeft j n
  | .recordTerminationWitness e _ _ _ _ => (db.executionRequests.get e).all (fun r => decide (r.status ≠ .queued))
  | .finalizeAttemptAndRun c =>
    db.executionRequests.rows.all (fun r =>
      decide (some r.executionId = own) || !decide (r.jobId = c.jobId ∧ r.attemptNo = c.attemptNo) || !r.isActive)
  | .finalizeRecovery j n _ _ _ =>
    db.executionRequests.rows.all (fun r => !decide (r.jobId = j ∧ r.attemptNo = n) || !r.isActive)
  | _ => true

def Sys.clears (cfg : Config) (s : Sys) : DeliveryAct → Bool
  | .party (.call i _ locked) => ((s.threads i).op cfg s locked).all (fun op => op.clears s.db (s.threads i).completes)
  | .store op                 => op.clears s.db none
  | _                         => true

theorem StoreOp.releases_of_clears {b : Backend} {now : Time} {db : Db} {own : Option String} {op : StoreOp}
    (h : op.clears db own = true) : op.Releases b now db own := by
  cases op with
  | enqueueExecutionRequest e j n host p =>
    intro _
    simpa [StoreOp.clears] using h
  | recordTerminationWitness e kind code ap detail =>
    intro r hr
    simpa [StoreOp.clears, hr] using h
  | finalizeAttemptAndRun c =>
    intro _ x r hr hx hj hn
    have hrow := List.all_eq_true.1 h r (Table.mem_of_get hr)
    rw [← Table.key_of_get hr] at hx
    simpa [hx, hj, hn] using hrow
  | finalizeRecovery j n token et e =>
    intro _ _ _ x r hr hj hn
    have hrow := List.all_eq_true.1 h r (Table.mem_of_get hr)
    simpa [hj, hn] using hrow
  | _ => trivial

theorem Sys.releases_of_clears {cfg : Config} {s : Sys} {a : DeliveryAct} (h : s.clears cfg a = true) :
    s.Releases cfg a := by
  cases a with
  | store op => exact fun _ => StoreOp.releases_of_clears h
  | party a =>
    cases a with
    | call i fresh locked =>
      intro _ _ op hop
      simp only [Sys.clears, hop, Option.all_some] at h
      exact StoreOp.releases_of_clears h
    | _ => trivial

/-- The calls before the request: a host with a session, and an Attempt with its lease and its execution. -/
def leasedCalls : List StoreOp :=
  [.startHostSession ⟨"host", "epoch", "session"⟩ 30,
   .createRun "job" "design" "ip" "flow" (some "job") none (some timingSpec),
   .updateRun "job" { status := some .running },
   .recordAttempt "job" 1 .running none none none (some .notClassified),
   .acquireAttemptLease "job" 1 "worker" "token" 30,
   .recordAttemptExecution "job" 1 "token" ⟨"host", "epoch", "session"⟩ "execution"]

def leasedSys : Sys :=
  { Sys.init with clock := 1, db := leasedCalls.foldl (fun db op => op.after .postgres 1 db) Db.empty }

/-- A supervisor claims the request and starts its child; the adapter returns, and the supervisor records its witness and
completes. -/
def completedActs : List DeliveryAct :=
  [.store timingRequest, .party (.start 3 (.supervisor ⟨"host", "supervisor", 30⟩ .claim)), .party (.call 3 "d1" []),
   .party (.advance 3 4 "d2" .go), .party (.advance 3 0 "d3" (.child 5 5 none)), .party (.call 3 "d4" []),
   .party (.advance 3 0 "d5" (.returned timingReturn)), .party (.call 3 "d6" []), .party (.call 3 "d7" [])]

theorem leasedSys_noLeak : NoLeak leasedSys.db := by
  have hnone : leasedSys.db.executionRequests.rows = [] := by decide +kernel
  refine NoLeak.of_inactive (fun x e h => ?_)
  have hmem := Table.mem_of_get h
  rw [hnone] at hmem
  cases hmem

theorem leasedSys_tables : DeliveryTables leasedSys where
  requested x h := by
    have hnone : leasedSys.db.executionWitnesses.rows = [] := by decide +kernel
    obtain ⟨w, hw⟩ := Option.isSome_iff_exists.1 h
    have hmem := Table.mem_of_get hw
    rw [hnone] at hmem
    cases hmem
  holds q sup pc req h := by cases h
  witnessed q sup req c h := by cases h

/-- The request is claimed, witnessed and retired, its Run is `SUCCEEDED`, and no state on the way leaks. -/
theorem completedRequest_kept : (Trace.run (Sys.deliveryStep workerConfig) leasedSys completedActs).map (fun s =>
      (s.db.executionRequests.rows.map (·.isActive), (s.db.runs.get "job").map (·.status))) =
        some ([false], some .succeeded) ∧
    CapacityKept workerConfig leasedSys completedActs :=
  ⟨by decide +kernel, (capacity_kept_iff workerConfig leasedSys completedActs leasedSys_noLeak leasedSys_tables).2
    (Trace.Every.mono (fun _ _ => Sys.releases_of_clears) (by decide +kernel))⟩

end EdaLab
