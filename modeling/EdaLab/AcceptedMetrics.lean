import EdaLab.Dispatch
/-!
# AcceptedMetrics — an accepted success and its metrics row

`_execute` saves the metrics of a report after the call that makes its Run `SUCCEEDED`, and `run_once` does not save them
at all.  No row says which metrics an accepted report had, so the system is carried with what `parse_report` extracted in
each execution and what was accepted for each Run.
-/
namespace EdaLab

open Relational

/-- The system, with the metrics of the report each execution has collected and of the one accepted for each Run. -/
structure Reported where
  sys       : Sys
  extracted : Nat → Document
  accepted  : String → Option Document

namespace Reported

variable (cfg : Config) (x : Reported)

def init : Reported := ⟨Sys.init, fun _ => [], fun _ => none⟩

/-- An adapter's return is what `parse_report` is called on. -/
def extractedAfter : Act → Nat → Document
  | .advance i _ _ (.returned r) =>
    Function.update x.extracted i (match r.parsed with
      | .ok parsed => parsed.metrics
      | .error _   => [])
  | _ => x.extracted

/-- The report of a `SUCCEEDED` completion is accepted where the store accepts the completion. -/
def acceptedAfter : Act → String → Option Document
  | .call i _ locked =>
    match (x.sys.threads i).op cfg x.sys locked with
    | some (.finalizeAttemptAndRun c) =>
      if c.runStatus = .succeeded ∧
          (StoreOp.finalizeAttemptAndRun c).reply cfg.backend x.sys.clock x.sys.db = .flag true then
        Function.update x.accepted c.jobId (some (x.extracted i))
      else x.accepted
    | _ => x.accepted
  | _ => x.accepted

def step (a : Act) : Option Reported :=
  (Sys.step cfg x.sys a).map (fun s' => ⟨s', x.extractedAfter a, x.acceptedAfter cfg a⟩)

/-- If the Run is `SUCCEEDED`, its metrics row holds the metrics of its accepted report. -/
def Carries (j : String) : Prop :=
  ∀ r, x.sys.db.runs.get j = some r → r.status = .succeeded →
    ∃ m, x.accepted j = some m ∧ (x.sys.db.metrics.get j).map (·.payload) = some m

/-- A completion that makes a Run `SUCCEEDED` finds the metrics of its report stored; metrics stored for a Run that is
`SUCCEEDED` are those of its accepted report. -/
def FindsMetrics (i : Nat) : StoreOp → Prop
  | .finalizeAttemptAndRun c =>
    c.runStatus = .succeeded → (Store.completeAttempt x.sys.db x.sys.clock c).Enabled x.sys.db →
      x.sys.db.runningRun c.jobId → (x.sys.db.metrics.get c.jobId).map (·.payload) = some (x.extracted i)
  | .saveMetrics j payload =>
    ∀ r, x.sys.db.runs.get j = some r → r.status = .succeeded → x.accepted j = some payload
  | _ => True

/-- The condition of a step: that of its call, if it is one. -/
def StoresFirst (a : Act) : Prop :=
  ∀ i fresh locked op, a = .call i fresh locked → x.sys.isFresh fresh = true →
    (x.sys.threads i).op cfg x.sys locked = some op → x.FindsMetrics i op

end Reported

/-! ## What one call does to the metrics -/

theorem saveMetrics_get (db : Db) (j i : String) (payload : Document) :
    ((Store.saveMetrics db j payload).metrics.get i).map (·.payload) =
      if i = j then some payload else (db.metrics.get i).map (·.payload) := by
  unfold Store.saveMetrics
  simp only [Table.get_upsert]
  by_cases h : i = j
  · subst h
    cases db.metrics.get i <;> simp
  · rw [if_neg h, if_neg (fun hk => h hk.symm)]

theorem metrics_after (b : Backend) (now : Time) (db : Db) {op : StoreOp} (hop : ∀ j p, op ≠ .saveMetrics j p) :
    (op.after b now db).metrics = db.metrics := by
  have hfinalizer : ∀ c, op.finalizer now db = some c → (op.after b now db).metrics = db.metrics := by
    intro c hc
    cases finalizer_cases b hc with
    | accepted _ _ _ _ _ hafter => rw [hafter]; rfl
    | noAttempt _ _ hafter => rw [hafter]
    | noRun _ _ _ hafter => rw [hafter]; cases b <;> rfl
  cases op with
  | saveMetrics j p => exact absurd rfl (hop j p)
  | finalizeRecovery j n token et e => exact hfinalizer _ rfl
  | finalizeAttemptAndRun c => exact hfinalizer _ rfl
  | createRun j d i f hash m p =>
    have hins : ∀ r, (Store.insertRun db r).1.metrics = db.metrics := by
      intro r
      unfold Store.insertRun
      split <;> rfl
    simp only [StoreOp.after, StoreOp.exec, Store.createRun, Reply.ofCreate]
    split
    · exact hins _
    · split
      · rfl
      · split
        · rfl
        · exact hins _
  | updateRun j f =>
    simp only [StoreOp.after, StoreOp.exec, Store.updateRun]
    split <;> rfl
  | recordAttempt j n st et e ap rc =>
    simp only [StoreOp.after, StoreOp.exec, Store.recordAttempt, Reply.ofExcept]
    split <;> rfl
  | startHostSession owner ttl =>
    simp only [StoreOp.after, StoreOp.exec, Store.startHostSession, Reply.ofExcept]
    split <;> rfl
  | enqueueExecutionRequest e j n h p =>
    simp only [StoreOp.after, StoreOp.exec, Store.enqueueExecutionRequest, Reply.ofFlag]
    split <;> rfl
  | claimExecutionRequest h sup locked =>
    simp only [StoreOp.after, StoreOp.exec, Store.claimExecutionRequest]
    split <;> rfl
  | recordTerminationWitness e kind code ap detail =>
    simp only [StoreOp.after, StoreOp.exec, Store.recordTerminationWitness, Reply.ofFlag]
    split
    · rfl
    · split <;> rfl
  | claimNextRun locked =>
    cases b with
    | sqlite => rfl
    | postgres =>
      simp only [StoreOp.after, StoreOp.exec, PostgresStore.claimNextRun]
      split <;> rfl
  | releaseTerminalExecutionRequests => cases b <;> rfl
  | countActiveExecutionRequests h => cases b <;> rfl
  | _ => rfl

namespace Reported

variable {cfg : Config} {x x' : Reported}

/-! ## One step -/

/-- What a step of the system does to what the metrics are compared with. -/
theorem step_cases {a : Act} (h : x.step cfg a = some x') :
    (x'.sys.db = x.sys.db ∧ x'.accepted = x.accepted) ∨
    ∃ i fresh locked op, a = .call i fresh locked ∧ Sys.Called cfg x.sys i fresh locked op x'.sys ∧
      x'.accepted = x.acceptedAfter cfg a := by
  obtain ⟨s', hs, rfl⟩ := Option.map_eq_some_iff.1 h
  cases Sys.step_cases hs with
  | call i fresh locked op _ hc => exact Or.inr ⟨i, fresh, locked, op, rfl, hc, rfl⟩
  | advance _ _ _ _ _ _ _ _ happ => exact Or.inl ⟨happ.frame.1, rfl⟩
  | _ => exact Or.inl ⟨rfl, rfl⟩

/-- A call that is no completion leaves what is accepted. -/
theorem acceptedAfter_eq {i : Nat} {fresh : String} {locked : List String} {op : StoreOp}
    (hop : (x.sys.threads i).op cfg x.sys locked = some op) (hno : ∀ c, op ≠ .finalizeAttemptAndRun c) :
    x.acceptedAfter cfg (.call i fresh locked) = x.accepted := by
  unfold acceptedAfter
  simp only [hop]
  split
  · rename_i c heq
    cases heq
    exact absurd rfl (hno c)
  · rfl

/-- No unfenced write makes a Run `SUCCEEDED`. -/
theorem unfencedWrite_ne {th : Thread} {j : String} {st : RunStatus} (h : th.unfencedWrite = some (j, st)) :
    st ≠ .succeeded := by
  have hscan : ∀ r : RecoverPc, r.unfencedWrite = some (j, st) → st ≠ .succeeded := by
    intro r hr
    cases r with
    | failNoAttempt sc run => cases hr; decide
    | _ => cases hr
  cases th with
  | exec svc spec pc =>
    cases pc with
    | start => cases h; decide
    | _ => cases h
  | cancel svc j' pc =>
    cases pc with
    | write => cases h; decide
    | _ => cases h
  | recover svc r => exact hscan r h
  | drain svc d pc =>
    cases pc with
    | recovering r => exact hscan r h
    | _ => cases h
  | agent svc self d pc =>
    cases pc with
    | drain pc =>
      cases pc with
      | recovering r => exact hscan r h
      | _ => cases h
    | _ => cases h
  | _ => cases h

/-- A Run that is `SUCCEEDED` after a call that is no completion was so before it. -/
theorem succeeded_before {i : Nat} {locked : List String} {op : StoreOp}
    (hop : (x.sys.threads i).op cfg x.sys locked = some op) (hno : ∀ c, op ≠ .finalizeAttemptAndRun c) {j : String}
    {r : RunRow} (hr : (op.after cfg.backend x.sys.clock x.sys.db).runs.get j = some r) (hst : r.status = .succeeded) :
    x.sys.db.runs.get j = some r := by
  cases runs_after cfg.backend x.sys.clock x.sys.db op j with
  | same h => rw [← h, hr]
  | created d f g h m p _ _ hget =>
    rw [hr] at hget
    cases hget
    cases hst
  | updated fields r' hupd _ hget =>
    rw [hr] at hget
    cases hget
    rw [hupd] at hop
    obtain ⟨st, hw, hf⟩ := Thread.op_updateRun hop
    have hne : st ≠ .succeeded := unfencedWrite_ne hw
    simp only [RunFields.write, hf, Option.getD_some] at hst
    exact absurd hst hne
  | claimed _ r' _ _ _ _ hget =>
    rw [hr] at hget
    cases hget
    cases hst
  | closed c r' hfin _ _ _ _ hget =>
    rw [hr] at hget
    cases hget
    cases op with
    | finalizeRecovery j n token et e => cases hfin; cases hst
    | finalizeAttemptAndRun c => exact absurd rfl (hno c)
    | _ => cases hfin

/-- **A completion** carries the metrics of every Run exactly where it finds those of its report stored. -/
theorem carries_finalize_iff (hx : ∀ j, x.Carries j) {i : Nat} {fresh : String} {locked : List String} {c : Completion}
    (hc : Sys.Called cfg x.sys i fresh locked (.finalizeAttemptAndRun c) x'.sys)
    (hacc : x'.accepted = x.acceptedAfter cfg (.call i fresh locked)) :
    (∀ j, x'.Carries j) ↔ x.FindsMetrics i (.finalizeAttemptAndRun c) := by
  have hmetrics : x'.sys.db.metrics = x.sys.db.metrics := by
    rw [hc.db_eq]
    exact metrics_after cfg.backend x.sys.clock x.sys.db (fun j p h => by cases h)
  have hother : ∀ j, x'.sys.db.runs.get j = x.sys.db.runs.get j → x'.accepted j = x.accepted j →
      x'.Carries j := by
    intro j hrun haccepted r hr hst
    rw [hrun] at hr
    rw [hmetrics, haccepted]
    exact hx j r hr hst
  have haccepted : x'.accepted = if c.runStatus = .succeeded ∧
      (StoreOp.finalizeAttemptAndRun c).reply cfg.backend x.sys.clock x.sys.db = .flag true then
        Function.update x.accepted c.jobId (some (x.extracted i)) else x.accepted := by
    rw [hacc]
    unfold acceptedAfter
    simp only [hc.is_op]
  have hfin : (StoreOp.finalizeAttemptAndRun c).finalizer x.sys.clock x.sys.db =
      some ⟨Store.completeAttempt x.sys.db x.sys.clock c, c.jobId, c.fields⟩ := rfl
  cases finalizer_cases cfg.backend hfin with
  | accepted hen hrunning hreply rest _ hafter =>
    obtain ⟨r, hr, hrun⟩ := hrunning
    have hget : ∀ j, x'.sys.db.runs.get j =
        if j = c.jobId then some (c.fields.write x.sys.clock r) else x.sys.db.runs.get j := by
      intro j
      rw [hc.db_eq, hafter]
      rw [Db.get_updateRuns, AttemptUpdate.exec_runs]
      by_cases hj : j = c.jobId
      · subst hj
        simp [hr, Store.runIsRunning, hrun]
      · cases x.sys.db.runs.get j <;> simp [hj, Ne.symm hj]
    constructor
    · intro hall hst _ _
      obtain ⟨m, hm, hpayload⟩ := hall c.jobId (c.fields.write x.sys.clock r) (by rw [hget, if_pos rfl]) hst
      rw [haccepted, if_pos ⟨hst, hreply⟩, Function.update_self] at hm
      rw [hmetrics] at hpayload
      rw [hpayload, hm]
    · intro hfinds j
      by_cases hj : j = c.jobId
      · subst hj
        intro r' hr' hst
        rw [hget, if_pos rfl] at hr'
        cases hr'
        refine ⟨x.extracted i, ?_, ?_⟩
        · rw [haccepted, if_pos ⟨hst, hreply⟩, Function.update_self]
        · rw [hmetrics]
          exact hfinds hst hen ⟨r, hr, hrun⟩
      · refine hother j (by rw [hget, if_neg hj]) ?_
        rw [haccepted]
        split
        · exact Function.update_of_ne hj ..
        · rfl
  | noAttempt hen hreply hafter =>
    refine ⟨fun _ _ h => absurd h hen, fun _ j => hother j (by rw [hc.db_eq, hafter]) ?_⟩
    rw [haccepted, hreply, if_neg (fun h => by cases h.2)]
  | noRun _ hrunning hreply hafter =>
    refine ⟨fun _ _ _ h => absurd h hrunning, fun _ j => hother j ?_ ?_⟩
    · rw [hc.db_eq, hafter, Backend.refused_runs]
    · rw [haccepted, hreply, if_neg (fun h => by cases h.2)]

/-- **A save** carries the metrics of every Run exactly where it saves the accepted ones of a `SUCCEEDED` Run. -/
theorem carries_saveMetrics_iff (hx : ∀ j, x.Carries j) {i : Nat} {fresh : String} {locked : List String} {j : String}
    {payload : Document} (hc : Sys.Called cfg x.sys i fresh locked (.saveMetrics j payload) x'.sys)
    (hacc : x'.accepted = x.acceptedAfter cfg (.call i fresh locked)) :
    (∀ k, x'.Carries k) ↔ x.FindsMetrics i (.saveMetrics j payload) := by
  have hsame : x'.accepted = x.accepted := by
    rw [hacc, acceptedAfter_eq hc.is_op (fun c h => by cases h)]
  have hrun : x'.sys.db.runs = x.sys.db.runs := by
    rw [hc.db_eq]
    rfl
  have hpayload : ∀ k, (x'.sys.db.metrics.get k).map (·.payload) =
      if k = j then some payload else (x.sys.db.metrics.get k).map (·.payload) := by
    intro k
    rw [hc.db_eq]
    exact saveMetrics_get x.sys.db j k payload
  constructor
  · intro hall r hr hst
    obtain ⟨m, hm, hp⟩ := hall j r (by rw [hrun, hr]) hst
    rw [hpayload, if_pos rfl] at hp
    cases hp
    rw [← hsame, hm]
  · intro hfinds k r hr hst
    rw [hrun] at hr
    rw [hsame, hpayload]
    by_cases hk : k = j
    · subst hk
      exact ⟨payload, hfinds r hr hst, by rw [if_pos rfl]⟩
    · rw [if_neg hk]
      exact hx k r hr hst

/-- **One step** carries the metrics of every Run exactly where its call meets its condition. -/
theorem step_carries_iff (hx : ∀ j, x.Carries j) (a : Act) :
    (∀ x', x.step cfg a = some x' → ∀ j, x'.Carries j) ↔ x.StoresFirst cfg a := by
  constructor
  · rintro h i fresh locked op rfl hfresh hop
    obtain ⟨s', hs⟩ := Option.isSome_iff_exists.1 (Sys.call_isSome_iff.2 ⟨⟨op, hop⟩, hfresh⟩)
    obtain ⟨op', hc⟩ := Sys.call_some hs
    obtain rfl : op = op' := Option.some.inj (hop.symm.trans hc.is_op)
    have hstep : x.step cfg (.call i fresh locked) =
        some ⟨s', x.extractedAfter (.call i fresh locked), x.acceptedAfter cfg (.call i fresh locked)⟩ :=
      Option.map_eq_some_iff.2 ⟨s', hs, rfl⟩
    have hall := h _ hstep
    cases op with
    | finalizeAttemptAndRun c => exact (carries_finalize_iff hx hc rfl).1 hall
    | saveMetrics j payload => exact (carries_saveMetrics_iff hx hc rfl).1 hall
    | _ => trivial
  · intro hstores x' hstep
    rcases step_cases hstep with ⟨hdb, haccepted⟩ | ⟨i, fresh, locked, op, rfl, hc, haccepted⟩
    · intro j r hr hst
      rw [hdb] at hr ⊢
      rw [haccepted]
      exact hx j r hr hst
    · have hfinds := hstores i fresh locked op rfl hc.is_fresh hc.is_op
      by_cases hfin : ∃ c, op = .finalizeAttemptAndRun c
      · obtain ⟨c, rfl⟩ := hfin
        exact (carries_finalize_iff hx hc haccepted).2 hfinds
      · by_cases hsave : ∃ j p, op = .saveMetrics j p
        · obtain ⟨j, p, rfl⟩ := hsave
          exact (carries_saveMetrics_iff hx hc haccepted).2 hfinds
        · have hno : ∀ c, op ≠ .finalizeAttemptAndRun c := fun c h => hfin ⟨c, h⟩
          intro j r hr hst
          rw [hc.db_eq] at hr ⊢
          rw [metrics_after cfg.backend x.sys.clock x.sys.db (fun j p h => hsave ⟨j, p, h⟩), haccepted,
            acceptedAfter_eq hc.is_op hno]
          exact hx j r (succeeded_before hc.is_op hno hr hst) hst

/-! ## Whole runs -/

/-- In every state the run goes through a `SUCCEEDED` Run carries the metrics of its accepted report. -/
def MetricsCarried (cfg : Config) (acts : List Act) : Prop :=
  ∀ pre post x, acts = pre ++ post → Trace.run (Reported.step cfg) init pre = some x → ∀ j, x.Carries j

theorem init_carries (j : String) : init.Carries j := fun _ h => by cases h

/-- **Every accepted success carries its metrics in exactly the runs whose completions find them stored and whose saves
are of the accepted ones.** -/
theorem metrics_carried_iff (cfg : Config) (acts : List Act) :
    MetricsCarried cfg acts ↔ Trace.Every (Reported.step cfg) (fun x a => x.StoresFirst cfg a) init acts := by
  constructor
  · intro h
    rw [Trace.every_iff_forall_split]
    rintro pre a post x rfl hx
    refine (step_carries_iff (h pre (a :: post) x rfl hx) a).1 (fun x' hstep => ?_)
    exact h (pre ++ [a]) post x' (by simp) (Trace.run_append.2 ⟨x, hx, Trace.run_cons.2 ⟨x', hstep, rfl⟩⟩)
  · rintro h pre post x rfl hx
    have hpre := (Trace.every_append.1 h).1
    exact Trace.run_preserves_of_every (P := fun x => ∀ j, x.Carries j)
      (fun x₁ a x₂ hi hc hstep => (step_carries_iff hi a).2 hc x₂ hstep) init_carries hpre hx

/-! ### A supervisor that has returned -/

def slackReturn : AdapterReturn :=
  ⟨.result ⟨"timing.report", some 0, none⟩,
   .ok { parseStatus := .ok, checkStatus := .pass, metrics := [("worst_slack_ns", .float (1 / 50))], errors := [],
         completeness := .complete, semanticStatus := .valid, provenanceStatus := .valid }⟩

/-- Service 0 submits the job, the agent of service 1 claims it and its execution enqueues the request; the supervisor in
thread 3 executes it up to its own return. -/
def deliveredActs : List Act :=
  [.start 0 (.submit 0 timingSpec .lookup), .call 0 "a1" [], .advance 0 0 "a2" .go, .call 0 "a3" [], .call 0 "a4" [],
   .start 1 (.agent 1 ⟨"host", "epoch", "session"⟩ ⟨none, 1, [], []⟩ .enter), .advance 1 0 "b1" .go, .call 1 "b2" [],
   .advance 1 0 "b3" .go, .call 1 "b4" [], .call 1 "b5" [], .advance 1 0 "b6" .go, .advance 1 0 "b7" .go,
   .call 1 "b8" [], .call 1 "b9" [], .advance 1 0 "b10" .go, .advance 1 0 "b11" .go, .call 1 "b12" [],
   .advance 1 0 "b13" .go, .call 1 "b14" [], .advance 1 0 "b15" .go, .call 1 "b16" [], .advance 1 2 "b17" .go,
   .advance 2 0 "c1" .go, .call 2 "c2" [], .call 2 "c3" [], .call 2 "c4" [], .call 2 "c5" [], .call 2 "c6" [],
   .start 3 (.supervisor ⟨"host", "supervisor", 30⟩ .claim), .call 3 "d1" [], .advance 3 4 "d2" .go,
   .advance 3 0 "d3" (.returned slackReturn), .call 3 "d4" [], .call 3 "d5" []]

/-- **The Run a supervisor made `SUCCEEDED` has no metrics row**, and no step of that supervisor is left to write one. -/
theorem supervised_success_without_metrics : ¬ ∀ (cfg : Config) (acts : List Act), MetricsCarried cfg acts := by
  intro hall
  have hrun : ((Trace.run (Reported.step supervisedConfig) init deliveredActs).bind (fun x =>
      (x.sys.db.runs.get "job").map (fun r => (r.status, (x.sys.db.metrics.get "job").map (·.payload))))) =
      some (.succeeded, none) := by decide +kernel
  obtain ⟨x, hx, hrow⟩ := Option.bind_eq_some_iff.1 hrun
  obtain ⟨r, hr, heq⟩ := Option.map_eq_some_iff.1 hrow
  obtain ⟨hst, hnone⟩ := Prod.mk.inj heq
  obtain ⟨m, -, hm⟩ := hall supervisedConfig deliveredActs deliveredActs [] x (by simp) hx "job" r hr hst
  rw [hnone] at hm
  cases hm

end Reported

end EdaLab
