import EdaLab.Absorbing
import EdaLab.ReportSpec
/-!
# Trust — the two executors decide alike

`_execute` rejects a result in a chain of early returns, `run_once` accepts it on one conjunction.  They agree because of
the statuses `parse_report` can return: the chain never meets a report that is parsed, not inconsistent and not `VALID`.

Each writes its decision in one `finalize_attempt_and_run`, and that call raises where the store cannot keep its values:
`_execute` then closes the Run as an execution error, `run_once` leaves it `RUNNING`, as it does where its witness cannot
keep the exit code.  So the two agree exactly where both stores take what the adapter and the report put into these calls
(`same_decision_iff`).
-/
namespace EdaLab

open Relational

/-- What an executor stores of a result. -/
structure Decision where
  status           : RunStatus
  parseStatus      : ParseStatus
  checkStatus      : CheckStatus
  completeness     : Completeness
  semanticStatus   : Validity
  provenanceStatus : Validity
  trustStatus      : TrustStatus
  provenance       : Document
  artifactPath     : Option String
  deriving DecidableEq

def RunRow.decision (r : RunRow) : Decision :=
  ⟨r.status, r.parseStatus, r.checkStatus, r.completeness, r.semanticStatus, r.provenanceStatus, r.trustStatus,
   r.provenance, r.artifactPath⟩

def Sys.decision (s : Sys) (j : String) : Option Decision := (s.db.runs.get j).map RunRow.decision

/-- `{**execution_provenance, **result.provenance, "observed_process_exit_code": …}`. -/
def AdapterRunResult.provenance (r : AdapterRunResult) (p : ParseResult) : Document :=
  ((r.executionProvenance.getD []).merge (p.provenance.getD [])).set "observed_process_exit_code"
    (r.processExitCode.elim .null .int)

/-- The decision about a parsed report and an observed exit. -/
def decisionOf (p : ParseResult) (r : AdapterRunResult) : Decision where
  status :=
    if p.parseStatus = .ok ∧ p.semanticStatus = .valid ∧ r.processExitCode = some 0 then .succeeded else .failed
  parseStatus := p.parseStatus
  checkStatus := p.checkStatus
  completeness := p.completeness
  semanticStatus := p.semanticStatus
  provenanceStatus := p.provenanceStatus
  trustStatus := trustStatus p r.processExitCode
  provenance := r.provenance p
  artifactPath := some r.artifactPath

/-- **Success, trust and a clean exit with a valid report are one condition.** -/
theorem decisionOf_trusted {p : ParseResult} (hp : p.Judged) (r : AdapterRunResult) :
    ((decisionOf p r).status = .succeeded ↔ (decisionOf p r).trustStatus = .trusted) ∧
    ((decisionOf p r).trustStatus = .trusted ↔ r.processExitCode = some 0 ∧ p.parseStatus = .ok ∧
      p.semanticStatus = .valid ∧ p.provenanceStatus = .valid) := by
  have htrust : trustStatus p r.processExitCode = .trusted ↔ r.processExitCode = some 0 ∧ p.parseStatus = .ok ∧
      p.semanticStatus = .valid ∧ p.provenanceStatus = .valid := by
    unfold trustStatus
    cases hx : r.processExitCode with
    | none => split <;> simp
    | some code =>
      by_cases hcode : code = 0
      · subst hcode
        rcases hp with ⟨h₁, h₂, h₃⟩ | ⟨h₁, h₃, h₂ | h₂⟩ <;> simp [h₁, h₂, h₃]
      · simp [hcode]
  have hstatus : (decisionOf p r).status = .succeeded ↔
      p.parseStatus = .ok ∧ p.semanticStatus = .valid ∧ r.processExitCode = some 0 := by
    simp [decisionOf]
  refine ⟨?_, htrust⟩
  rw [hstatus]
  refine Iff.trans ?_ htrust.symm
  constructor
  · rintro ⟨hok, hvalid, hexit⟩
    rcases hp with ⟨h, -, -⟩ | ⟨-, hprov, -⟩
    · rw [hok] at h
      cases h
    · exact ⟨hexit, hok, hvalid, hprov⟩
  · rintro ⟨hexit, hok, hvalid, -⟩
    exact ⟨hok, hvalid, hexit⟩

/-! ## What a store refuses

The other texts of a completion are constants, and a path that could be read has no U+0000 in it. -/

/-- `process_exit_code` of a termination witness: an `INTEGER` has 64 bits in SQLite, an `integer` 32 in PostgreSQL. -/
def Backend.holdsExit : Backend → Int → Bool
  | .sqlite, code   => decide (-2 ^ 63 ≤ code ∧ code < 2 ^ 63)
  | .postgres, code => decide (-2 ^ 31 ≤ code ∧ code < 2 ^ 31)

/-- U+0000 is in no text of PostgreSQL, nor in a text within a `jsonb`. -/
def Backend.refusesText (b : Backend) (s : String) : Bool := decide (b = .postgres) && s.toList.contains (Char.ofNat 0)

/-- An integer of more than 4300 digits is not written. -/
def PyObject.refused (b : Backend) : PyObject → Bool
  | .int i                  => decide (10 ^ 4300 ≤ i.natAbs)
  | .str s                  => b.refusesText s
  | .object sqlite postgres => (if b = .sqlite then sqlite else postgres).isNone
  | _                       => false

/-- `json.dumps` or the cast to `jsonb` raises. -/
def Document.refused (b : Backend) (d : Document) : Bool := d.any (fun e => b.refusesText e.1 || e.2.refused b)

/-- `finalize_attempt_and_run` raises at its values. -/
def Completion.refused (b : Backend) (c : Completion) : Bool :=
  c.error.any b.refusesText || c.runFields.provenance.any (Document.refused b)

/-- Both stores take what the two paths write: the provenance, the exit code of the witness, and the errors that `_execute`
writes of a report it rejects. -/
structure Storable (b₁ b₂ : Backend) (p : ParseResult) (r : AdapterRunResult) : Prop where
  executed   : (r.provenance p).refused b₁ = false
  witnessed  : r.processExitCode.all b₂.holdsExit = true
  supervised : (r.provenance p).refused b₂ = false
  errors     : p.parseStatus = .invalid ∨ p.semanticStatus = .invalid →
    b₁.refusesText ("; ".intercalate p.errors) = false

instance (b₁ b₂ : Backend) (p : ParseResult) (r : AdapterRunResult) : Decidable (Storable b₁ b₂ p r) :=
  decidable_of_iff ((r.provenance p).refused b₁ = false ∧ r.processExitCode.all b₂.holdsExit = true ∧
    (r.provenance p).refused b₂ = false ∧
    (p.parseStatus = .invalid ∨ p.semanticStatus = .invalid → b₁.refusesText ("; ".intercalate p.errors) = false))
    ⟨fun h => ⟨h.1, h.2.1, h.2.2.1, h.2.2.2⟩, fun h => ⟨h.executed, h.witnessed, h.supervised, h.errors⟩⟩

/-- An exit code is written in digits. -/
theorem refusesText_toolExit (b : Backend) (code : Int) :
    b.refusesText ("tool_exit: exit code " ++ toString code) = false := by
  have hdigits : ∀ n : Nat, Char.ofNat 0 ∉ n.repr.toList := by
    intro n hn
    rw [Nat.toList_repr] at hn
    have h := Nat.isDigit_of_mem_toDigits (by decide) (by decide) hn
    exact absurd h (by decide)
  have hcode : Char.ofNat 0 ∉ (toString code).toList := by
    rw [Int.toString_eq_repr, Int.repr_eq_if]
    split
    · exact hdigits _
    · simp only [String.toList_append, List.mem_append, not_or]
      exact ⟨by decide, hdigits _⟩
  have hnone : Char.ofNat 0 ∉ ("tool_exit: exit code " ++ toString code).toList := by
    rw [String.toList_append, List.mem_append, not_or]
    exact ⟨by decide, hcode⟩
  simp only [Backend.refusesText, List.contains_eq_mem, hnone, decide_false, Bool.and_false]

/-! ## The completions -/

/-- A completion for an Attempt under a token that stores the decision. -/
structure Decides (d : Decision) (j : String) (n : Nat) (t : String) (c : Completion) : Prop where
  job : c.jobId = j
  attempt : c.attemptNo = n
  token : c.token = t
  decision : ∀ now row, ((c.fields.write now row).decision) = d

/-- A completion with the validation fields, the artifact and the status of a decision stores it. -/
theorem decides_of_fields {p : ParseResult} {r : AdapterRunResult} {c : Completion} {j : String} {n : Nat} {t : String}
    (hj : c.jobId = j) (hn : c.attemptNo = n) (ht : c.token = t)
    (hfields : c.runFields = validationFields p r.processExitCode r.executionProvenance)
    (hartifact : c.artifactPath = some r.artifactPath) (hstatus : c.runStatus = (decisionOf p r).status) :
    Decides (decisionOf p r) j n t c := by
  refine ⟨hj, hn, ht, fun now row => ?_⟩
  unfold RunRow.decision RunFields.write Completion.fields
  simp only [hfields, hartifact, hstatus]
  rfl

/-- **The chain of early returns** stores the decision, where the store takes the provenance and the errors it writes. -/
theorem collectResult_decides (spec : JobSpec) (n : Nat) (t : String) (r : AdapterRunResult) {p : ParseResult}
    (hp : p.Judged) : ∃ c m, collectResult spec n t ⟨.result r, .ok p⟩ = .finalize c (.body m) ∧
      Decides (decisionOf p r) spec.jobId n t c ∧
      ∀ b, c.refused b = false ↔ (r.provenance p).refused b = false ∧
        (p.parseStatus = .invalid ∨ p.semanticStatus = .invalid → b.refusesText ("; ".intercalate p.errors) = false) := by
  have hfailed : ∀ et e, (decisionOf p r).status = .failed →
      Decides (decisionOf p r) spec.jobId n t
        (failedResult spec n t r.artifactPath et e (validationFields p r.processExitCode r.executionProvenance)) :=
    fun et e hst => decides_of_fields rfl rfl rfl rfl rfl hst.symm
  have hrefused : ∀ et e b, (failedResult spec n t r.artifactPath et e
      (validationFields p r.processExitCode r.executionProvenance)).refused b = false ↔
      (r.provenance p).refused b = false ∧ b.refusesText e = false := by
    intro et e b
    rw [and_comm]
    exact Bool.or_eq_false_iff
  -- the errors are written of a rejected report only, and the other texts are constants
  have hconstant : ∀ et e b, ¬ (p.parseStatus = .invalid ∨ p.semanticStatus = .invalid) → b.refusesText e = false →
      ((failedResult spec n t r.artifactPath et e
        (validationFields p r.processExitCode r.executionProvenance)).refused b = false ↔
      (r.provenance p).refused b = false ∧ (p.parseStatus = .invalid ∨ p.semanticStatus = .invalid →
        b.refusesText ("; ".intercalate p.errors) = false)) := by
    intro et e b hnot htext
    rw [hrefused, htext]
    exact ⟨fun h => ⟨h.1, fun hr => absurd hr hnot⟩, fun h => ⟨h.1, rfl⟩⟩
  have herrors : ∀ et b, p.parseStatus = .invalid ∨ p.semanticStatus = .invalid →
      ((failedResult spec n t r.artifactPath et ("; ".intercalate p.errors)
        (validationFields p r.processExitCode r.executionProvenance)).refused b = false ↔
      (r.provenance p).refused b = false ∧ (p.parseStatus = .invalid ∨ p.semanticStatus = .invalid →
        b.refusesText ("; ".intercalate p.errors) = false)) := by
    intro et b hrej
    rw [hrefused]
    exact ⟨fun h => ⟨h.1, fun _ => h.2⟩, fun h => ⟨h.1, h.2 hrej⟩⟩
  unfold collectResult
  by_cases hparse : p.parseStatus = .invalid
  · have hst : (decisionOf p r).status = .failed := if_neg (fun h => by rw [hparse] at h; cases h.1)
    simp only [if_pos hparse]
    exact ⟨_, _, rfl, hfailed _ _ hst, fun b => herrors _ b (Or.inl hparse)⟩
  · by_cases hsem : p.semanticStatus = .invalid
    · have hst : (decisionOf p r).status = .failed := if_neg (fun h => by rw [hsem] at h; cases h.2.1)
      simp only [if_neg hparse, if_pos hsem]
      exact ⟨_, _, rfl, hfailed _ _ hst, fun b => herrors _ b (Or.inr hsem)⟩
    · -- neither INVALID: the report is one that is parsed and VALID
      have hvalid : p.parseStatus = .ok ∧ p.semanticStatus = .valid := by
        rcases hp with ⟨h, -, -⟩ | ⟨h, -, h' | h'⟩
        · exact absurd h hparse
        · exact ⟨h, h'⟩
        · exact absurd h' hsem
      have hnot : ¬ (p.parseStatus = .invalid ∨ p.semanticStatus = .invalid) := fun h => h.elim hparse hsem
      simp only [if_neg hparse, if_neg hsem, AdapterReturn.processExitCode, AdapterReturn.artifact,
        AdapterReturn.executionProvenance]
      cases hx : r.processExitCode with
      | none =>
        have hst : (decisionOf p r).status = .failed := if_neg (fun h => by rw [hx] at h; cases h.2.2)
        refine ⟨_, _, rfl, ?_⟩
        rw [← hx]
        exact ⟨hfailed _ _ hst, fun b => hconstant _ _ b hnot (by cases b <;> decide)⟩
      | some code =>
        by_cases hcode : code = 0
        · subst hcode
          have hst : (decisionOf p r).status = .succeeded := if_pos ⟨hvalid.1, hvalid.2, hx⟩
          simp only [ne_eq, not_true_eq_false, if_false]
          refine ⟨_, _, rfl, ?_⟩
          rw [← hx]
          exact ⟨decides_of_fields rfl rfl rfl rfl rfl hst.symm,
            fun b => ⟨fun h => ⟨h, fun hr => absurd hr hnot⟩, fun h => h.1⟩⟩
        · have hst : (decisionOf p r).status = .failed :=
            if_neg (fun h => hcode (Option.some.inj (hx.symm.trans h.2.2)))
          simp only [ne_eq, hcode, not_false_eq_true, if_true]
          refine ⟨_, _, rfl, ?_⟩
          rw [← hx]
          exact ⟨hfailed _ _ hst, fun b => hconstant _ _ b hnot (refusesText_toolExit b code)⟩

/-- **The conjunction** stores the decision, where the store takes the provenance. -/
theorem completion_decides (req : ExecutionRequestRow) (r : AdapterRunResult) (p : ParseResult) :
    Decides (decisionOf p r) req.jobId req.attemptNo req.payload.leaseToken
      (SupervisorPc.completion req ⟨.result r, .ok p⟩ p) ∧
    ∀ b, (SupervisorPc.completion req ⟨.result r, .ok p⟩ p).refused b = (r.provenance p).refused b := by
  unfold SupervisorPc.completion
  split
  · rename_i h
    have hst : (decisionOf p r).status = .succeeded := if_pos h
    exact ⟨decides_of_fields rfl rfl rfl rfl rfl hst.symm, fun b => rfl⟩
  · rename_i h
    have hst : (decisionOf p r).status = .failed := if_neg h
    refine ⟨decides_of_fields rfl rfl rfl rfl rfl hst.symm, fun b => ?_⟩
    have htext : b.refusesText "supervisor rejected execution result" = false := by cases b <;> decide
    unfold Completion.refused
    rw [Option.any_some, htext, Bool.false_or]
    rfl

/-! ## The two paths -/

/-- Nothing contends with the execution of an Attempt: the Run and the Attempt are `RUNNING`, the lease is its own and
live, no recovery has claimed it, and its owner's session, if it has one, is the current one. -/
structure Uncontended (s : Sys) (j : String) (n : Nat) (t : String) (owner : Option ExecutionOwner) : Prop where
  running : s.db.runningRun j
  attempt : ∃ a, s.db.attempts.get (j, n) = some a ∧ a.status = .running ∧ a.leaseToken = some t ∧
    a.leaseLive s.clock = true ∧ a.recoveryFree s.clock = true ∧ Store.ownerClause s.db s.clock owner a = true

/-- The adapter returns to a thread, which makes its next two calls. -/
def Sys.Course (cfg : Config) (s : Sys) (q : Nat) (ret : AdapterReturn) (s' : Sys) : Prop :=
  ∃ k f₀ f₁ f₂ l₁ l₂, Trace.run (Sys.step cfg) s
    [.advance q k f₀ (.returned ret), .call q f₁ l₁, .call q f₂ l₂] = some s'

section Paths

variable {cfg : Config} {s s' : Sys} {q : Nat}

/-- A call of a thread whose store call is known. -/
theorem call_of_op (op : StoreOp) {fresh : String} {locked : List String}
    (h : Sys.step cfg s (.call q fresh locked) = some s') (hop : (s.threads q).op cfg s locked = some op) :
    Sys.Called cfg s q fresh locked op s' := by
  obtain ⟨op', hc⟩ := Sys.call_some h
  have heq : op = op' := Option.some.inj (hop.symm.trans hc.is_op)
  rw [heq]
  exact hc

/-- **An accepted completion** is written to its Run. -/
theorem finalize_row {j : String} {n : Nat} {t : String} {c : Completion} {fresh : String} {locked : List String}
    (hu : Uncontended s j n t c.executionOwner) (hj : c.jobId = j) (hn : c.attemptNo = n) (ht : c.token = t)
    (hc : Sys.Called cfg s q fresh locked (.finalizeAttemptAndRun c) s') :
    ∃ r, s.db.runs.get j = some r ∧ s'.db.runs.get j = some (c.fields.write s.clock r) := by
  obtain ⟨a, ha, hrunning, htoken, hlive, hfree, howner⟩ := hu.attempt
  obtain ⟨r, hr, hrun⟩ := hu.running
  have hen : (Store.completeAttempt s.db s.clock c).Enabled s.db := by
    refine ⟨a, ?_, ?_⟩
    · simp only [Store.completeAttempt, hj, hn, ha]
    · simp only [Store.completeAttempt, AttemptRow.isRunning, AttemptRow.holdsLease, hrunning, htoken, ht, hlive,
        hfree, howner, decide_true, Bool.and_self]
  have hfin : (StoreOp.finalizeAttemptAndRun c).finalizer s.clock s.db =
      some ⟨Store.completeAttempt s.db s.clock c, c.jobId, c.fields⟩ := rfl
  have hrunc : s.db.runningRun c.jobId := by rw [hj]; exact ⟨r, hr, hrun⟩
  cases finalizer_cases cfg.backend hfin with
  | noAttempt h => exact absurd hen h
  | noRun _ h => exact absurd hrunc h
  | accepted _ _ _ rest _ hafter =>
    refine ⟨r, hr, ?_⟩
    rw [hc.db_eq, hafter]
    rw [Db.get_updateRuns, AttemptUpdate.exec_runs]
    simp [hr, hj, Store.runIsRunning, hrun]

/-- A completion that decides stores its decision. -/
theorem finalize_decision {d : Decision} {j : String} {n : Nat} {t : String} {c : Completion} {fresh : String}
    {locked : List String} (hu : Uncontended s j n t c.executionOwner) (hd : Decides d j n t c)
    (hc : Sys.Called cfg s q fresh locked (.finalizeAttemptAndRun c) s') : s'.decision j = some d := by
  obtain ⟨r, -, hget⟩ := finalize_row hu hd.job hd.attempt hd.token hc
  unfold Sys.decision
  rw [hget, Option.map_some, hd.decision]

/-- A thread that is at a store call can make it. -/
theorem exists_call (op : StoreOp) (hop : (s.threads q).op cfg s [] = some op) :
    ∃ fresh s', Sys.step cfg s (.call q fresh []) = some s' := by
  obtain ⟨fresh, hf⟩ := s.exists_fresh
  obtain ⟨s', hs⟩ := Option.isSome_iff_exists.1 (Sys.call_isSome_iff.2 ⟨⟨op, hop⟩, hf⟩)
  exact ⟨fresh, s', hs⟩

/-! ### `_execute` -/

variable {svc n : Nat} {spec : JobSpec} {t : String} {ret : AdapterReturn}

theorem exec_returns (hq : s.threads q = .exec svc spec (.adapter n t)) {k : Nat} {fresh : String}
    (h : Sys.step cfg s (.advance q k fresh (.returned ret)) = some s') :
    s' = s.put q fresh (.exec svc spec (.collect n t ret)) := by
  simp only [Sys.step, Sys.proceed, hq, Thread.advance, ExecPc.advance, Option.map_some, Sys.apply] at h
  split at h
  · cases h
    rfl
  · cases h

theorem uncontended_put {j : String} {owner : Option ExecutionOwner} {fresh : String} {th : Thread}
    (hu : Uncontended s j n t owner) : Uncontended (s.put q fresh th) j n t owner := ⟨hu.running, hu.attempt⟩

/-- The heartbeat before the result is collected leaves the execution uncontended, at the handling of the result. -/
theorem exec_collects (hlease : 0 ≤ (cfg.service svc).leaseSeconds) (hq : s.threads q = .exec svc spec (.collect n t ret))
    (hu : Uncontended s spec.jobId n t (s.owners svc)) {fresh : String} {locked : List String}
    (h : Sys.step cfg s (.call q fresh locked) = some s') :
    Uncontended s' spec.jobId n t (s'.owners svc) ∧ s'.db.runs = s.db.runs ∧
    s'.threads q = .exec svc spec (collectResult spec n t ret) := by
  have hc := call_of_op (.heartbeatAttempt spec.jobId n t (cfg.service svc).leaseSeconds) h (by rw [hq]; rfl)
  obtain ⟨a, ha, hrunning, htoken, hlive, hfree, howner⟩ := hu.attempt
  generalize hbeat : Store.heartbeatAttempt s.clock spec.jobId n t (cfg.service svc).leaseSeconds = u at hc
  have hguard : u.guard a = true := by
    rw [← hbeat]
    simp only [Store.heartbeatAttempt, AttemptRow.isRunning, AttemptRow.holdsLease, hrunning, htoken, hlive, decide_true,
      Bool.and_self]
  have hkey : u.key = (spec.jobId, n) := by rw [← hbeat]; rfl
  have hwrite : u.write a = a.renew s.clock (cfg.service svc).leaseSeconds := by rw [← hbeat]; rfl
  have hdb : s'.db = (u.exec s.db).1 := by
    rw [hc.db_eq, ← hbeat]
    rfl
  have hrow : s'.db.attempts.get (spec.jobId, n) = some (a.renew s.clock (cfg.service svc).leaseSeconds) := by
    rw [hdb, ← hkey, u.get_exec_key s.db (by rw [hkey, ha]) hguard, hwrite]
  have hreply : (StoreOp.heartbeatAttempt spec.jobId n t (cfg.service svc).leaseSeconds).reply cfg.backend s.clock s.db =
      .flag true := by
    have htrue : (u.exec s.db).2 = true := (u.exec_true_iff s.db).2 ⟨a, by rw [hkey, ha], hguard⟩
    rw [← hbeat] at htrue
    simp only [StoreOp.reply, StoreOp.exec, Reply.ofFlag, htrue]
  refine ⟨⟨?_, _, hrow, hrunning, htoken, ?_, by rw [hc.clock_eq]; exact hfree, ?_⟩, by rw [hdb]; rfl, ?_⟩
  · obtain ⟨row, hr, hrun⟩ := hu.running
    exact ⟨row, by rw [hdb]; exact hr, hrun⟩
  · rw [hc.clock_eq]
    simp only [AttemptRow.leaseLive, AttemptRow.renew, Option.any_some, decide_eq_true_eq]
    linarith
  · rw [hc.clock_eq, hc.owners_eq, hdb]
    exact howner
  · rw [hc.threads_eq, Function.update_self, hq]
    simp only [Thread.resume, ExecPc.resume, hreply, if_true]

theorem Decides.withOwner {d : Decision} {j : String} {c : Completion} (hd : Decides d j n t c)
    (owner : Option ExecutionOwner) : Decides d j n t { c with executionOwner := owner } :=
  ⟨hd.job, hd.attempt, hd.token, hd.decision⟩

/-- A run of the local path: the heartbeat, then the completion that the handling of the result forms. -/
theorem local_steps {c : Completion} {scope : Scope} (hcollect : collectResult spec n t ret = .finalize c scope)
    (hlease : 0 ≤ (cfg.service svc).leaseSeconds) (hq : s.threads q = .exec svc spec (.adapter n t))
    (hu : Uncontended s spec.jobId n t (s.owners svc)) (h : s.Course cfg q ret s') :
    ∃ s₁ fresh locked, Uncontended s₁ spec.jobId n t (s₁.owners svc) ∧ s₁.db.runs = s.db.runs ∧
      Sys.Called cfg s₁ q fresh locked (.finalizeAttemptAndRun { c with executionOwner := s₁.owners svc }) s' := by
  obtain ⟨k, f₀, f₁, f₂, l₁, l₂, hrun⟩ := h
  obtain ⟨s₀, h₀, hrun⟩ := Trace.run_cons.1 hrun
  obtain ⟨s₁, h₁, hrun⟩ := Trace.run_cons.1 hrun
  obtain ⟨s₂, h₂, hrun⟩ := Trace.run_cons.1 hrun
  cases hrun
  obtain rfl := exec_returns hq h₀
  obtain ⟨hu₁, hruns, hth⟩ := exec_collects hlease (Function.update_self ..) (uncontended_put hu) h₁
  refine ⟨s₁, f₂, l₂, hu₁, hruns, call_of_op _ h₂ ?_⟩
  rw [hth, hcollect]
  rfl

/-- The local path runs to the end of its completion. -/
theorem local_runs {c : Completion} {scope : Scope} (hcollect : collectResult spec n t ret = .finalize c scope)
    (hlease : 0 ≤ (cfg.service svc).leaseSeconds) (hq : s.threads q = .exec svc spec (.adapter n t))
    (hu : Uncontended s spec.jobId n t (s.owners svc)) : ∃ s', s.Course cfg q ret s' := by
  obtain ⟨f₀, hf₀⟩ := s.exists_fresh
  have h₀ : Sys.step cfg s (.advance q 0 f₀ (.returned ret)) =
      some (s.put q f₀ (.exec svc spec (.collect n t ret))) := by
    simp only [Sys.step, Sys.proceed, hq, Thread.advance, ExecPc.advance, Option.map_some, hf₀, if_true, Sys.apply]
  have hth₀ : (s.put q f₀ (.exec svc spec (.collect n t ret))).threads q = .exec svc spec (.collect n t ret) :=
    Function.update_self ..
  have hop : ((s.put q f₀ (.exec svc spec (.collect n t ret))).threads q).op cfg
      (s.put q f₀ (.exec svc spec (.collect n t ret))) [] =
      some (.heartbeatAttempt spec.jobId n t (cfg.service svc).leaseSeconds) := by
    rw [hth₀]
    rfl
  obtain ⟨f₁, s₁, h₁⟩ := exists_call _ hop
  obtain ⟨-, -, hth⟩ := exec_collects hlease hth₀ (uncontended_put hu) h₁
  have hfinalize : (s₁.threads q).op cfg s₁ [] =
      some (.finalizeAttemptAndRun { c with executionOwner := s₁.owners svc }) := by
    rw [hth, hcollect]
    rfl
  obtain ⟨f₂, s₂, h₂⟩ := exists_call _ hfinalize
  exact ⟨s₂, 0, f₀, f₁, f₂, [], [],
    Trace.run_cons.2 ⟨_, h₀, Trace.run_cons.2 ⟨_, h₁, Trace.run_cons.2 ⟨_, h₂, rfl⟩⟩⟩⟩

/-- The path runs, and whatever its steps it leaves the decision on the Run. -/
structure Sys.Stores (cfg : Config) (s : Sys) (q : Nat) (ret : AdapterReturn) (j : String) (d : Decision) : Prop where
  runs   : ∃ s', s.Course cfg q ret s'
  stores : ∀ s', s.Course cfg q ret s' → s'.decision j = some d

/-- **The local path** stores the decision. -/
theorem local_stores {r : AdapterRunResult} {p : ParseResult} (hp : p.Judged)
    (hlease : 0 ≤ (cfg.service svc).leaseSeconds) (hq : s.threads q = .exec svc spec (.adapter n t))
    (hu : Uncontended s spec.jobId n t (s.owners svc)) :
    s.Stores cfg q ⟨.result r, .ok p⟩ spec.jobId (decisionOf p r) := by
  obtain ⟨c, m, hcollect, hd, -⟩ := collectResult_decides spec n t r hp
  refine ⟨local_runs hcollect hlease hq hu, fun s' h => ?_⟩
  obtain ⟨s₁, fresh, locked, hu₁, -, hc⟩ := local_steps hcollect hlease hq hu h
  exact finalize_decision hu₁ (hd.withOwner _) hc

/-- **Where its store refuses the completion**, the local path stores a failure that names no artifact. -/
theorem local_refused {message : String} (hlease : 0 ≤ (cfg.service svc).leaseSeconds)
    (hq : s.threads q = .exec svc spec (.adapter n t)) (hu : Uncontended s spec.jobId n t (s.owners svc))
    (hopen : ∀ row, s.db.runs.get spec.jobId = some row → row.artifactPath = none) {result : AdapterResult} {d : Decision}
    (h : s.Stores cfg q ⟨result, .error message⟩ spec.jobId d) : d.artifactPath = none := by
  obtain ⟨s', hcourse⟩ := h.runs
  obtain ⟨s₁, fresh, locked, hu₁, hruns, hc⟩ := local_steps rfl hlease hq hu hcourse
  obtain ⟨row, hrow, hget⟩ := finalize_row hu₁ rfl rfl rfl hc
  have hd := h.stores s' hcourse
  unfold Sys.decision at hd
  rw [hget, Option.map_some] at hd
  cases hd
  exact hopen row (by rw [← hruns]; exact hrow)

/-! ### `run_once` -/

variable {sup : Supervisor} {req : ExecutionRequestRow}

theorem supervisor_returns {r : AdapterRunResult} {parsed : Except String ParseResult}
    (hq : s.threads q = .supervisor sup (.running req)) {k : Nat} {fresh : String}
    (h : Sys.step cfg s (.advance q k fresh (.returned ⟨.result r, parsed⟩)) = some s') :
    ∃ w, s' = s.put q fresh (.supervisor sup (.witness req w (some ⟨.result r, parsed⟩))) := by
  simp only [Sys.step, Sys.proceed, hq, Thread.advance, SupervisorPc.advance, Option.map_some, Sys.apply] at h
  split at h
  · cases h
    exact ⟨_, rfl⟩
  · cases h

/-- The witness leaves the execution uncontended, at the handling of the result. -/
theorem supervisor_witnesses {w : Witness} (hq : s.threads q = .supervisor sup (.witness req w (some ret)))
    (hu : Uncontended s req.jobId req.attemptNo req.payload.leaseToken (some req.payload.executionOwner)) {fresh : String}
    {locked : List String} (h : Sys.step cfg s (.call q fresh locked) = some s') :
    Uncontended s' req.jobId req.attemptNo req.payload.leaseToken (some req.payload.executionOwner) ∧
    s'.threads q = .supervisor sup (SupervisorPc.resume .unit (.witness req w (some ret))) := by
  have hc := call_of_op
    (.recordTerminationWitness req.executionId w.kind w.processExitCode w.artifactPath w.detail) h (by rw [hq]; rfl)
  -- the witness and its request are in other tables
  have hdb : s'.db.runs = s.db.runs ∧ s'.db.attempts = s.db.attempts ∧ s'.db.hostSessions = s.db.hostSessions ∧
      s'.db.hosts = s.db.hosts := by
    rw [hc.db_eq]
    simp only [StoreOp.after, StoreOp.exec, Store.recordTerminationWitness, Reply.ofFlag]
    split
    · exact ⟨rfl, rfl, rfl, rfl⟩
    · split
      · exact ⟨rfl, rfl, rfl, rfl⟩
      · exact ⟨rfl, rfl, rfl, rfl⟩
  obtain ⟨hruns, hattempts, hsessions, hhosts⟩ := hdb
  obtain ⟨a, ha, hrunning, htoken, hlive, hfree, howner⟩ := hu.attempt
  refine ⟨⟨?_, a, by rw [hattempts, ha], hrunning, htoken, by rw [hc.clock_eq]; exact hlive,
    by rw [hc.clock_eq]; exact hfree, ?_⟩, ?_⟩
  · obtain ⟨row, hr, hrun⟩ := hu.running
    exact ⟨row, by rw [hruns, hr], hrun⟩
  · unfold Store.ownerClause Db.currentSession at howner ⊢
    rw [hc.clock_eq, hsessions, hhosts]
    exact howner
  · rw [hc.threads_eq, Function.update_self, hq]
    rfl

/-- A run of the supervised path: the witness, then a call from where the handling of the result stands. -/
theorem supervised_steps {r : AdapterRunResult} {parsed : Except String ParseResult}
    (hq : s.threads q = .supervisor sup (.running req))
    (hu : Uncontended s req.jobId req.attemptNo req.payload.leaseToken (some req.payload.executionOwner))
    (h : s.Course cfg q ⟨.result r, parsed⟩ s') : ∃ s₁ w fresh locked,
      Uncontended s₁ req.jobId req.attemptNo req.payload.leaseToken (some req.payload.executionOwner) ∧
      s₁.threads q = .supervisor sup (SupervisorPc.resume .unit (.witness req w (some ⟨.result r, parsed⟩))) ∧
      Sys.step cfg s₁ (.call q fresh locked) = some s' := by
  obtain ⟨k, f₀, f₁, f₂, l₁, l₂, hrun⟩ := h
  obtain ⟨s₀, h₀, hrun⟩ := Trace.run_cons.1 hrun
  obtain ⟨s₁, h₁, hrun⟩ := Trace.run_cons.1 hrun
  obtain ⟨s₂, h₂, hrun⟩ := Trace.run_cons.1 hrun
  cases hrun
  obtain ⟨w, rfl⟩ := supervisor_returns hq h₀
  obtain ⟨hu₁, hth⟩ := supervisor_witnesses (Function.update_self ..) (uncontended_put hu) h₁
  exact ⟨s₁, w, f₂, l₂, hu₁, hth, h₂⟩

/-- The supervised path runs to the end of its completion. -/
theorem supervised_runs {r : AdapterRunResult} {p : ParseResult} (hq : s.threads q = .supervisor sup (.running req))
    (hu : Uncontended s req.jobId req.attemptNo req.payload.leaseToken (some req.payload.executionOwner)) :
    ∃ s', s.Course cfg q ⟨.result r, .ok p⟩ s' := by
  obtain ⟨f₀, hf₀⟩ := s.exists_fresh
  generalize hw : (⟨.processExited, r.processExitCode, some r.artifactPath, "supervisor observed adapter return"⟩ :
    Witness) = w
  have h₀ : Sys.step cfg s (.advance q 0 f₀ (.returned ⟨.result r, .ok p⟩)) =
      some (s.put q f₀ (.supervisor sup (.witness req w (some ⟨.result r, .ok p⟩)))) := by
    simp only [Sys.step, Sys.proceed, hq, Thread.advance, SupervisorPc.advance, Option.map_some, hf₀, if_true, Sys.apply,
      hw]
  have hth₀ : (s.put q f₀ (.supervisor sup (.witness req w (some ⟨.result r, .ok p⟩)))).threads q =
      .supervisor sup (.witness req w (some ⟨.result r, .ok p⟩)) := Function.update_self ..
  have hop : ((s.put q f₀ (.supervisor sup (.witness req w (some ⟨.result r, .ok p⟩)))).threads q).op cfg
      (s.put q f₀ (.supervisor sup (.witness req w (some ⟨.result r, .ok p⟩)))) [] =
      some (.recordTerminationWitness req.executionId w.kind w.processExitCode w.artifactPath w.detail) := by
    rw [hth₀]
    rfl
  obtain ⟨f₁, s₁, h₁⟩ := exists_call _ hop
  obtain ⟨-, hth⟩ := supervisor_witnesses hth₀ (uncontended_put hu) h₁
  have hfinalize : (s₁.threads q).op cfg s₁ [] =
      some (.finalizeAttemptAndRun (SupervisorPc.completion req ⟨.result r, .ok p⟩ p)) := by
    rw [hth]
    rfl
  obtain ⟨f₂, s₂, h₂⟩ := exists_call _ hfinalize
  exact ⟨s₂, 0, f₀, f₁, f₂, [], [],
    Trace.run_cons.2 ⟨_, h₀, Trace.run_cons.2 ⟨_, h₁, Trace.run_cons.2 ⟨_, h₂, rfl⟩⟩⟩⟩

/-- **The supervised path** stores the decision. -/
theorem supervised_stores {r : AdapterRunResult} {p : ParseResult} (hq : s.threads q = .supervisor sup (.running req))
    (hu : Uncontended s req.jobId req.attemptNo req.payload.leaseToken (some req.payload.executionOwner)) :
    s.Stores cfg q ⟨.result r, .ok p⟩ req.jobId (decisionOf p r) := by
  obtain ⟨hd, -⟩ := completion_decides req r p
  refine ⟨supervised_runs hq hu, fun s' h => ?_⟩
  obtain ⟨s₁, w, fresh, locked, hu₁, hth, h₂⟩ := supervised_steps hq hu h
  have hc := call_of_op (.finalizeAttemptAndRun (SupervisorPc.completion req ⟨.result r, .ok p⟩ p)) h₂ (by rw [hth]; rfl)
  have howner : (SupervisorPc.completion req ⟨.result r, .ok p⟩ p).executionOwner = some req.payload.executionOwner := by
    unfold SupervisorPc.completion
    split
    · rfl
    · rfl
  exact finalize_decision (by rw [howner]; exact hu₁) hd hc

/-- **Where its store refuses the completion**, the supervised path raises and closes nothing. -/
theorem supervised_refused {r : AdapterRunResult} {message j : String} {d : Decision}
    (hq : s.threads q = .supervisor sup (.running req))
    (hu : Uncontended s req.jobId req.attemptNo req.payload.leaseToken (some req.payload.executionOwner)) :
    ¬ s.Stores cfg q ⟨.result r, .error message⟩ j d := by
  intro h
  obtain ⟨s', hcourse⟩ := h.runs
  obtain ⟨s₁, w, fresh, locked, -, hth, h₂⟩ := supervised_steps hq hu hcourse
  obtain ⟨⟨op, hop⟩, -⟩ := Sys.call_isSome_iff.1 (Option.isSome_iff_exists.2 ⟨s', h₂⟩)
  rw [hth] at hop
  cases hop

/-- **Where it raises before it has written anything**, the supervised path makes no call. -/
theorem supervised_unwitnessed {artifact j : String} {parsed : Except String ParseResult} {d : Decision}
    (hq : s.threads q = .supervisor sup (.running req)) : ¬ s.Stores cfg q ⟨.path artifact, parsed⟩ j d := by
  intro h
  obtain ⟨s', k, f₀, f₁, f₂, l₁, l₂, hrun⟩ := h.runs
  obtain ⟨s₀, h₀, hrun⟩ := Trace.run_cons.1 hrun
  obtain ⟨s₁, h₁, -⟩ := Trace.run_cons.1 hrun
  have hth : s₀.threads q = .supervisor sup .raised := by
    simp only [Sys.step, Sys.proceed, hq, Thread.advance, SupervisorPc.advance, Option.map_some, Sys.apply] at h₀
    split at h₀
    · cases h₀
      exact Function.update_self ..
    · cases h₀
  obtain ⟨⟨op, hop⟩, -⟩ := Sys.call_isSome_iff.1 (Option.isSome_iff_exists.2 ⟨s₁, h₁⟩)
  rw [hth] at hop
  cases hop

end Paths

/-- The result an adapter returns, with the report at its artifact path. -/
def reportedReturn (py : Interpreter) (r : AdapterRunResult) (payload : ByteArray) : AdapterReturn :=
  ⟨.result r, (parseReport py payload).mapError PyError.text⟩

/-- The same where the store refuses the completion, with the text of what it raises. -/
def AdapterReturn.refusing (ret : AdapterReturn) (refused : Bool) (message : String) : AdapterReturn :=
  if refused then { ret with parsed := .error message } else ret

/-- `_execute` at its adapter call, with nothing contending and the Run not closed before. -/
structure LocalPath where
  cfg   : Config
  sys   : Sys
  q     : Nat
  svc   : Nat
  n     : Nat
  token : String
  spec  : JobSpec
  lease       : 0 ≤ (cfg.service svc).leaseSeconds
  thread      : sys.threads q = .exec svc spec (.adapter n token)
  uncontended : Uncontended sys spec.jobId n token (sys.owners svc)
  unclosed    : ∀ row, sys.db.runs.get spec.jobId = some row → row.artifactPath = none

/-- `run_once` at its adapter call, with nothing contending. -/
structure SupervisedPath where
  cfg : Config
  sys : Sys
  q   : Nat
  sup : Supervisor
  req : ExecutionRequestRow
  thread      : sys.threads q = .supervisor sup (.running req)
  uncontended : Uncontended sys req.jobId req.attemptNo req.payload.leaseToken (some req.payload.executionOwner)

section Decisions

variable (py : Interpreter) (payload : ByteArray) (r : AdapterRunResult) (message : String)

/-- What `_execute` gets: the result and its report, or the refusal of its completion. -/
def LocalPath.received (l : LocalPath) : AdapterReturn :=
  (reportedReturn py r payload).refusing
    (match collectResult l.spec l.n l.token (reportedReturn py r payload) with
      | .finalize c _ => c.refused l.cfg.backend
      | _             => false) message

/-- What `run_once` gets.  Where its witness is refused it raises before it has written anything, as it does where the
adapter returns a bare path. -/
def SupervisedPath.received (v : SupervisedPath) : AdapterReturn :=
  if r.processExitCode.all v.cfg.backend.holdsExit = true then
    (reportedReturn py r payload).refusing
      (match parseReport py payload with
        | .ok p    => (SupervisorPc.completion v.req (reportedReturn py r payload) p).refused v.cfg.backend
        | .error _ => false) message
  else ⟨.path r.artifactPath, .error message⟩

/-- Both paths store one decision; it is a success exactly where it is trusted, which is where the observed exit is zero and
the report is parsed and valid. -/
def SameDecision (l : LocalPath) (v : SupervisedPath) : Prop :=
  ∃ p d, parseReport py payload = .ok p ∧
    l.sys.Stores l.cfg l.q (l.received py payload r message) l.spec.jobId d ∧
    v.sys.Stores v.cfg v.q (v.received py payload r message) v.req.jobId d ∧
    (d.status = .succeeded ↔ d.trustStatus = .trusted) ∧
    (d.trustStatus = .trusted ↔ r.processExitCode = some 0 ∧ p.parseStatus = .ok ∧ p.semanticStatus = .valid ∧
      p.provenanceStatus = .valid)

variable {py payload r message} {p : ParseResult} (l : LocalPath) (v : SupervisedPath)

theorem reportedReturn_of_ok (hparse : parseReport py payload = .ok p) :
    reportedReturn py r payload = ⟨.result r, .ok p⟩ := by
  unfold reportedReturn
  rw [hparse]
  rfl

/-- The local path gets the report where its store takes the provenance and the errors it writes, else the refusal. -/
theorem LocalPath.received_cases (message : String) (hparse : parseReport py payload = .ok p) (hp : p.Judged) :
    ((r.provenance p).refused l.cfg.backend = false ∧ (p.parseStatus = .invalid ∨ p.semanticStatus = .invalid →
        l.cfg.backend.refusesText ("; ".intercalate p.errors) = false) ∧
      l.received py payload r message = ⟨.result r, .ok p⟩) ∨
    (¬ ((r.provenance p).refused l.cfg.backend = false ∧ (p.parseStatus = .invalid ∨ p.semanticStatus = .invalid →
        l.cfg.backend.refusesText ("; ".intercalate p.errors) = false)) ∧
      l.received py payload r message = ⟨.result r, .error message⟩) := by
  obtain ⟨c, m, hcollect, -, hrefused⟩ := collectResult_decides l.spec l.n l.token r hp
  unfold LocalPath.received
  rw [reportedReturn_of_ok hparse, hcollect]
  simp only [← hrefused l.cfg.backend]
  cases hc : c.refused l.cfg.backend with
  | false =>
    obtain ⟨hprovenance, herrors⟩ := (hrefused l.cfg.backend).1 hc
    exact Or.inl ⟨hprovenance, herrors, rfl⟩
  | true => exact Or.inr ⟨Bool.noConfusion, rfl⟩

/-- The supervised path gets the report where its store takes the exit code and the provenance, else a refusal. -/
theorem SupervisedPath.received_cases (message : String) (hparse : parseReport py payload = .ok p) :
    (r.processExitCode.all v.cfg.backend.holdsExit = true ∧ (r.provenance p).refused v.cfg.backend = false ∧
      v.received py payload r message = ⟨.result r, .ok p⟩) ∨
    (¬ (r.processExitCode.all v.cfg.backend.holdsExit = true ∧ (r.provenance p).refused v.cfg.backend = false) ∧
      (v.received py payload r message = ⟨.result r, .error message⟩ ∨
        v.received py payload r message = ⟨.path r.artifactPath, .error message⟩)) := by
  obtain ⟨-, hrefused⟩ := completion_decides v.req r p
  unfold SupervisedPath.received
  by_cases hexit : r.processExitCode.all v.cfg.backend.holdsExit = true
  · rw [if_pos hexit, reportedReturn_of_ok hparse, hparse]
    simp only [hrefused]
    cases hc : (r.provenance p).refused v.cfg.backend with
    | false => exact Or.inl ⟨hexit, rfl, rfl⟩
    | true => exact Or.inr ⟨(fun h => by cases h.2), Or.inl rfl⟩
  · rw [if_neg hexit]
    exact Or.inr ⟨(fun h => hexit h.1), Or.inr rfl⟩

/-- What the store of the supervised path refuses is not decided alike. -/
theorem not_same_of_refused (hparse : parseReport py payload = .ok p)
    (h : ¬ (r.processExitCode.all v.cfg.backend.holdsExit = true ∧ (r.provenance p).refused v.cfg.backend = false)) :
    ¬ SameDecision py payload r message l v := by
  rintro ⟨p', d, hparse', -, hv, -⟩
  rcases v.received_cases message hparse with ⟨hexit, hok, -⟩ | ⟨-, hret | hret⟩
  · exact h ⟨hexit, hok⟩
  · rw [hret] at hv
    exact supervised_refused v.thread v.uncontended hv
  · rw [hret] at hv
    exact supervised_unwitnessed v.thread hv

end Decisions

/-- **Both executors store the same decision exactly where both stores take it**, for every report, every result of the
adapter and whatever a refusal says. -/
theorem same_decision_iff (py : Interpreter) (payload : ByteArray) (r : AdapterRunResult) (message : String) (l : LocalPath)
    (v : SupervisedPath) : SameDecision py payload r message l v ↔
      ∀ p, parseReport py payload = .ok p → Storable l.cfg.backend v.cfg.backend p r := by
  obtain ⟨p, hparse, hp⟩ := parseReport_ok py payload
  constructor
  · intro h p' hparse'
    rw [hparse] at hparse'
    cases hparse'
    rcases v.received_cases message hparse with ⟨hexit, hsupervised, hretv⟩ | ⟨hrefused, -⟩
    · obtain ⟨_, d, _, hl, hv, _⟩ := h
      rcases l.received_cases message hparse hp with ⟨hexecuted, herrors, -⟩ | ⟨-, hretl⟩
      · exact ⟨hexecuted, hexit, hsupervised, herrors⟩
      · -- the refused local path names no artifact, the supervised one does
        rw [hretl] at hl
        rw [hretv] at hv
        have hnone := local_refused l.lease l.thread l.uncontended l.unclosed hl
        obtain ⟨s', hcourse⟩ := hv.runs
        have hd := (supervised_stores v.thread v.uncontended).stores s' hcourse
        rw [hv.stores s' hcourse] at hd
        rw [Option.some.inj hd] at hnone
        cases hnone
    · exact absurd h (not_same_of_refused l v hparse hrefused)
  · intro h
    obtain ⟨hexecuted, hexit, hsupervised, herrors⟩ := h p hparse
    have hretl : l.received py payload r message = ⟨.result r, .ok p⟩ := by
      rcases l.received_cases message hparse hp with ⟨-, -, hret⟩ | ⟨hnot, -⟩
      · exact hret
      · exact absurd ⟨hexecuted, herrors⟩ hnot
    have hretv : v.received py payload r message = ⟨.result r, .ok p⟩ := by
      rcases v.received_cases message hparse with ⟨-, -, hret⟩ | ⟨hrefused, -⟩
      · exact hret
      · exact absurd ⟨hexit, hsupervised⟩ hrefused
    obtain ⟨hsuccess, htrusted⟩ := decisionOf_trusted hp r
    refine ⟨p, decisionOf p r, hparse, ?_, ?_, hsuccess, htrusted⟩
    · rw [hretl]
      exact local_stores hp l.lease l.thread l.uncontended
    · rw [hretv]
      exact supervised_stores v.thread v.uncontended

/-! ### One Attempt, executed on either path -/

def hostOwner : ExecutionOwner := ⟨"host", "epoch", "session"⟩

def executingCalls : List StoreOp :=
  [.startHostSession hostOwner 30,
   .createRun "job" "design" "ip" "flow" (some "job") none (some timingSpec),
   .updateRun "job" { status := some .running },
   .recordAttempt "job" 1 .running none none none (some .notClassified),
   .acquireAttemptLease "job" 1 "worker" "token" 30,
   .recordAttemptExecution "job" 1 "token" hostOwner "execution",
   .enqueueExecutionRequest "execution" "job" 1 "host" ⟨timingSpec, "token", hostOwner⟩]

def executingDb : Db := executingCalls.foldl (fun db op => op.after .postgres 1 db) Db.empty

/-- The Attempt is executed by the one thread there is. -/
def executing (th : Thread) : Sys :=
  { Sys.init with clock := 1, db := executingDb, threads := Function.update Sys.init.threads 0 th }

def executingRequest : ExecutionRequestRow :=
  ⟨"execution", "job", 1, "host", .running, ⟨timingSpec, "token", hostOwner⟩, 1, some "supervisor", some 1, none, none⟩

theorem executing_uncontended (th : Thread) (owner : Option ExecutionOwner)
    (howner : owner = none ∨ owner = some hostOwner) :
    Uncontended (executing th) "job" 1 "token" owner := by
  have hrun : (executingDb.runs.get "job").map (·.status) = some .running := by decide +kernel
  have hattempt : (executingDb.attempts.get ("job", 1)).map (fun a => decide (a.status = .running) &&
      decide (a.leaseToken = some "token") && a.leaseLive 1 && a.recoveryFree 1 &&
      Store.ownerClause executingDb 1 (some hostOwner) a) = some true := by decide +kernel
  obtain ⟨r, hr, hst⟩ := Option.map_eq_some_iff.1 hrun
  obtain ⟨a, ha, hguard⟩ := Option.map_eq_some_iff.1 hattempt
  simp only [Bool.and_eq_true, decide_eq_true_eq] at hguard
  obtain ⟨⟨⟨⟨hrunning, htoken⟩, hlive⟩, hfree⟩, hcurrent⟩ := hguard
  refine ⟨⟨r, hr, hst⟩, a, ha, hrunning, htoken, hlive, hfree, ?_⟩
  rcases howner with rfl | rfl
  · rfl
  · exact hcurrent

def timingReport : ByteArray :=
  ("SYNTHETIC / NOT GENERATED BY AN EDA TOOL\nfixture_format_version=1\nrun_id=job\nstage=timing\ncorner=tt\n" ++
    "tool_exit_code=0\nworst_slack=1 ns\n").toUTF8

/-- The digest is that of the report. -/
def executingPy : Interpreter where
  sha256     := fun _ => "b9018828f40d8867fd72fc8d2a30af5965bdebf8478ae895e61def22308d3d4b"
  intError   := fun s => "invalid literal for int() with base 10: '" ++ s ++ "'"
  floatError := fun s => "could not convert string to float: '" ++ s ++ "'"

theorem executing_lease : 0 ≤ (workerConfig.service 0).leaseSeconds := by norm_num [workerConfig, workerService]

theorem executing_unclosed (row : RunRow) (h : executingDb.runs.get "job" = some row) : row.artifactPath = none := by
  have hnone : (executingDb.runs.get "job").map (·.artifactPath) = some none := by decide +kernel
  rw [h, Option.map_some] at hnone
  exact Option.some.inj hnone

/-- `_execute` at its adapter call, in the one thread there is. -/
def executedPath : LocalPath where
  cfg   := workerConfig
  sys   := executing (.exec 0 timingSpec (.adapter 1 "token"))
  q     := 0
  svc   := 0
  n     := 1
  token := "token"
  spec  := timingSpec
  lease       := executing_lease
  thread      := rfl
  uncontended := executing_uncontended _ _ (Or.inl rfl)
  unclosed    := executing_unclosed

/-- `run_once` at its adapter call, in the one thread there is. -/
def supervisedPath : SupervisedPath where
  cfg := workerConfig
  sys := executing (.supervisor ⟨"host", "supervisor", 30⟩ (.running executingRequest))
  q   := 0
  sup := ⟨"host", "supervisor", 30⟩
  req := executingRequest
  thread      := rfl
  uncontended := executing_uncontended _ _ (Or.inr rfl)

def timingResult (tools : PyObject) : AdapterRunResult := ⟨"timing.report", some 0, some [("tools", tools)]⟩

/-- What the report makes of a question about its parse. -/
def timingHolds (P : ParseResult → Bool) : Bool :=
  match parseReport executingPy timingReport with
  | .ok p    => P p
  | .error _ => false

theorem timing_parsed {P : ParseResult → Bool} (h : timingHolds P = true) :
    ∃ p, parseReport executingPy timingReport = .ok p ∧ P p = true := by
  obtain ⟨p, hparse, -⟩ := parseReport_ok executingPy timingReport
  unfold timingHolds at h
  rw [hparse] at h
  exact ⟨p, hparse, h⟩

theorem timing_same : SameDecision executingPy timingReport (timingResult (.str "sta")) "refused" executedPath
    supervisedPath := by
  refine (same_decision_iff executingPy timingReport (timingResult (.str "sta")) "refused" executedPath supervisedPath).2 ?_
  intro p hparse
  obtain ⟨p', hparse', hp⟩ := timing_parsed (P := fun p =>
    decide (Storable .postgres .postgres p (timingResult (.str "sta")))) (by decide +kernel)
  rw [hparse] at hparse'
  cases hparse'
  exact of_decide_eq_true hp

/-- **A set in the provenance**: `json.dumps` refuses it, and no decision is stored alike. -/
theorem set_not_same : ¬ SameDecision executingPy timingReport (timingResult (.object none none))
    "Object of type set is not JSON serializable" executedPath supervisedPath := by
  obtain ⟨p, hparse, hrefused⟩ := timing_parsed (P := fun p =>
    ((timingResult (.object none none)).provenance p).refused .postgres) (by decide +kernel)
  exact not_same_of_refused executedPath supervisedPath hparse (fun h => Bool.noConfusion (hrefused.symm.trans h.2))

end EdaLab
