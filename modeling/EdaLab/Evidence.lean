import EdaLab.AcceptedMetrics
import EdaLab.Finishing
/-!
# Evidence — no Run succeeds or is trusted without what shows it

The verdict columns of a Run are written by six paths of three parties, and a cancellation or a recovery may come between
any two of them.  Each write is `Evident`: it claims success or trust only together with a report that is not invalid and
with the exit code 0 of a process that was observed, and it leaves the verdict alone or writes all of it.  So every Run of
every reachable state is `Evident`.
-/
namespace EdaLab

open Relational

/-- The exit code on record in a provenance. -/
def Document.exitCode (d : Document) : Option PyObject := d.lookup "observed_process_exit_code"

/-- What the columns of a Run show where it succeeded, and where it is trusted. -/
structure RunRow.Evident (r : RunRow) : Prop where
  trusted : r.trustStatus = .trusted → r.parseStatus = .ok ∧ r.semanticStatus = .valid ∧ r.provenanceStatus = .valid ∧
    r.provenance.exitCode = some (.int 0)
  succeeded : r.status = .succeeded → r.parseStatus ≠ .invalid ∧ r.semanticStatus ≠ .invalid ∧
    r.provenance.exitCode = some (.int 0) ∧ r.artifactPath.isSome = true ∧
    (r.trustStatus = .trusted ↔ r.parseStatus = .ok ∧ r.semanticStatus = .valid ∧ r.provenanceStatus = .valid)

/-- The columns of the verdict. -/
structure RunFields.Verdict (f : RunFields) (p : ParseStatus) (v w : Validity) (d : Document) (t : TrustStatus) : Prop where
  parse : f.parseStatus = some p
  semantic : f.semanticStatus = some v
  provenance_status : f.provenanceStatus = some w
  provenance : f.provenance = some d
  trust : f.trustStatus = some t

/-- The columns of the verdict are left alone, but that trust may be withdrawn. -/
structure RunFields.Silent (f : RunFields) : Prop where
  parse : f.parseStatus = none
  semantic : f.semanticStatus = none
  provenance_status : f.provenanceStatus = none
  provenance : f.provenance = none
  trust : f.trustStatus ≠ some .trusted

/-- A write of a status that claims success or trust with their evidence only. -/
inductive RunFields.Evident (f : RunFields) : Prop
  | silent (silent : f.Silent) (st : RunStatus) (status_eq : f.status = some st) (not_succeeded : st ≠ .succeeded)
  | judged (p : ParseStatus) (v w : Validity) (d : Document) (t : TrustStatus) (verdict : f.Verdict p v w d t)
      (st : RunStatus) (status_eq : f.status = some st)
      (trusted : t = .trusted → p = .ok ∧ v = .valid ∧ w = .valid ∧ d.exitCode = some (.int 0))
      (succeeded : st = .succeeded → p ≠ .invalid ∧ v ≠ .invalid ∧ d.exitCode = some (.int 0) ∧
        (∃ path, f.artifactPath = some (some path)) ∧ (t = .trusted ↔ p = .ok ∧ v = .valid ∧ w = .valid))

theorem Document.exitCode_set (d : Document) (v : PyObject) :
    (d.set "observed_process_exit_code" v).exitCode = some v := by
  unfold Document.exitCode
  induction d with
  | nil => simp [Document.set]
  | cons p d ih =>
    obtain ⟨j, w⟩ := p
    by_cases hj : j = "observed_process_exit_code"
    · simp [Document.set, hj]
    · have hne : ("observed_process_exit_code" == j) = false := by simpa using Ne.symm hj
      simp only [Document.set, if_neg hj, List.lookup_cons, hne]
      exact ih

/-! ## One write -/

/-- **An evident write keeps a Run evident.** -/
theorem RunFields.Evident.write {f : RunFields} (hf : f.Evident) {r : RunRow} (hr : r.Evident) (now : Time) :
    (f.write now r).Evident := by
  cases hf with
  | silent hs st hst hne =>
    constructor
    · intro ht
      simp only [RunFields.write, hs.parse, hs.semantic, hs.provenance_status, hs.provenance, Option.getD_none] at ht ⊢
      apply hr.trusted
      cases htrust : f.trustStatus with
      | none => rwa [htrust] at ht
      | some t =>
        rw [htrust, Option.getD_some] at ht
        exact absurd (by rw [htrust, ht]) hs.trust
    · intro hst'
      simp only [RunFields.write, hst, Option.getD_some] at hst'
      exact absurd hst' hne
  | judged p v w d t hv st hst htrusted hsucceeded =>
    constructor
    · intro ht
      simp only [RunFields.write, hv.parse, hv.semantic, hv.provenance_status, hv.provenance, hv.trust,
        Option.getD_some] at ht ⊢
      exact htrusted ht
    · intro hst'
      simp only [RunFields.write, hv.parse, hv.semantic, hv.provenance_status, hv.provenance, hv.trust, hst,
        Option.getD_some] at hst' ⊢
      obtain ⟨hp, hs, hcode, ⟨path, hpath⟩, hiff⟩ := hsucceeded hst'
      exact ⟨hp, hs, hcode, by rw [hpath]; rfl, hiff⟩

/-- Trust needs an observed exit code 0 and the three verdicts. -/
theorem trustStatus_evidence {result : ParseResult} {code : Option Int} (h : trustStatus result code = .trusted) :
    code = some 0 ∧ result.parseStatus = .ok ∧ result.semanticStatus = .valid ∧ result.provenanceStatus = .valid := by
  unfold trustStatus at h
  split at h
  · cases h
  · split at h
    · cases h
    · rename_i n
      by_cases hn : n = 0
      · subst hn
        by_cases hp : result.provenanceStatus = .valid
        · by_cases ho : result.parseStatus = .ok ∧ result.semanticStatus = .valid
          · exact ⟨rfl, ho.1, ho.2, hp⟩
          · simp [hp, ho] at h
        · simp [hp] at h
      · simp [hn] at h

/-- And of a process that exited 0 it needs nothing else. -/
theorem trustStatus_zero {result : ParseResult} : trustStatus result (some 0) = .trusted ↔
    result.parseStatus = .ok ∧ result.semanticStatus = .valid ∧ result.provenanceStatus = .valid := by
  constructor
  · intro h
    exact (trustStatus_evidence h).2
  · rintro ⟨ho, hv, hw⟩
    simp [trustStatus, ho, hv, hw]

/-- A completion with the verdict of a report. -/
theorem evident_of_validation {c : Completion} {result : ParseResult} {code : Option Int} {provenance : Option Document}
    (hc : c.runFields = validationFields result code provenance)
    (hok : c.runStatus = .succeeded → result.parseStatus ≠ .invalid ∧ result.semanticStatus ≠ .invalid ∧ code = some 0 ∧
      ∃ path, c.artifactPath = some path) : c.fields.Evident := by
  have hcode : ∀ n : Int, code = some n → (((provenance.getD []).merge (result.provenance.getD [])).set
      "observed_process_exit_code" (code.elim .null .int)).exitCode = some (.int n) := by
    rintro n rfl
    exact Document.exitCode_set _ _
  refine .judged result.parseStatus result.semanticStatus result.provenanceStatus _ (trustStatus result code)
    ⟨by simp only [Completion.fields, hc, validationFields], by simp only [Completion.fields, hc, validationFields],
      by simp only [Completion.fields, hc, validationFields], by simp only [Completion.fields, hc, validationFields]; rfl,
      by simp only [Completion.fields, hc, validationFields]⟩ c.runStatus rfl ?_ ?_
  · intro ht
    obtain ⟨hzero, hp, hv, hw⟩ := trustStatus_evidence ht
    exact ⟨hp, hv, hw, hcode 0 hzero⟩
  · intro hst
    obtain ⟨hp, hv, hzero, path, hpath⟩ := hok hst
    refine ⟨hp, hv, hcode 0 hzero, ⟨path, ?_⟩, ?_⟩
    · simp only [Completion.fields, hc, validationFields, hpath]
      rfl
    · rw [hzero]
      exact trustStatus_zero

/-- A completion that says nothing of a report. -/
theorem evident_of_silent {c : Completion} (hc : c.runFields = {} ∨ c.runFields = { trustStatus := some .invalid })
    (hst : c.runStatus ≠ .succeeded) : c.fields.Evident := by
  refine .silent ?_ c.runStatus rfl hst
  rcases hc with hc | hc <;>
    exact ⟨by simp only [Completion.fields, hc], by simp only [Completion.fields, hc], by simp only [Completion.fields, hc],
      by simp only [Completion.fields, hc], by simp [Completion.fields, hc]⟩

/-! ## The completions -/

theorem executionError_evident {spec : JobSpec} {n : Nat} {t m : String} {c : Completion}
    (h : (executionError spec n t m).finishing = some c) : c.fields.Evident := by
  cases h
  exact evident_of_silent (Or.inl rfl) (fun h => by cases h)

theorem adapterRaised_evident {svc : Service} {spec : JobSpec} {n : Nat} {t : String} {e : AdapterError} {c : Completion}
    (h : (adapterRaised svc spec n t e).finishing = some c) : c.fields.Evident := by
  cases e with
  | cancelled m => cases h; exact evident_of_silent (Or.inr rfl) (fun h => by cases h)
  | timeout m =>
    simp only [adapterRaised] at h
    split at h
    · cases h
    · cases h
      exact evident_of_silent (Or.inr rfl) (fun h => by cases h)
  | connection m =>
    simp only [adapterRaised] at h
    split at h
    · cases h
    · cases h
      exact evident_of_silent (Or.inr rfl) (fun h => by cases h)
  | other m => exact executionError_evident h

theorem collectResult_evident {spec : JobSpec} {n : Nat} {t : String} {r : AdapterReturn} {c : Completion}
    (h : (collectResult spec n t r).finishing = some c) : c.fields.Evident := by
  unfold collectResult at h
  cases hparsed : r.parsed with
  | error m =>
    rw [hparsed] at h
    exact executionError_evident h
  | ok result =>
    rw [hparsed] at h
    have hfailed : ∀ k m, (failedResult spec n t r.artifact k m
        (validationFields result r.processExitCode r.executionProvenance)).fields.Evident :=
      fun k m => evident_of_validation rfl (fun h => by cases h)
    simp only at h
    split at h
    · cases h; exact hfailed _ _
    · rename_i hp
      split at h
      · cases h; exact hfailed _ _
      · rename_i hv
        split at h
        · cases h; exact hfailed _ _
        · rename_i code hcode
          split at h
          · cases h; exact hfailed _ _
          · rename_i hzero
            have hz : code = 0 := not_not.1 hzero
            cases h
            exact evident_of_validation rfl (fun _ => ⟨hp, hv, by rw [hcode, hz], r.artifact, rfl⟩)

theorem SupervisorPc.completion_evident (req : ExecutionRequestRow) (r : AdapterReturn) (parsed : ParseResult) :
    (SupervisorPc.completion req r parsed).fields.Evident := by
  unfold SupervisorPc.completion
  split
  · rename_i hok
    obtain ⟨hp, hv, hcode⟩ := hok
    exact evident_of_validation rfl
      (fun _ => ⟨by rw [hp]; decide, by rw [hv]; decide, hcode, r.artifact, rfl⟩)
  · exact evident_of_validation rfl (fun h => by cases h)

/-- **Every completion is evident.** -/
theorem Completion.Made.evident {c : Completion} (h : c.Made) : c.fields.Evident := by
  cases h with
  | failed spec n t m c h => exact executionError_evident h
  | raised svc spec n t e c h => exact adapterRaised_evident h
  | collected spec n t r c h => exact collectResult_evident h
  | supervised req r parsed => exact SupervisorPc.completion_evident req r parsed

/-! ## The calls -/

/-- What a call writes to a Run it has not claimed. -/
def StoreOp.Evident : StoreOp → Prop
  | .updateRun _ f            => f.Evident
  | .finalizeAttemptAndRun c  => c.fields.Evident
  | _                         => True

theorem Thread.op_evident {cfg : Config} {s : Sys} {locked : List String} {th : Thread} {op : StoreOp}
    (hm : ∀ c, th.finishing = some c → c.Made) (h : th.op cfg s locked = some op) : op.Evident := by
  cases op with
  | finalizeAttemptAndRun c =>
    obtain ⟨c₀, owner, hc, rfl⟩ := Thread.op_finalize h
    exact (hm c₀ hc).evident
  | updateRun j f =>
    cases Thread.op_cases h with
    -- a Run cancelled before its execution is trusted no more
    | cancel svc => exact .silent ⟨rfl, rfl, rfl, rfl, fun h => by cases h⟩ .cancelled rfl (fun h => by cases h)
    | exec svc spec pc _ hpc =>
      cases pc with
      | start => cases hpc; exact .silent ⟨rfl, rfl, rfl, rfl, fun h => by cases h⟩ .running rfl (fun h => by cases h)
      | _ => cases hpc
    | scan svc r _ _ _ hr =>
      cases RecoverPc.op_cases hr with
      | failNoAttempt sc run => exact .silent ⟨rfl, rfl, rfl, rfl, fun h => by cases h⟩ .failed rfl (fun h => by cases h)
    | submit svc spec pc _ hpc => cases pc <;> cases hpc
    | beat b pc _ hpc => cases pc <;> cases hpc
    | supervisor sup pc _ hpc => cases pc <;> cases hpc
  | _ => trivial

theorem finalizer_evident {now : Time} {db : Db} {op : StoreOp} {c : Finalizer} (he : op.Evident)
    (h : op.finalizer now db = some c) : c.fields.Evident := by
  cases op with
  | finalizeRecovery j n token et e =>
    cases h
    exact .silent ⟨rfl, rfl, rfl, rfl, fun h => by cases h⟩ .failed rfl (fun h => by cases h)
  | finalizeAttemptAndRun c => cases h; exact he
  | _ => cases h

theorem Store.newRun_evident (now : Time) (j d f g : String) (h : Option String) (p : Option JobSpec) :
    (Store.newRun now j d f g h p).Evident :=
  ⟨(fun ht => by cases ht), (fun hs => by cases hs)⟩

/-- **A call that writes evidently keeps the rows evident.** -/
theorem evident_after (b : Backend) (now : Time) {db : Db} {op : StoreOp} (ho : op.Evident)
    (hi : ∀ j r, db.runs.get j = some r → r.Evident) :
    ∀ j r, (op.after b now db).runs.get j = some r → r.Evident := by
  intro j r hr
  cases runs_after b now db op j with
  | same h => exact hi j r (by rw [← h, hr])
  | created d f g h m p _ _ hget _ =>
    rw [hget] at hr
    cases hr
    exact Store.newRun_evident now j d f g h _
  | updated fields r₀ hop hbefore hget =>
    rw [hget] at hr
    cases hr
    subst hop
    exact RunFields.Evident.write ho (hi j r₀ hbefore) now
  | claimed locked r₀ _ _ hbefore _ hget _ =>
    rw [hget] at hr
    cases hr
    exact RunFields.Evident.write
      (.silent ⟨rfl, rfl, rfl, rfl, fun h => by cases h⟩ .running rfl (fun h => by cases h)) (hi j r₀ hbefore) now
  | closed c r₀ hop _ _ hbefore _ hget _ =>
    rw [hget] at hr
    cases hr
    exact (finalizer_evident ho hop).write (hi j r₀ hbefore) now

/-! ## The runs -/

structure EvidentInv (s : Sys) : Prop where
  finishing : FinishingMade s
  rows : ∀ j r, s.db.runs.get j = some r → r.Evident

theorem evidentInv_init : EvidentInv Sys.init :=
  ⟨finishing_made_init, fun j r h => by cases h⟩

theorem evidentInv_step {cfg : Config} {s s' : Sys} {a : Act} (hi : EvidentInv s) (h : Sys.step cfg s a = some s') :
    EvidentInv s' := by
  refine ⟨finishing_made_step hi.finishing h, ?_⟩
  rcases Sys.step_db h with hdb | ⟨i, fresh, locked, op, -, hc⟩
  · rw [hdb]
    exact hi.rows
  · rw [hc.db_eq]
    exact evident_after cfg.backend s.clock (Thread.op_evident (hi.finishing i) hc.is_op) hi.rows

/-- **In every reachable state a Run that succeeded shows a report that is not invalid, an artifact and the exit code 0 on
record, and is trusted exactly when the report parsed, was valid and agreed with its provenance; and no Run, whatever its
status, is trusted without them.** -/
theorem run_shows_its_evidence (cfg : Config) {acts : List Act} {s : Sys}
    (hrun : Trace.run (Sys.step cfg) Sys.init acts = some s) {j : String} {r : RunRow} (hr : s.db.runs.get j = some r) :
    r.Evident :=
  (Trace.run_preserves (fun _ _ _ hi h => evidentInv_step hi h) evidentInv_init hrun).rows j r hr

/-- The Run a supervisor made `SUCCEEDED` shows its evidence, and is not trusted where the report carries none. -/
theorem supervised_success_shows :
    ((Trace.run (Sys.step supervisedConfig) Sys.init Reported.deliveredActs).bind (fun s => s.db.runs.get "job")).any
        (fun r => r.status = .succeeded) = true ∧
    ∀ s r, Trace.run (Sys.step supervisedConfig) Sys.init Reported.deliveredActs = some s →
      s.db.runs.get "job" = some r → r.Evident :=
  ⟨by decide +kernel, fun _ _ hrun hr => run_shows_its_evidence supervisedConfig hrun hr⟩

end EdaLab
