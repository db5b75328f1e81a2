import EdaLab.SystemSpec
/-!
# Queue — a Run leaves the queue once

No party restores `QUEUED`, and every party that works on a Run knows it from a claim or from a scan of `RUNNING` Runs.  So
a Run that has left the queue stays out of it (`Db.moved`), and the Runs a thread holds in its local variables have left it
(`Thread.known`).
-/
namespace EdaLab

open Relational

/-! ## Well-formed threads -/

/-- A completion of the job with terminal states. -/
def Completion.Closes (c : Completion) (j : String) : Prop :=
  c.jobId = j ∧ c.attemptStatus ≠ .running ∧ c.runStatus.isTerminal = true

/-- Attempts count from one, a lease token is not empty, and a completion is of the job. -/
def ExecPc.Wf (spec : JobSpec) : ExecPc → Prop
  | .record n     => 1 ≤ n
  | .acquire _ t  => t ≠ ""
  | .finalize c _ => c.Closes spec.jobId
  | _             => True

def SupervisorPc.Wf : SupervisorPc → Prop
  | .finalize req c => c.Closes req.jobId
  | _               => True

def Thread.Wf (cfg : Config) : Thread → Prop
  | .submit svc _ .dispatch => (cfg.service svc).executionMode = .local
  | .exec _ spec pc         => pc.Wf spec
  | .supervisor _ pc        => pc.Wf
  | _                       => True

/-! ## Where a reply takes an execution -/

theorem executionError_closes (spec : JobSpec) (n : Nat) (t m : String) :
    ∃ c, executionError spec n t m = .finalize c .handler ∧ c.Closes spec.jobId ∧ c.attemptNo = n :=
  ⟨_, rfl, ⟨rfl, (by intro h; cases h), rfl⟩, rfl⟩

/-- An exception of the adapter ends in a retry or in a completion of the Attempt. -/
theorem adapterRaised_cases (svc : Service) (spec : JobSpec) (n : Nat) (t : String) (e : AdapterError) :
    (∃ k m, adapterRaised svc spec n t e = .transition n t k m) ∨
    ∃ c, adapterRaised svc spec n t e = .finalize c .handler ∧ c.Closes spec.jobId ∧ c.attemptNo = n := by
  cases e with
  | cancelled m => exact Or.inr ⟨_, rfl, ⟨rfl, (by intro h; cases h), rfl⟩, rfl⟩
  | timeout m =>
    simp only [adapterRaised]
    split
    · exact Or.inl ⟨_, _, rfl⟩
    · exact Or.inr ⟨_, rfl, ⟨rfl, (by intro h; cases h), rfl⟩, rfl⟩
  | connection m =>
    simp only [adapterRaised]
    split
    · exact Or.inl ⟨_, _, rfl⟩
    · exact Or.inr ⟨_, rfl, ⟨rfl, (by intro h; cases h), rfl⟩, rfl⟩
  | other m => exact Or.inr (executionError_closes spec n t m)

/-- A collected result ends in a completion of the Attempt. -/
theorem collectResult_closes (spec : JobSpec) (n : Nat) (t : String) (r : AdapterReturn) :
    ∃ c scope, collectResult spec n t r = .finalize c scope ∧ c.Closes spec.jobId ∧ c.attemptNo = n := by
  have hfailed : ∀ k m f, (failedResult spec n t r.artifact k m f).Closes spec.jobId := fun k m f =>
    ⟨rfl, (by intro h; cases h), rfl⟩
  unfold collectResult
  cases r.parsed with
  | error m =>
    obtain ⟨c, hc⟩ := executionError_closes spec n t m
    exact ⟨c, .handler, hc⟩
  | ok result =>
    simp only
    split
    · exact ⟨_, _, rfl, hfailed _ _ _, rfl⟩
    · split
      · exact ⟨_, _, rfl, hfailed _ _ _, rfl⟩
      · split
        · exact ⟨_, _, rfl, hfailed _ _ _, rfl⟩
        · split
          · exact ⟨_, _, rfl, hfailed _ _ _, rfl⟩
          · exact ⟨_, _, rfl, ⟨rfl, (by intro h; cases h), rfl⟩, rfl⟩

/-- What a reply can do to an execution. -/
inductive ExecPc.Resumed (svc : Service) (spec : JobSpec) (owner : Option ExecutionOwner) (fresh : String)
    (reply : Reply) : ExecPc → ExecPc → Prop
  | begun : Resumed svc spec owner fresh reply .start (.record 1)
  | unattempted : Resumed svc spec owner fresh reply .start .returned
  | recorded (n : Nat) : Resumed svc spec owner fresh reply (.record n) (.acquire n fresh)
  | unrecorded (n : Nat) (replied : reply ≠ .unit) : Resumed svc spec owner fresh reply (.record n) .raised
  | owned (n : Nat) (t : String) (o : ExecutionOwner) (is_owner : owner = some o) :
    Resumed svc spec owner fresh reply (.acquire n t) (.register n t fresh o)
  | leased (n : Nat) (t : String) (mode : svc.executionMode ≠ .supervised) :
    Resumed svc spec owner fresh reply (.acquire n t) (.launch n t)
  | unleased (n : Nat) (t : String) (c : Completion) (closes : c.Closes spec.jobId) (number : c.attemptNo = n) :
    Resumed svc spec owner fresh reply (.acquire n t) (.finalize c .handler)
  | registered (n : Nat) (t e : String) (o : ExecutionOwner) (mode : svc.executionMode ≠ .supervised) :
    Resumed svc spec owner fresh reply (.register n t e o) (.launch n t)
  | delivering (n : Nat) (t e : String) (o : ExecutionOwner) (mode : svc.executionMode = .supervised) :
    Resumed svc spec owner fresh reply (.register n t e o) (.enqueue n t e o)
  | unregistered (n : Nat) (t e : String) (o : ExecutionOwner) (c : Completion) (closes : c.Closes spec.jobId)
      (number : c.attemptNo = n) : Resumed svc spec owner fresh reply (.register n t e o) (.finalize c .handler)
  | enqueued (n : Nat) (t e : String) (o : ExecutionOwner) :
    Resumed svc spec owner fresh reply (.enqueue n t e o) .returned
  | unenqueued (n : Nat) (t e : String) (o : ExecutionOwner) (c : Completion) (closes : c.Closes spec.jobId)
      (number : c.attemptNo = n) : Resumed svc spec owner fresh reply (.enqueue n t e o) (.finalize c .handler)
  | observed (n : Nat) (t : String) (o : Observation) :
    Resumed svc spec owner fresh reply (.observe n t o) (.adapter n t)
  | collected (n : Nat) (t : String) (r : AdapterReturn) (c : Completion) (scope : Scope)
      (closes : c.Closes spec.jobId) (number : c.attemptNo = n) :
    Resumed svc spec owner fresh reply (.collect n t r) (.finalize c scope)
  | settled (c : Completion) (scope : Scope) : Resumed svc spec owner fresh reply (.finalize c scope) .returned
  | measured (c : Completion) (scope : Scope) (payload : Document) :
    Resumed svc spec owner fresh reply (.finalize c scope) (.metrics c.token payload)
  | refused (c c' : Completion) (scope : Scope) (closes : c'.Closes spec.jobId) (number : c'.attemptNo = c.attemptNo) :
    Resumed svc spec owner fresh reply (.finalize c scope) (.finalize c' .handler)
  | unsettled (c : Completion) (scope : Scope) : Resumed svc spec owner fresh reply (.finalize c scope) .raised
  | retried (n : Nat) (t k m : String) (replied : reply = .flag true) :
    Resumed svc spec owner fresh reply (.transition n t k m) (.record (n + 1))
  | unretried (n : Nat) (t k m : String) (replied : reply ≠ .flag true) :
    Resumed svc spec owner fresh reply (.transition n t k m) .raised
  | saved (t : String) (payload : Document) : Resumed svc spec owner fresh reply (.metrics t payload) .returned
  | idle (pc : ExecPc) (silent : pc.op svc spec owner = none) : Resumed svc spec owner fresh reply pc pc

theorem ExecPc.resume_cases (svc : Service) (spec : JobSpec) (owner : Option ExecutionOwner) (fresh : String)
    (reply : Reply) (pc : ExecPc) : Resumed svc spec owner fresh reply pc (pc.resume svc spec owner fresh reply) := by
  -- the handler's completion after a refused call
  have herror : ∀ n t m pc, (∀ c : Completion, c.Closes spec.jobId → c.attemptNo = n →
      Resumed svc spec owner fresh reply pc (.finalize c .handler)) →
      Resumed svc spec owner fresh reply pc (executionError spec n t m) := by
    intro n t m pc hpc
    obtain ⟨c, hc, hcloses, hn⟩ := executionError_closes spec n t m
    rw [hc]
    exact hpc c hcloses hn
  cases pc with
  | start =>
    simp only [resume]
    split
    · exact .begun
    · exact .unattempted
  | record n =>
    cases reply with
    | unit => exact .recorded n
    | _ => exact .unrecorded n (by simp)
  | acquire n t =>
    simp only [resume]
    split
    · unfold afterAcquire
      split
      · exact .owned n t _ rfl
      · split
        · exact herror n t _ _ (fun c hc hn => .unleased n t c hc hn)
        · rename_i hmode
          exact .leased n t hmode
    · exact herror n t _ _ (fun c hc hn => .unleased n t c hc hn)
  | register n t e o =>
    simp only [resume]
    split
    · split
      · rename_i hmode
        exact .delivering n t e o hmode
      · rename_i hmode
        exact .registered n t e o hmode
    · exact herror n t _ _ (fun c hc hn => .unregistered n t e o c hc hn)
  | enqueue n t e o =>
    simp only [resume]
    split
    · exact .enqueued n t e o
    · exact herror n t _ _ (fun c hc hn => .unenqueued n t e o c hc hn)
  | observe n t o => exact .observed n t o
  | collect n t r =>
    simp only [resume]
    split
    · obtain ⟨c, scope, hc, hcloses, hn⟩ := collectResult_closes spec n t r
      rw [hc]
      exact .collected n t r c scope hcloses hn
    · exact herror n t _ _ (fun c hc hn => .collected n t r c .handler hc hn)
  | finalize c scope =>
    cases scope with
    | body payload =>
      simp only [resume]
      split
      · split
        · exact .settled c _
        · exact .measured c _ payload
      · exact herror c.attemptNo c.token _ _ (fun c' hc' hn => .refused c c' _ hc' hn)
    | handler =>
      simp only [resume]
      split
      · exact .settled c _
      · exact .unsettled c _
  | transition n t k m =>
    simp only [resume]
    split
    · rename_i hreply
      exact .retried n t k m hreply
    · rename_i hreply
      exact .unretried n t k m hreply
  | metrics t payload => exact .saved t payload
  | _ => exact .idle _ rfl

theorem ExecPc.resume_wf (svc : Service) (spec : JobSpec) (owner : Option ExecutionOwner) {fresh : String} (reply : Reply)
    (hfresh : fresh ≠ "") {pc : ExecPc} (h : pc.Wf spec) : (pc.resume svc spec owner fresh reply).Wf spec := by
  have hcases := pc.resume_cases svc spec owner fresh reply
  generalize pc.resume svc spec owner fresh reply = pc' at hcases ⊢
  cases hcases with
  | begun => exact le_refl 1
  | recorded n => exact hfresh
  | unleased n t c hc _ => exact hc
  | unregistered n t e o c hc _ => exact hc
  | unenqueued n t e o c hc _ => exact hc
  | collected n t r c scope hc _ => exact hc
  | refused c c' scope hc _ => exact hc
  | retried n t k m _ => exact Nat.succ_le_succ (Nat.zero_le n)
  | idle _ _ => exact h
  | _ => trivial

theorem ExecPc.Advance.wf {svc : Service} {spec : JobSpec} {births : Nat} {pc pc' : ExecPc} {eff : Effect}
    (h : ExecPc.Advance svc spec births pc pc' eff) : pc'.Wf spec := by
  cases h with
  | raised n t e =>
    rcases adapterRaised_cases svc spec n t e with ⟨k, m, heq⟩ | ⟨c, heq, hc, -⟩
    · rw [heq]
      trivial
    · rw [heq]
      exact hc
  | _ => trivial

theorem SupervisorPc.resume_wf (reply : Reply) {pc : SupervisorPc} (h : pc.Wf) : (pc.resume reply).Wf := by
  cases pc with
  | claim => simp only [resume]; split <;> trivial
  | started req pid => simp only [resume]; split <;> trivial
  | witness req w result =>
    cases result with
    | none => trivial
    | some r =>
      simp only [resume]
      split
      · rename_i parsed _
        unfold completion
        split
        · exact ⟨rfl, (by intro h; cases h), rfl⟩
        · exact ⟨rfl, (by intro h; cases h), rfl⟩
      · trivial
  | finalize req c => simp only [resume]; split <;> trivial
  | _ => exact h

theorem SupervisorPc.Advance.wf {pc pc' : SupervisorPc} {eff : Effect} (h : SupervisorPc.Advance pc pc' eff) :
    pc'.Wf := by
  cases h <;> trivial

theorem Thread.resume_wf {cfg : Config} (s : Sys) {fresh : String} (reply : Reply) (hfresh : fresh ≠ "") {th : Thread}
    (h : th.Wf cfg) : (th.resume cfg s fresh reply).Wf cfg := by
  cases th with
  | submit svc spec pc =>
    cases pc with
    | lookup =>
      simp only [Thread.resume, SubmitPc.resume]
      split
      · unfold SubmitPc.existing
        split <;> trivial
      · trivial
    | create =>
      simp only [Thread.resume, SubmitPc.resume]
      split
      · split
        · assumption
        · trivial
      · trivial
      · trivial
    | reread =>
      simp only [Thread.resume, SubmitPc.resume]
      split
      · unfold SubmitPc.existing
        split <;> trivial
      · trivial
    | readback =>
      simp only [Thread.resume, SubmitPc.resume]
      split <;> trivial
    | _ => exact h
  | exec svc spec pc => exact ExecPc.resume_wf _ _ _ _ hfresh h
  | supervisor sup pc => exact SupervisorPc.resume_wf _ h
  | _ => trivial

theorem Thread.advance_wf {cfg : Config} {s : Sys} {th th' : Thread} {k : Nat} {fresh : String} {inp : Input}
    {eff : Effect} (h : th.advance cfg s k fresh inp = some (th', eff)) : th'.Wf cfg := by
  cases th with
  | none => cases h
  | submit svc spec pc =>
    obtain ⟨⟨pc', eff⟩, hx, hx'⟩ := Option.map_eq_some_iff.1 h
    cases hx'
    cases pc with
    | limit =>
      simp only [SubmitPc.advance] at hx
      split at hx
      · cases hx; trivial
      · split at hx <;> cases hx <;> trivial
    | dispatch => cases hx; trivial
    | _ => cases hx
  | exec svc spec pc =>
    obtain ⟨⟨pc', eff⟩, hx, hx'⟩ := Option.map_eq_some_iff.1 h
    cases hx'
    exact (ExecPc.advance_cases hx).wf
  | supervisor sup pc =>
    obtain ⟨⟨pc', eff⟩, hx, hx'⟩ := Option.map_eq_some_iff.1 h
    cases hx'
    exact (SupervisorPc.advance_cases hx).wf
  | _ =>
    obtain ⟨x, hx, hx'⟩ := Option.map_eq_some_iff.1 h
    cases hx'
    trivial

theorem Thread.entry_wf {cfg : Config} {th : Thread} (h : th.isEntry = true) : th.Wf cfg := by
  cases th with
  | submit svc spec pc =>
    cases pc with
    | dispatch => cases h
    | _ => trivial
  | exec svc spec pc => cases h
  | supervisor sup pc =>
    cases pc with
    | finalize req c => cases h
    | _ => trivial
  | _ => trivial

theorem Sys.isFresh_ne {s : Sys} {fresh : String} (h : s.isFresh fresh = true) : fresh ≠ "" := by
  simp only [Sys.isFresh, Bool.and_eq_true, decide_eq_true_eq] at h
  exact h.1

/-- **Every thread is well formed.** -/
theorem threads_wf_step {cfg : Config} {s s' : Sys} {a : Act} (hi : ∀ q, (s.threads q).Wf cfg)
    (h : Sys.step cfg s a = some s') : ∀ q, (s'.threads q).Wf cfg := by
  intro q
  cases thread_after q h with
  | same heq => rw [heq]; exact hi q
  | entered th _ _ hentry heq => rw [heq]; exact Thread.entry_wf hentry
  | called fresh locked op _ hc heq => rw [heq]; exact Thread.resume_wf s _ (Sys.isFresh_ne hc.is_fresh) (hi q)
  | advanced k fresh inp th eff _ hadv heq => rw [heq]; exact Thread.advance_wf hadv.advance_eq
  | executed i fresh inp th spec svc _ _ _ _ heq _ => rw [heq]; trivial
  | beat i fresh inp th b run _ _ _ _ heq => rw [heq]; trivial
  | cancelled svc spec _ heq => rw [heq]; trivial

/-! ## Calls that keep the queue -/

/-- A call as the parties make it: what it writes as a status, and the spec it submits a Run with. -/
def StoreOp.Wf : StoreOp → Prop
  | .createRun j _ _ _ _ _ p                 => ∀ spec, p = some spec → spec.jobId = j
  | .updateRun _ f                           => f.status ≠ some .queued
  | .recordAttempt _ _ st _ _ _ _            => st = .running
  | .transitionAttempt _ _ _ st _ _ _ _      => st = .retryableFailure
  | .finalizeAttemptAndRun c                 => c.attemptStatus ≠ .running ∧ c.runStatus.isTerminal = true
  | _                                        => True

/-- **What a well-formed thread calls is well formed.** -/
theorem Thread.Wf.op_wf {cfg : Config} {s : Sys} {locked : List String} {th : Thread} {op : StoreOp} (hw : th.Wf cfg)
    (h : th.op cfg s locked = some op) : op.Wf := by
  cases Thread.op_cases h with
  | submit svc spec pc _ hpc =>
    cases pc with
    | create => cases hpc; rintro spec' hspec; cases hspec; rfl
    | _ => cases hpc <;> trivial
  | cancel svc j => intro hq; cases hq
  | exec svc spec pc _ hpc =>
    cases pc with
    | start => cases hpc; intro hq; cases hq
    | record n => cases hpc; rfl
    | transition n t k m => cases hpc; rfl
    | finalize c sc => cases hpc; exact hw.2
    | _ => cases hpc <;> trivial
  | beat b pc _ hpc => cases pc <;> cases hpc <;> trivial
  | scan svc r _ _ _ hr =>
    cases RecoverPc.op_cases hr with
    | failNoAttempt sc run => intro hq; cases hq
    | _ => trivial
  | supervisor sup pc _ hpc =>
    cases pc with
    | finalize req c => cases hpc; exact hw.2
    | _ => cases hpc <;> trivial
  | _ => trivial

/-! ## Runs that have left the queue -/

/-- The Run is there and not `QUEUED`. -/
def Db.moved (db : Db) (j : String) : Prop := ∃ r, db.runs.get j = some r ∧ r.status ≠ .queued

theorem finalizer_fields {now : Time} {db : Db} {op : StoreOp} {c : Finalizer} (hw : op.Wf)
    (h : op.finalizer now db = some c) : ∃ st, c.fields.status = some st ∧ st.isTerminal = true := by
  cases op with
  | finalizeRecovery j n token et e => cases h; exact ⟨.failed, rfl, rfl⟩
  | finalizeAttemptAndRun c => cases h; exact ⟨c.runStatus, rfl, hw.2⟩
  | _ => cases h

/-- **No call of a party puts a Run back into the queue.** -/
theorem moved_after (b : Backend) (now : Time) {db : Db} {op : StoreOp} {j : String} (hw : op.Wf) (hm : db.moved j) :
    (op.after b now db).moved j := by
  obtain ⟨r, hr, hq⟩ := hm
  cases runs_after b now db op j with
  | same h => exact ⟨r, by rw [h, hr], hq⟩
  | created _ _ _ _ _ _ _ hn => rw [hr] at hn; cases hn
  | updated fields r' hop hr' hget =>
    rw [hr] at hr'
    cases hr'
    subst hop
    refine ⟨_, hget, ?_⟩
    cases hf : fields.status with
    | none => simpa [RunFields.write, hf] using hq
    | some st =>
      have hst : fields.status ≠ some .queued := hw
      rw [hf] at hst
      simpa [RunFields.write, hf] using hst
  | claimed locked r' _ _ hr' hqueued =>
    rw [hr] at hr'
    cases hr'
    exact absurd hqueued hq
  | closed c r' hop _ _ hr' _ hget =>
    rw [hr] at hr'
    cases hr'
    obtain ⟨st, hst, hterm⟩ := finalizer_fields hw hop
    refine ⟨_, hget, ?_⟩
    intro h
    simp only [RunFields.write, hst, Option.getD_some] at h
    rw [h] at hterm
    cases hterm

/-- The spec a Run was submitted with is of its job. -/
def Db.specsMatch (db : Db) : Prop :=
  ∀ j r spec, db.runs.get j = some r → r.specPayload = some spec → spec.jobId = j

theorem specsMatch_after (b : Backend) (now : Time) {db : Db} {op : StoreOp} (hw : op.Wf) (hm : db.specsMatch) :
    (op.after b now db).specsMatch := by
  intro j r spec hr hspec
  cases runs_after b now db op j with
  | same h => rw [h] at hr; exact hm j r spec hr hspec
  | created d f g h m p hop _ hget _ =>
    subst hop
    rw [hget] at hr
    cases hr
    cases b with
    | sqlite => cases hspec
    | postgres => exact hw spec hspec
  | updated fields r' _ hr' hget =>
    rw [hget] at hr
    cases hr
    exact hm j r' spec hr' hspec
  | claimed locked r' _ _ hr' _ hget =>
    rw [hget] at hr
    cases hr
    exact hm j r' spec hr' hspec
  | closed c r' _ _ _ hr' _ hget =>
    rw [hget] at hr
    cases hr
    exact hm j r' spec hr' hspec

end EdaLab
