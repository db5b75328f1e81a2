import EdaLab.Queue
import EdaLab.Subprocess
import EdaLab.Trace
/-!
# Cancellation — `JobService.cancel` against `_execute` on an `OpenStaSubprocessAdapter`

One `_execute`, the adapter's call that it is in and the `cancel` calls of its service run as one; between two of their
steps any other party calls the store.  An Attempt of the job and the success of its Run are for this execution alone to
write, so the others' calls are those that do neither (`StoreOp.foreign`).  An accepted cancel is final where no
`TimeoutError` of the child overtakes it, or there is no Attempt left to retry with.
-/
namespace EdaLab

def StoreOp.recordsAttempt (j : String) : StoreOp → Bool
  | .recordAttempt i _ _ _ _ _ _ => decide (i = j)
  | _                            => false

def StoreOp.writesSuccess (j : String) : StoreOp → Bool
  | .updateRun i fields      => decide (i = j ∧ fields.status = some .succeeded)
  | .finalizeAttemptAndRun c => decide (c.jobId = j ∧ c.runStatus = .succeeded)
  | _                        => false

/-- The call records no Attempt of the job and no success of its Run. -/
def StoreOp.foreign (j : String) (op : StoreOp) : Bool := !op.recordsAttempt j && !op.writesSuccess j

structure Cancellation where
  db       : Db
  pc       : ExecPc := .pending
  call     : AdapterCall := {}
  cancel   : CancelPc := .lookup
  /-- A `cancel` has returned `True`. -/
  accepted : Bool := false

inductive CancellationAct
  | other (now : Time) (op : StoreOp)
  /-- `_execute`'s own store call; `fresh` is the `uuid4` it may draw. -/
  | call (now : Time) (fresh : String)
  /-- A step of `_execute` that calls no store. -/
  | advance (clock : Time) (observed : Nat → Option (Nat × Option String)) (inp : Input)
  | run (inp : RunInput)
  | exit (code : Int)
  /-- `JobService.cancel` is called, once the last call is over: it runs under the service's lock. -/
  | cancelCall
  | cancel (polled permitted : Bool)
  | cancelWrite (now : Time)

namespace Cancellation

variable (b : Backend) (svc : Service) (owner : Option ExecutionOwner) (spec : JobSpec) (a : OpenStaSubprocessAdapter)
  (s : Cancellation)

def future : FutureState :=
  match s.pc with
  | .pending | .cancelled => .cancellable
  | pc                    => if pc.done then .done else .running

/-- `future.cancel()` where it is `True`. -/
def cancelFuture : ExecPc :=
  match s.pc with
  | .pending => .cancelled
  | pc       => pc

/-- The adapter's call after a store call of the execution. -/
def notified : AdapterCall :=
  match s.pc with
  | .observe _ _ _ => s.call.notified true
  | _              => s.call

def entered (eff : Effect) : AdapterCall :=
  match eff with
  | .adapterRun => s.call.enter
  | _           => s.call

/-- A step of `adapter.run`. -/
def runAdapter (inp : RunInput) : Option Cancellation :=
  match s.pc, a.advance inp s.call with
  | .adapter _ _, some (call, none)   => some { s with call := call }
  | .adapter n t, some (call, some i) =>
    ((ExecPc.adapter n t).advance svc spec 0 (fun _ => none) call.spawned i).map
      (fun x => { s with pc := x.1, call := call })
  | _, _ => none

/-- The lookup of `cancel`, and the adapter's answer. -/
def lookup (polled permitted : Bool) : Option Cancellation :=
  match s.cancel, s.future with
  | .lookup, .cancellable =>
    (s.cancel.advance spec.jobId .cancellable .go).map (fun x => { s with cancel := x.1, pc := s.cancelFuture })
  | .lookup, future =>
    match s.call.cancel polled permitted with
    | (call, some answer) =>
      (s.cancel.advance spec.jobId future (.signal answer)).map
        (fun x => { s with cancel := x.1, call := call, accepted := s.accepted || answer })
    -- the signal was refused: the call raised
    | (call, none)        => some { s with call := call }
  | _, _ => none

def step : CancellationAct → Option Cancellation
  | .other now op => if op.foreign spec.jobId then some { s with db := op.after b now s.db } else none
  | .call now fresh =>
    (s.pc.op svc spec owner).map (fun op =>
      { s with
        db   := op.after b now s.db
        pc   := s.pc.resume svc spec owner fresh (op.reply b now s.db)
        call := s.notified })
  | .advance clock observed inp =>
    match s.pc with
    | .adapter _ _ => none
    | pc           =>
      (pc.advance svc spec clock observed s.call.spawned inp).map (fun x => { s with pc := x.1, call := s.entered x.2 })
  | .run inp => s.runAdapter svc spec a inp
  | .exit code => (s.call.exit code).map (fun call => { s with call := call })
  | .cancelCall =>
    match s.cancel with
    | .write => none
    | _      => some { s with cancel := .lookup }
  | .cancel polled permitted => s.lookup spec polled permitted
  | .cancelWrite now =>
    (s.cancel.op spec.jobId).map (fun op =>
      { s with db := op.after b now s.db, cancel := s.cancel.resume, accepted := true })

/-- `TimeoutError` is about to be raised, and there is an Attempt left to retry with. -/
def retries : Bool :=
  match s.pc, s.call.pc with
  | .adapter n _, .timedOut _ => decide (n < svc.maxAttempts)
  | _, _                      => false

/-- The step answers an accepted cancel with a `TimeoutError` that `_execute` retries. -/
def overtakes : CancellationAct → Bool
  | .run .ok => s.accepted && s.retries svc
  | _        => false

end Cancellation

/-! ## What the store keeps -/

/-- The Run, where there is one, has not succeeded. -/
def Db.unsucceeded (db : Db) (j : String) : Prop := ∀ r, db.runs.get j = some r → r.status ≠ .succeeded

section Store

variable {b : Backend} {now : Time} {db : Db} {op : StoreOp} {j : String}

theorem unsucceeded_after (hop : op.writesSuccess j = false) (h : db.unsucceeded j) : (op.after b now db).unsucceeded j := by
  intro r hr
  cases runs_after b now db op j with
  | same hget => exact h r (by rw [← hget, hr])
  | created d f g hash m p hop' hnone hget _ =>
    rw [hget] at hr
    cases hr
    exact RunStatus.noConfusion
  | updated fields r' hop' hget' hget =>
    subst hop'
    rw [hget] at hr
    cases hr
    simp only [StoreOp.writesSuccess, true_and, decide_eq_false_iff_not] at hop
    have hold := h r' hget'
    cases hst : fields.status with
    | none => simpa [RunFields.write, hst] using hold
    | some st =>
      rw [hst] at hop
      simp only [RunFields.write, hst, Option.getD_some]
      exact fun heq => hop (by rw [heq])
  | claimed locked r' _ _ _ _ hget _ =>
    rw [hget] at hr
    cases hr
    exact RunStatus.noConfusion
  | closed c r' hfin hjob _ _ _ hget _ =>
    rw [hget] at hr
    cases hr
    cases op with
    | finalizeRecovery i n token et e =>
      cases hfin
      exact RunStatus.noConfusion
    | finalizeAttemptAndRun c =>
      cases hfin
      have hne : c.runStatus ≠ .succeeded := by
        intro heq
        exact absurd hop (by simp [StoreOp.writesSuccess, show c.jobId = j from hjob, heq])
      exact hne
    | _ => cases hfin

/-- A completion that is refused leaves the Run. -/
theorem unsucceeded_of_refused {c : Completion}
    (hreply : (StoreOp.finalizeAttemptAndRun c).reply b now db ≠ .flag true) (h : db.unsucceeded j) :
    ((StoreOp.finalizeAttemptAndRun c).after b now db).unsucceeded j := by
  intro r hr
  cases runs_after b now db (.finalizeAttemptAndRun c) j with
  | same hget => exact h r (by rw [← hget, hr])
  | created d f g hash m p hop' _ _ _ => cases hop'
  | updated fields r' hop' _ _ => cases hop'
  | claimed locked r' hop' _ _ _ _ _ => cases hop'
  | closed _ _ _ _ _ _ _ _ hflag => exact absurd hflag hreply

/-- `update_run` with a status. -/
theorem unsucceeded_of_updateRun {fields : RunFields} {st : RunStatus} (hst : fields.status = some st)
    (hne : st ≠ .succeeded) : ((StoreOp.updateRun j fields).after b now db).unsucceeded j := by
  intro r hr
  have hfields : fields ≠ {} := by
    rintro rfl
    cases hst
  simp only [StoreOp.after, StoreOp.exec, Store.updateRun, if_neg hfields, Db.get_updateRuns, true_and] at hr
  obtain ⟨r', _, rfl⟩ := Option.map_eq_some_iff.1 hr
  simpa [RunFields.write, hst] using hne

/-- Only `record_attempt` makes an Attempt. -/
theorem attempts_after_none {n : Nat} (hop : op.recordsAttempt j = false) (h : db.attempts.get (j, n) = none) :
    (op.after b now db).attempts.get (j, n) = none := by
  cases attempts_after b now db op (j, n) with
  | same hget => rw [hget, h]
  | recorded st et e ap rc hop' _ _ =>
    subst hop'
    simp [StoreOp.recordsAttempt] at hop
  | updated u row _ _ hget _ _ _ =>
    rw [h] at hget
    cases hget
  | renewed s ttl row _ hget _ _ =>
    rw [h] at hget
    cases hget

end Store

/-! ## The adapter's call after an accepted cancel -/

/-- The call will end by raising. -/
def AdapterCall.Sealed (c : AdapterCall) : Prop :=
  match c.pc with
  | .communicate | .unregister | .collect                          => c.cancelled = true
  | .terminate | .grace | .kill | .wait | .timedOut _ | .cancelled => True
  | _                                                              => False

/-- The error ends the execution; a timeout only at the `last` Attempt. -/
def AdapterError.Ends (last : Prop) : AdapterError → Prop
  | .cancelled _ | .other _ => True
  | .timeout _              => last
  | .connection _           => False

namespace AdapterCall

variable {a : OpenStaSubprocessAdapter} {c c' : AdapterCall} {inp : RunInput} {i : Option Input} {last : Prop}

/-- What a step of a sealed call leaves. -/
def SealedStep (last : Prop) (c c' : AdapterCall) (i : Option Input) : Prop :=
  c'.spawned = c.spawned ∧ ((i = none ∧ c'.Sealed) ∨ ∃ e, i = some (.raised e) ∧ e.Ends last)

theorem throw_sealed {e : AdapterError} (h : c.throw e = some (c', i)) (he : e.Ends last) : SealedStep last c c' i := by
  cases h
  exact ⟨rfl, Or.inr ⟨e, rfl, he⟩⟩

theorem moveTo_sealed {pc : AdapterPc} (h : c.moveTo pc = some (c', i))
    (hpc : ({ c with pc := pc } : AdapterCall).Sealed) : SealedStep last c c' i := by
  cases h
  exact ⟨rfl, Or.inl ⟨rfl, hpc⟩⟩

theorem waited_throw_sealed {e : AdapterError} (h : c.waited.bind (·.throw e) = some (c', i)) (he : e.Ends last) :
    SealedStep last c c' i := by
  obtain ⟨p, _, h⟩ := waited_bind h
  cases h
  exact ⟨rfl, Or.inr ⟨e, rfl, he⟩⟩

theorem waited_moveTo_sealed {pc : AdapterPc} (h : c.waited.bind (·.moveTo pc) = some (c', i))
    (hpc : ({ c with pc := pc } : AdapterCall).Sealed) : SealedStep last c c' i := by
  obtain ⟨p, _, h⟩ := waited_bind h
  cases h
  exact ⟨rfl, Or.inl ⟨rfl, hpc⟩⟩

/-- **A sealed call stays sealed until it raises.** -/
theorem advance_sealed (h : a.advance inp c = some (c', i)) (hs : c.Sealed)
    (hlast : ∀ t, inp = .ok → c.pc = .timedOut t → last) : SealedStep last c c' i := by
  unfold OpenStaSubprocessAdapter.advance at h
  unfold Sealed at hs
  split at h
  case h_7 hpc =>
    rw [hpc] at hs
    exact waited_moveTo_sealed h hs
  case h_12 | h_17 => exact waited_moveTo_sealed h trivial
  case h_8 | h_13 | h_18 => exact waited_throw_sealed h trivial
  case h_9 | h_10 | h_14 | h_15 => exact moveTo_sealed h trivial
  case h_19 t hpc =>
    obtain ⟨p, _, h⟩ := Option.bind_eq_some_iff.1 h
    exact throw_sealed h (hlast t rfl hpc)
  case h_21 hpc =>
    rw [hpc] at hs
    exact moveTo_sealed h hs
  case h_22 hpc =>
    rw [hpc] at hs
    rw [if_pos hs] at h
    cases h
    exact ⟨rfl, Or.inl ⟨rfl, trivial⟩⟩
  case h_23 =>
    obtain ⟨p, _, h⟩ := Option.bind_eq_some_iff.1 h
    exact throw_sealed h trivial
  case h_11 | h_16 | h_20 | h_24 => exact throw_sealed h trivial
  case h_27 => cases h
  -- before the child is in `_processes`, and after the last look at `_cancelled_jobs`
  all_goals
    rename_i hpc
    rw [hpc] at hs
    exact hs.elim

theorem exit_sealed {code : Int} (h : c.exit code = some c') (hs : c.Sealed) : c'.Sealed := by
  unfold exit at h
  split at h
  · cases h
  · split at h
    · cases h
      exact hs
    · cases h

/-- `_cancelled_jobs` is looked at after the child has left `_processes`. -/
theorem sealed_of_registered (hreg : c.registered = true) : ({ c with cancelled := true } : AdapterCall).Sealed := by
  unfold registered at hreg
  unfold Sealed
  simp only
  cases hpc : c.pc with
  | communicate | unregister | terminate | grace | kill | wait | timedOut _ => trivial
  | _ =>
    rw [hpc] at hreg
    cases hreg

theorem cancel_sealed {polled permitted : Bool} (hs : c.Sealed ∨ (c.cancel polled permitted).2 = some true) :
    (c.cancel polled permitted).1.Sealed := by
  cases cancel_cases c polled permitted with
  | idle heq =>
    rw [heq] at hs ⊢
    exact hs.elim id (fun h => by cases h)
  | polled p code hreg hp heq =>
    rw [heq] at hs ⊢
    exact hs.elim id (fun h => by cases h)
  | took p hreg hp hup heq =>
    rw [heq]
    exact sealed_of_registered hreg

/-- A call without a registered child takes no cancel. -/
theorem cancel_of_unregistered (polled permitted : Bool) (h : c.registered = false) :
    c.cancel polled permitted = (c, some false) := by
  simp only [cancel, h]

end AdapterCall

/-! ## Where `_execute` stands -/

namespace ExecPc

/-- From the entry of `adapter.run` until it has returned or raised. -/
def inAdapter : ExecPc → Bool
  | adapter _ _ | spawned _ _ _ | observe _ _ _ => true
  | _                                           => false

/-- Between `update_run(RUNNING)` and the last store call. -/
def isOpen : ExecPc → Bool
  | pending | start | metrics _ _ | returned | raised | cancelled => false
  | _                                                             => true

/-- The handlers' completions are of a Run that has not succeeded. -/
def HandlerFails : ExecPc → Prop
  | finalize c .handler => c.runStatus ≠ .succeeded
  | _                   => True

end ExecPc

section Execution

variable {svc : Service} {spec : JobSpec} {owner : Option ExecutionOwner} {fresh : String} {reply : Reply} {pc : ExecPc}

theorem executionError_fails (n : Nat) (t m : String) : (executionError spec n t m).HandlerFails := RunStatus.noConfusion

theorem adapterRaised_fails (n : Nat) (t : String) (e : AdapterError) : (adapterRaised svc spec n t e).HandlerFails := by
  cases e with
  | cancelled m => exact RunStatus.noConfusion
  | timeout m =>
    simp only [adapterRaised]
    split
    · trivial
    · exact RunStatus.noConfusion
  | connection m =>
    simp only [adapterRaised]
    split
    · trivial
    · exact RunStatus.noConfusion
  | other m => exact executionError_fails n t m

theorem collectResult_fails (n : Nat) (t : String) (r : AdapterReturn) : (collectResult spec n t r).HandlerFails := by
  unfold collectResult
  cases r.parsed with
  | error m => exact executionError_fails n t m
  | ok result =>
    simp only
    split
    · trivial
    · split
      · trivial
      · split
        · trivial
        · split
          · trivial
          · trivial

/-- A refused call of the `try` body is an `execution_error`. -/
theorem refusable_fails {p : Prop} [Decidable p] {n : Nat} {t m : String} (h : pc.HandlerFails) :
    (if p then pc else executionError spec n t m).HandlerFails := by
  split
  · exact h
  · exact executionError_fails n t m

theorem afterAcquire_fails (n : Nat) (t e : String) : (ExecPc.afterAcquire svc spec owner n t e).HandlerFails := by
  unfold ExecPc.afterAcquire
  cases owner with
  | some o => trivial
  | none =>
    simp only
    split
    · exact executionError_fails n t _
    · trivial

theorem resume_fails : ∀ pc : ExecPc, pc.HandlerFails → (pc.resume svc spec owner fresh reply).HandlerFails
  | .start, _ => by
    simp only [ExecPc.resume]
    split
    · trivial
    · trivial
  | .record n, _ => by
    simp only [ExecPc.resume]
    split
    · trivial
    · trivial
  | .acquire n t, _ => refusable_fails (afterAcquire_fails n t fresh)
  | .register n t e o, _ => by
    refine refusable_fails ?_
    split
    · trivial
    · trivial
  | .enqueue n t e o, _ => refusable_fails trivial
  | .observe n t o, _ => trivial
  | .collect n t r, _ => refusable_fails (collectResult_fails n t r)
  | .finalize c (.body payload), _ => by
    refine refusable_fails ?_
    split
    · trivial
    · trivial
  | .finalize c .handler, _ => by
    simp only [ExecPc.resume]
    split
    · trivial
    · trivial
  | .transition n t k m, _ => by
    simp only [ExecPc.resume]
    split
    · trivial
    · trivial
  | .metrics t payload, _ => trivial
  | .pending, _ | .launch _ _, _ | .adapter _ _, _ | .spawned _ _ _, _ | .returned, _ | .raised, _ | .cancelled, _ => trivial

/-- A store call comes back outside the adapter, the observer's apart. -/
theorem resume_outside {op : StoreOp} (hop : pc.op svc spec owner = some op) (hnot : pc.inAdapter = false) :
    (pc.resume svc spec owner fresh reply).inAdapter = false := by
  have hcases := pc.resume_cases svc spec owner fresh reply
  generalize pc.resume svc spec owner fresh reply = pc' at hcases ⊢
  cases hcases with
  | observed n t o => cases hnot
  | idle pc silent =>
    rw [silent] at hop
    cases hop
  | _ => rfl

/-- Outside a finalization an open execution writes no success. -/
theorem op_writesNoSuccess {op : StoreOp} (hop : pc.op svc spec owner = some op) (hfails : pc.HandlerFails)
    (hopen : pc.isOpen = true) (hbody : ∀ c payload, pc ≠ .finalize c (.body payload)) :
    op.writesSuccess spec.jobId = false := by
  cases pc with
  | finalize c scope =>
    cases scope with
    | body payload => exact absurd rfl (hbody c payload)
    | handler =>
      cases hop
      simp [StoreOp.writesSuccess, show c.runStatus ≠ .succeeded from hfails]
  | start | metrics _ _ => cases hopen
  | pending | launch _ _ | adapter _ _ | spawned _ _ _ | returned | raised | cancelled => cases hop
  | record _ | acquire _ _ | register _ _ _ _ | enqueue _ _ _ _ | observe _ _ _ | collect _ _ _ | transition _ _ _ _ =>
    cases hop
    rfl

end Execution

/-! ## The two machines -/

namespace Cancellation

/-- Where the adapter stands for where the execution does. -/
def Wf (s : Cancellation) : Prop :=
  match s.pc with
  | .adapter _ _                    => s.call.Wf ∧ s.call.pc ≠ .notify ∧ s.call.pc ≠ .ended
  | .spawned _ _ _ | .observe _ _ _ => s.call.Wf ∧ s.call.pc = .notify
  | _                               => s.call.registered = false

/-- The execution will record no Attempt, start no child and write no success. -/
def Sealed (s : Cancellation) : Prop :=
  match s.pc with
  | .adapter _ _                                            => s.call.Sealed
  | .finalize _ .handler | .returned | .raised | .cancelled => True
  | _                                                       => False

structure Inv (spec : JobSpec) (s : Cancellation) : Prop where
  wf : s.Wf
  handler_fails : s.pc.HandlerFails
  unsucceeded : s.pc.isOpen = true ∨ s.accepted = true → s.db.unsucceeded spec.jobId
  accepted_sealed : s.accepted = true → s.Sealed
  writes_cancelled : s.cancel = .write → s.pc = .cancelled

/-- What an accepted cancel leaves to a later state: no Attempt and no child that were not there. -/
structure Stopped (spec : JobSpec) (s s' : Cancellation) : Prop where
  accepted : s'.accepted = true
  attempts : ∀ n, s.db.attempts.get (spec.jobId, n) = none → s'.db.attempts.get (spec.jobId, n) = none
  spawned : s'.call.spawned = s.call.spawned

section Step

variable {b : Backend} {svc : Service} {owner : Option ExecutionOwner} {spec : JobSpec} {a : OpenStaSubprocessAdapter}
  {s s' : Cancellation}

theorem wf_outside (hpc : s.pc.inAdapter = false) (h : s.call.registered = false) : s.Wf := by
  unfold Wf
  split
  case h_1 hs | h_2 hs | h_3 hs =>
    rw [hs] at hpc
    cases hpc
  case h_4 => exact h

theorem Wf.unregistered (h : s.Wf) (hpc : ∀ n t, s.pc ≠ .adapter n t) : s.call.registered = false := by
  unfold Wf at h
  split at h
  case h_1 n t hs => exact absurd hs (hpc n t)
  case h_2 | h_3 =>
    unfold AdapterCall.registered
    rw [h.2]
  case h_4 => exact h

theorem notified_spawned : s.notified.spawned = s.call.spawned := by
  unfold notified
  split
  · rfl
  · rfl

/-- An execution that is sealed has no store call left but its handler's. -/
theorem Sealed.op {op : StoreOp} (h : s.Sealed) (hop : s.pc.op svc spec owner = some op) :
    ∃ c, s.pc = .finalize c .handler ∧ op = .finalizeAttemptAndRun { c with executionOwner := owner } := by
  unfold Sealed at h
  split at h
  case h_2 c hs =>
    rw [hs] at hop
    cases hop
    exact ⟨c, hs, rfl⟩
  case h_6 => exact h.elim
  all_goals
    rename_i hs
    rw [hs] at hop
    cases hop

/-- **The Run after `_execute`'s own call**: a success is written only as the last one of the `try` body. -/
theorem call_unsucceeded {now : Time} {fresh : String} {op : StoreOp} (hi : s.Inv spec)
    (hop : s.pc.op svc spec owner = some op)
    (hpc : (s.pc.resume svc spec owner fresh (op.reply b now s.db)).isOpen = true ∨ s.accepted = true) :
    (op.after b now s.db).unsucceeded spec.jobId := by
  by_cases hstart : s.pc = .start
  · rw [hstart] at hop
    cases hop
    exact unsucceeded_of_updateRun rfl RunStatus.noConfusion
  by_cases hbody : ∃ c payload, s.pc = .finalize c (.body payload)
  · obtain ⟨c, payload, hs⟩ := hbody
    have hopen : s.db.unsucceeded spec.jobId := hi.unsucceeded (Or.inl (by rw [hs]; rfl))
    have hrefused : op.reply b now s.db ≠ .flag true := by
      intro hreply
      rcases hpc with hpc | haccepted
      · rw [hs, hreply] at hpc
        simp only [ExecPc.resume, if_true] at hpc
        split at hpc
        · cases hpc
        · cases hpc
      · obtain ⟨c', hs', _⟩ := (hi.accepted_sealed haccepted).op hop
        rw [hs] at hs'
        cases hs'
    rw [hs] at hop
    cases hop
    exact unsucceeded_of_refused hrefused hopen
  have hopen : s.pc.isOpen = true := by
    rcases hpc with hpc | haccepted
    · cases hs : s.pc with
      | metrics t payload =>
        rw [hs] at hpc
        cases hpc
      | start => exact absurd hs hstart
      | pending | returned | raised | cancelled =>
        rw [hs] at hop
        cases hop
      | _ => rfl
    · obtain ⟨c, hs, _⟩ := (hi.accepted_sealed haccepted).op hop
      rw [hs]
      rfl
  have hsuccess := op_writesNoSuccess hop hi.handler_fails hopen (fun c payload hs => hbody ⟨c, payload, hs⟩)
  exact unsucceeded_after hsuccess (hi.unsucceeded (Or.inl hopen))

theorem call_wf {fresh : String} {reply : Reply} {db : Db} {op : StoreOp} (hw : s.Wf)
    (hop : s.pc.op svc spec owner = some op) :
    ({ s with db := db, pc := s.pc.resume svc spec owner fresh reply, call := s.notified } : Cancellation).Wf := by
  by_cases hobserve : ∃ n t o, s.pc = .observe n t o
  · obtain ⟨n, t, o, hs⟩ := hobserve
    unfold Wf at hw ⊢
    rw [hs] at hw
    simp only [notified, hs, ExecPc.resume]
    refine ⟨⟨fun hprepare => ?_, fun _ => ?_, fun hwaited => ?_⟩, AdapterPc.noConfusion, AdapterPc.noConfusion⟩
    · cases hprepare
    · exact hw.1.starting (by rw [hw.2]; rfl)
    · cases hwaited
  · have hnot : s.pc.inAdapter = false := by
      cases hs : s.pc with
      | observe n t o => exact absurd ⟨n, t, o, hs⟩ hobserve
      | adapter n t | spawned n t c =>
        rw [hs] at hop
        cases hop
      | _ => rfl
    have hcall : s.notified = s.call := by
      unfold notified
      split
      case h_1 n t o hs => exact absurd ⟨n, t, o, hs⟩ hobserve
      case h_2 => rfl
    refine wf_outside (resume_outside hop hnot) ?_
    rw [hcall]
    refine hw.unregistered (fun n t hs => ?_)
    rw [hs] at hnot
    cases hnot

theorem call_inv {now : Time} {fresh : String} (hi : s.Inv spec)
    (h : s.step b svc owner spec a (.call now fresh) = some s') :
    s'.Inv spec ∧ (s.accepted = true → s.Stopped spec s') := by
  obtain ⟨op, hop, rfl⟩ := Option.map_eq_some_iff.1 h
  refine ⟨⟨call_wf hi.wf hop, resume_fails s.pc hi.handler_fails, call_unsucceeded hi hop, fun haccepted => ?_,
    fun hwrite => ?_⟩, fun haccepted => ⟨haccepted, fun n hnone => ?_, notified_spawned⟩⟩
  · obtain ⟨c, hs, _⟩ := (hi.accepted_sealed haccepted).op hop
    unfold Sealed
    simp only [hs, ExecPc.resume]
    by_cases hreply : op.reply b now s.db = .flag true
    · rw [if_pos hreply]
      trivial
    · rw [if_neg hreply]
      trivial
  · have hs := hi.writes_cancelled hwrite
    rw [hs] at hop
    cases hop
  · obtain ⟨c, hs, hfin⟩ := (hi.accepted_sealed haccepted).op hop
    refine attempts_after_none ?_ hnone
    rw [hfin]
    rfl

theorem Stopped.refl (h : s.accepted = true) : s.Stopped spec s := ⟨h, fun _ => id, rfl⟩

theorem Stopped.trans {s₀ : Cancellation} (h : s₀.Stopped spec s) (h' : s.Stopped spec s') : s₀.Stopped spec s' where
  accepted := h'.accepted
  attempts n hnone := h'.attempts n (h.attempts n hnone)
  spawned := h'.spawned.trans h.spawned

theorem advance_inv {clock : Time} {observed : Nat → Option (Nat × Option String)} {inp : Input} (hi : s.Inv spec)
    (h : s.step b svc owner spec a (.advance clock observed inp) = some s') :
    s'.Inv spec ∧ (s.accepted = true → s.Stopped spec s') := by
  have hnot : ∀ n t, s.pc ≠ .adapter n t := by
    intro n t hs
    simp only [step, hs] at h
    cases h
  have hadv : ∃ pc eff, s.pc.advance svc spec clock observed s.call.spawned inp = some (pc, eff) ∧
      s' = { s with pc := pc, call := s.entered eff } := by
    simp only [step] at h
    obtain ⟨x, hx, rfl⟩ := Option.map_eq_some_iff.1 h
    exact ⟨x.1, x.2, hx, rfl⟩
  obtain ⟨pc, eff, hx, rfl⟩ := hadv
  have hcases := ExecPc.advance_cases hx
  have hunregistered := hi.wf.unregistered hnot
  have hopen := hi.unsucceeded
  have hsealed := hi.accepted_sealed
  have hw := hi.wf
  have hwrite := hi.writes_cancelled
  unfold Sealed at hsealed
  unfold Wf at hw
  generalize s.pc = pc₀ at hcases hopen hsealed hw hwrite hnot
  cases hcases with
  | begin =>
    have haccepted : s.accepted = false := Bool.eq_false_iff.2 (fun h => hsealed h)
    refine ⟨⟨hunregistered, trivial, fun h => ?_, fun h => ?_, fun h => ?_⟩, fun h => (hsealed h).elim⟩
    · simp [haccepted, ExecPc.isOpen] at h
    · exact (hsealed h).elim
    · cases hwrite h
  | launch n t =>
    refine ⟨⟨⟨AdapterCall.wf_enter _, AdapterPc.noConfusion, AdapterPc.noConfusion⟩, trivial,
      fun _ => hopen (Or.inl rfl), fun h => (hsealed h).elim, fun h => ?_⟩, fun h => (hsealed h).elim⟩
    cases hwrite h
  | observed n t o =>
    refine ⟨⟨hw, trivial, fun _ => hopen (Or.inl rfl), fun h => (hsealed h).elim, fun h => ?_⟩,
      fun h => (hsealed h).elim⟩
    cases hwrite h
  | child n t | returned n t | raised n t => exact absurd rfl (hnot n t)

theorem unregistered_of_ended {call : AdapterCall} (h : call.pc = .ended) : call.registered = false := by
  unfold AdapterCall.registered
  rw [h]

/-- An error that ends the execution seals it. -/
theorem adapterRaised_sealed {n : Nat} {t : String} {e : AdapterError} (he : e.Ends (svc.maxAttempts ≤ n)) :
    ∃ c, adapterRaised svc spec n t e = .finalize c .handler := by
  cases e with
  | cancelled m => exact ⟨_, rfl⟩
  | timeout m =>
    simp only [adapterRaised]
    rw [if_neg (Nat.not_lt.2 he)]
    exact ⟨_, rfl⟩
  | connection m => exact he.elim
  | other m => exact ⟨_, rfl⟩

theorem run_inv {inp : RunInput} (hi : s.Inv spec) (hno : s.overtakes svc (.run inp) = false)
    (h : s.runAdapter svc spec a inp = some s') : s'.Inv spec ∧ (s.accepted = true → s.Stopped spec s') := by
  cases hs : s.pc with
  | adapter n t =>
    cases hadvance : a.advance inp s.call with
    | none =>
      simp only [runAdapter, hs, hadvance] at h
      cases h
    | some x =>
      obtain ⟨call, i⟩ := x
      have hw := hi.wf
      unfold Wf at hw
      rw [hs] at hw
      have hwf := AdapterCall.advance_wf hadvance hw.1
      have hopen : s.db.unsucceeded spec.jobId := hi.unsucceeded (Or.inl (by rw [hs]; rfl))
      have hwrite : s.cancel ≠ .write := by
        intro hwrite
        have hcancelled := hi.writes_cancelled hwrite
        rw [hs] at hcancelled
        cases hcancelled
      have hsealed : s.accepted = true → AdapterCall.SealedStep (svc.maxAttempts ≤ n) s.call call i := by
        intro haccepted
        have hseal := hi.accepted_sealed haccepted
        unfold Sealed at hseal
        rw [hs] at hseal
        refine AdapterCall.advance_sealed hadvance hseal ?_
        rintro k rfl hk
        unfold overtakes retries at hno
        simpa [haccepted, hs, hk] using hno
      have hraises : ∀ j, i = some j → (∀ e, j ≠ .raised e) → s.accepted ≠ true := by
        rintro j rfl hj haccepted
        obtain ⟨_, ⟨hnone, _⟩ | ⟨e, he, _⟩⟩ := hsealed haccepted
        · cases hnone
        · exact hj e (Option.some.inj he)
      cases AdapterCall.advance_emits hadvance with
      | quiet hnotify hended =>
        simp only [runAdapter, hs, hadvance] at h
        cases h
        refine ⟨⟨⟨hwf, hnotify, hended⟩, trivial, fun _ => hopen, fun haccepted => ?_,
          fun hcancel => absurd hcancel hwrite⟩, fun haccepted => ⟨haccepted, fun _ => id, (hsealed haccepted).1⟩⟩
        obtain ⟨_, ⟨_, hseal⟩ | ⟨e, he, _⟩⟩ := hsealed haccepted
        · exact hseal
        · cases he
      | child pid group identity hnotify =>
        simp only [runAdapter, hs, hadvance] at h
        cases h
        have hnot := hraises _ rfl (fun e => Input.noConfusion)
        exact ⟨⟨⟨hwf, hnotify⟩, trivial, fun _ => hopen, fun haccepted => absurd haccepted hnot,
          fun hcancel => absurd hcancel hwrite⟩, fun haccepted => absurd haccepted hnot⟩
      | raised e hended =>
        simp only [runAdapter, hs, hadvance] at h
        cases h
        refine ⟨⟨?_, adapterRaised_fails n t e, fun _ => hopen, fun haccepted => ?_,
          fun hcancel => absurd hcancel hwrite⟩, fun haccepted => ⟨haccepted, fun _ => id, (hsealed haccepted).1⟩⟩
        · refine wf_outside ?_ (unregistered_of_ended hended)
          rcases adapterRaised_cases svc spec n t e with ⟨k, m, heq⟩ | ⟨c, heq, _, _⟩
          · simp only [heq]
            rfl
          · simp only [heq]
            rfl
        · obtain ⟨_, ⟨hi, _⟩ | ⟨e', he, hends⟩⟩ := hsealed haccepted
          · cases hi
          · cases he
            obtain ⟨c, hc⟩ : ∃ c, adapterRaised svc spec n t e = .finalize c .handler := adapterRaised_sealed hends
            unfold Sealed
            simp only [hc]
      | returned x parsed hended =>
        simp only [runAdapter, hs, hadvance] at h
        cases h
        have hnot := hraises _ rfl (fun e => Input.noConfusion)
        exact ⟨⟨unregistered_of_ended hended, trivial, fun _ => hopen, fun haccepted => absurd haccepted hnot,
          fun hcancel => absurd hcancel hwrite⟩, fun haccepted => absurd haccepted hnot⟩
  | _ =>
    simp only [runAdapter, hs] at h
    cases h

theorem registered_of_pc {c c' : AdapterCall} (h : c'.pc = c.pc) : c'.registered = c.registered := by
  unfold AdapterCall.registered
  rw [h]

/-- What the child and the adapter's own `cancel` do leaves the execution where it stands. -/
theorem wf_beside {call : AdapterCall} (hw : s.Wf) (h : s.call.Beside call) :
    ({ s with call := call } : Cancellation).Wf := by
  unfold Wf at hw ⊢
  simp only
  cases hs : s.pc with
  | adapter n t =>
    rw [hs] at hw
    simp only at hw ⊢
    rw [h.pc]
    exact ⟨h.wf hw.1, hw.2⟩
  | spawned n t c | observe n t o =>
    rw [hs] at hw
    exact ⟨h.wf hw.1, h.pc.trans hw.2⟩
  | _ =>
    rw [hs] at hw
    exact (registered_of_pc h.pc).trans hw

theorem sealed_beside {call : AdapterCall} (hs : s.Sealed) (h : s.call.Sealed → call.Sealed) :
    ({ s with call := call } : Cancellation).Sealed := by
  unfold Sealed at hs ⊢
  simp only
  cases hpc : s.pc with
  | adapter n t =>
    rw [hpc] at hs
    exact h hs
  | finalize c scope =>
    rw [hpc] at hs
    cases scope with
    | body payload => exact hs
    | handler => trivial
  | _ =>
    rw [hpc] at hs
    exact hs

theorem exit_inv {code : Int} (hi : s.Inv spec) (h : s.step b svc owner spec a (.exit code) = some s') :
    s'.Inv spec ∧ (s.accepted = true → s.Stopped spec s') := by
  obtain ⟨call, hcall, rfl⟩ := Option.map_eq_some_iff.1 h
  have hbeside := AdapterCall.exit_beside hcall
  exact ⟨⟨wf_beside hi.wf hbeside, hi.handler_fails, hi.unsucceeded,
    fun haccepted => sealed_beside (hi.accepted_sealed haccepted) (AdapterCall.exit_sealed hcall), hi.writes_cancelled⟩,
    fun haccepted => ⟨haccepted, fun _ => id, hbeside.spawned⟩⟩

/-- A future that has not started, or was cancelled. -/
theorem pc_of_cancellable (h : s.future = .cancellable) : s.pc = .pending ∨ s.pc = .cancelled := by
  unfold future at h
  split at h
  case h_1 hs => exact Or.inl hs
  case h_2 hs => exact Or.inr hs
  case h_3 =>
    split at h
    · cases h
    · cases h

theorem cancelFuture_inv (hi : s.Inv spec) (hpc : s.pc = .pending ∨ s.pc = .cancelled) :
    ({ s with cancel := .write, pc := s.cancelFuture } : Cancellation).Inv spec := by
  have hcancelled : s.cancelFuture = .cancelled := by
    unfold cancelFuture
    rcases hpc with hs | hs
    · rw [hs]
    · rw [hs]
  have hunregistered : s.call.registered = false := by
    refine hi.wf.unregistered (fun n t hs => ?_)
    rw [hs] at hpc
    rcases hpc with hpc | hpc
    · cases hpc
    · cases hpc
  rw [hcancelled]
  refine ⟨hunregistered, trivial, fun h => hi.unsucceeded (Or.inr (h.resolve_left ?_)), fun _ => trivial, fun _ => rfl⟩
  exact Bool.noConfusion

/-- **An accepted signal seals the execution.** -/
theorem adapterCancel_inv (polled permitted : Bool) {cancel : CancelPc} (hi : s.Inv spec) (hcancel : cancel ≠ .write) :
    ({ s with cancel := cancel, call := (s.call.cancel polled permitted).1,
              accepted := s.accepted || (s.call.cancel polled permitted).2 == some true } : Cancellation).Inv spec := by
  have hwf := wf_beside hi.wf (AdapterCall.cancel_beside s.call polled permitted)
  by_cases hadapter : ∃ n t, s.pc = .adapter n t
  · obtain ⟨n, t, hs⟩ := hadapter
    refine ⟨hwf, hi.handler_fails, fun _ => hi.unsucceeded (Or.inl (by rw [hs]; rfl)), fun haccepted => ?_,
      fun hwrite => absurd hwrite hcancel⟩
    have hold : s.accepted = true → s.call.Sealed := by
      intro h
      have hseal := hi.accepted_sealed h
      unfold Sealed at hseal
      rw [hs] at hseal
      exact hseal
    simp only [Bool.or_eq_true, beq_iff_eq] at haccepted
    unfold Sealed
    simp only [hs]
    exact AdapterCall.cancel_sealed (haccepted.imp_left hold)
  · have hunregistered := hi.wf.unregistered (fun n t hs => hadapter ⟨n, t, hs⟩)
    have heq := AdapterCall.cancel_of_unregistered polled permitted hunregistered
    rw [heq] at hwf ⊢
    have haccepted : (s.accepted || (some false == some true)) = s.accepted := Bool.or_false _
    rw [haccepted]
    exact ⟨hwf, hi.handler_fails, hi.unsucceeded, hi.accepted_sealed, fun hwrite => absurd hwrite hcancel⟩

theorem lookup_inv {polled permitted : Bool} (hi : s.Inv spec) (h : s.lookup spec polled permitted = some s') :
    s'.Inv spec ∧ (s.accepted = true → s.Stopped spec s') := by
  have hspawned := (AdapterCall.cancel_beside s.call polled permitted).spawned
  unfold lookup at h
  split at h
  case h_1 hcancel hfuture =>
    rw [hcancel] at h
    cases h
    exact ⟨cancelFuture_inv hi (pc_of_cancellable hfuture), fun haccepted => ⟨haccepted, fun _ => id, rfl⟩⟩
  case h_2 hcancel hfuture =>
    split at h
    case h_1 call answer heq =>
      obtain ⟨x, hx, rfl⟩ := Option.map_eq_some_iff.1 h
      have hreturned : x.1 ≠ .write := by
        rw [hcancel] at hx
        unfold CancelPc.advance at hx
        cases hstate : s.future with
        | cancellable => exact absurd hstate hfuture
        | absent | running | done =>
          rw [hstate] at hx
          cases hx
          exact CancelPc.noConfusion
      have hinv := adapterCancel_inv polled permitted hi hreturned
      rw [heq] at hinv hspawned
      have hanswer : (some answer == some true) = answer := by
        cases answer with
        | true => rfl
        | false => rfl
      rw [hanswer] at hinv
      refine ⟨hinv, fun haccepted => ⟨?_, fun _ => id, hspawned⟩⟩
      simp only [haccepted, Bool.true_or]
    case h_2 call heq =>
      cases h
      have hlookup : s.cancel ≠ .write := by
        rw [hcancel]
        exact CancelPc.noConfusion
      have hinv := adapterCancel_inv polled permitted hi hlookup
      rw [heq] at hinv hspawned
      have hsame : (s.accepted || ((none : Option Bool) == some true)) = s.accepted := Bool.or_false _
      rw [hsame] at hinv
      exact ⟨hinv, fun haccepted => ⟨haccepted, fun _ => id, hspawned⟩⟩
  case h_3 => cases h

theorem cancelWrite_inv {now : Time} (hi : s.Inv spec) (h : s.step b svc owner spec a (.cancelWrite now) = some s') :
    s'.Inv spec ∧ (s.accepted = true → s.Stopped spec s') := by
  obtain ⟨op, hop, rfl⟩ := Option.map_eq_some_iff.1 h
  cases hcancel : s.cancel with
  | write =>
    rw [hcancel] at hop
    cases hop
    have hs := hi.writes_cancelled hcancel
    refine ⟨⟨hi.wf, hi.handler_fails, fun _ => unsucceeded_of_updateRun rfl RunStatus.noConfusion, fun _ => ?_, fun _ => hs⟩,
      fun _ => ⟨rfl, fun n hnone => attempts_after_none rfl hnone, rfl⟩⟩
    unfold Sealed
    simp only [hs]
  | lookup | returned _ =>
    rw [hcancel] at hop
    cases hop

theorem other_inv {now : Time} {op : StoreOp} (hi : s.Inv spec)
    (h : s.step b svc owner spec a (.other now op) = some s') :
    s'.Inv spec ∧ (s.accepted = true → s.Stopped spec s') := by
  simp only [step] at h
  by_cases hforeign : op.foreign spec.jobId = true
  · rw [if_pos hforeign] at h
    cases h
    simp only [StoreOp.foreign, Bool.and_eq_true, Bool.not_eq_true'] at hforeign
    exact ⟨⟨hi.wf, hi.handler_fails, fun h => unsucceeded_after hforeign.2 (hi.unsucceeded h), hi.accepted_sealed,
      hi.writes_cancelled⟩, fun haccepted => ⟨haccepted, fun n => attempts_after_none hforeign.1, rfl⟩⟩
  · rw [if_neg hforeign] at h
    cases h

/-- **What a step keeps**, and what it leaves to an accepted cancel, where it does not overtake it. -/
theorem step_inv {act : CancellationAct} (hi : s.Inv spec) (hno : s.overtakes svc act = false)
    (h : s.step b svc owner spec a act = some s') : s'.Inv spec ∧ (s.accepted = true → s.Stopped spec s') := by
  cases act with
  | other now op => exact other_inv hi h
  | call now fresh => exact call_inv hi h
  | advance clock observed inp => exact advance_inv hi h
  | run inp => exact run_inv hi hno h
  | exit code => exact exit_inv hi h
  | cancelCall =>
    simp only [step] at h
    split at h
    · cases h
    · cases h
      exact ⟨⟨hi.wf, hi.handler_fails, hi.unsucceeded, hi.accepted_sealed, fun hwrite => CancelPc.noConfusion hwrite⟩,
        fun haccepted => ⟨haccepted, fun _ => id, rfl⟩⟩
  | cancel polled permitted => exact lookup_inv hi h
  | cancelWrite now => exact cancelWrite_inv hi h

end Step

variable {b : Backend} {svc : Service} {owner : Option ExecutionOwner} {spec : JobSpec} {a : OpenStaSubprocessAdapter}

/-- `_execute` of a Run from any database, and no `cancel` yet. -/
def start (db : Db) : Cancellation := { db := db }

theorem inv_start (db : Db) : (start db).Inv spec := by
  refine ⟨rfl, trivial, fun h => ?_, fun h => ?_, fun h => ?_⟩
  · rcases h with h | h
    · cases h
    · cases h
  · cases h
  · cases h

/-- In every state after a `cancel` returned `True` no Attempt of the job is recorded and no child started that were not
there by then, and the Run has not succeeded. -/
def CancelIsFinal (b : Backend) (svc : Service) (owner : Option ExecutionOwner) (spec : JobSpec)
    (a : OpenStaSubprocessAdapter) (s : Cancellation) (acts : List CancellationAct) : Prop :=
  ∀ pre mid post m m', acts = pre ++ (mid ++ post) → Trace.run (step b svc owner spec a) s pre = some m →
    m.accepted = true → Trace.run (step b svc owner spec a) m mid = some m' →
    m.Stopped spec m' ∧ m'.db.unsucceeded spec.jobId

/-- **An accepted cancel is final** in every run in which no `TimeoutError` with an Attempt left overtakes one. -/
theorem accepted_cancel_is_final (db : Db) {acts : List CancellationAct}
    (h : Trace.Every (step b svc owner spec a) (fun s act => s.overtakes svc act = false) (start db) acts) :
    CancelIsFinal b svc owner spec a (start db) acts := by
  intro pre mid post m m' hsplit hm haccepted hm'
  rw [hsplit, Trace.every_append] at h
  have hrest := (Trace.every_append.1 (h.2 m hm)).1
  have hinv : m.Inv spec :=
    Trace.run_preserves_of_every (fun s act s' hi hno hstep => (step_inv hi hno hstep).1) (inv_start db) h.1 hm
  have hstopped : m'.Inv spec ∧ m.Stopped spec m' := by
    refine Trace.run_preserves_of_every (P := fun x => x.Inv spec ∧ m.Stopped spec x) ?_
      ⟨hinv, Stopped.refl haccepted⟩ hrest hm'
    rintro s act s' ⟨hi, hs⟩ hno hstep
    obtain ⟨hi', hs'⟩ := step_inv hi hno hstep
    exact ⟨hi', hs.trans (hs' hs.accepted)⟩
  exact ⟨hstopped.2, hstopped.1.unsucceeded (Or.inr hstopped.2.accepted)⟩

/-! ### A cancel of a running child, and one of a child whose timeout has run out -/

def cancelledSpec : JobSpec := ⟨"job", "design", "ip", "flow", "tt", .int 1, "ns", .float (1 / 50)⟩

theorem recoveryLease_pos : (0 : Time) < 30 := by norm_num

theorem orphanGrace_pos : (0 : Time) < 60 := by norm_num

def retryingService : Service where
  workerId := "worker"
  executionMode := .local
  maxAttempts := 2
  leaseSeconds := 30
  recoveryLeaseSeconds := 30
  orphanGraceSeconds := 60
  maxInFlight := none
  recoveryLeaseSeconds_pos := recoveryLease_pos
  orphanGraceSeconds_pos := orphanGrace_pos

def fixedAdapter : OpenStaSubprocessAdapter :=
  { staPath := "/opt/sta", libertyPath := "/opt/tt.lib", fixtureDir := "/opt/fixture" }

/-- The first Attempt, up to the `communicate` on its child. -/
def childActs : List CancellationAct :=
  [.other 0 (.createRun "job" "design" "ip" "flow" none none none), .advance 0 (fun _ => none) .go, .call 0 "",
   .call 0 "lease", .call 0 "execution", .advance 0 (fun _ => none) .go, .run (.spawn 7 7 none), .run .ok,
   .advance 0 (fun _ => none) (.ps true), .call 0 "", .run .ok]

/-- The child is cancelled while it runs, and ends by the signal. -/
def runningActs : List CancellationAct :=
  childActs ++ [.cancel false true, .exit (-15), .run .ok, .run .ok, .run .ok, .run .ok, .call 1 ""]

theorem running_child_cancelled :
    (Trace.run (step .sqlite retryingService none cancelledSpec fixedAdapter) (start .empty) runningActs).any
      (fun m => m.accepted && (m.db.runs.get "job").any (fun r => decide (r.status = .cancelled))) = true ∧
    CancelIsFinal .sqlite retryingService none cancelledSpec fixedAdapter (start .empty) runningActs :=
  ⟨by decide +kernel, accepted_cancel_is_final .empty (by decide +kernel)⟩

/-- The child is cancelled in the grace that its timeout leaves it. -/
def graceActs : List CancellationAct := childActs ++ [.run .expire, .run (.signal true), .cancel false true]

/-- It ends by the signal; the `TimeoutError` is retried. -/
def retryActs : List CancellationAct :=
  [.exit (-15), .run .ok, .run .ok, .call 1 "", .call 1 "retry", .call 1 "execution", .advance 1 (fun _ => none) .go,
   .run (.spawn 8 8 none)]

/-- **A cancel accepted while a timeout is handled is followed by another Attempt and another child.** -/
theorem retried_after_cancel :
    ¬ CancelIsFinal .sqlite retryingService none cancelledSpec fixedAdapter (start .empty) (graceActs ++ retryActs) := by
  intro h
  have hrun : (Trace.run (step .sqlite retryingService none cancelledSpec fixedAdapter) (start .empty) graceActs).any
      (fun m => m.accepted && decide (m.call.spawned = 1) &&
        (Trace.run (step .sqlite retryingService none cancelledSpec fixedAdapter) m retryActs).any
          (fun m' => decide (m'.call.spawned = 2) && (m'.db.attempts.get ("job", 2)).isSome)) = true := by
    decide +kernel
  obtain ⟨m, hm, hfacts⟩ := (Option.any_eq_true _ _).1 hrun
  simp only [Bool.and_eq_true, decide_eq_true_eq] at hfacts
  obtain ⟨⟨haccepted, hone⟩, hretry⟩ := hfacts
  obtain ⟨m', hm', htwo⟩ := (Option.any_eq_true _ _).1 hretry
  simp only [Bool.and_eq_true, decide_eq_true_eq] at htwo
  have hspawned := (h graceActs retryActs [] m m' (by simp) hm haccepted hm').1.spawned
  rw [hone, htwo.1] at hspawned
  cases hspawned

end Cancellation

end EdaLab
