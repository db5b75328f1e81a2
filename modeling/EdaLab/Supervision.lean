import EdaLab.StoreSpec
import EdaLab.Subprocess
import EdaLab.Trace
import EdaLab.Worker
/-!
# Supervision — `run_once` on an `OpenStaSubprocessAdapter`

The supervisor's machine and the adapter's call run as one; between two of their steps any other party calls the store
(recovery, another supervisor, an operator's witness), the child ends or another thread calls `cancel`.  The witness says
that the child is gone: what it has to rest on is that `run` never ends before its child is reaped.
-/
namespace EdaLab

structure Supervision where
  db   : Db
  pc   : SupervisorPc := .claim
  call : AdapterCall := {}

inductive SupervisionAct
  /-- A store call of any other party. -/
  | other (now : Time) (op : StoreOp)
  /-- The supervisor's own store call. -/
  | call (now : Time) (locked : List String)
  /-- The supervisor enters `adapter.run`. -/
  | enter
  | run (inp : RunInput)
  | exit (code : Int)
  | cancel (polled permitted : Bool)

namespace Supervision

variable (b : Backend) (sup : Supervisor) (a : OpenStaSubprocessAdapter) (s : Supervision)

/-- The reply of the supervisor's store call, for the adapter it observes. -/
def notified (reply : Reply) : AdapterCall :=
  match s.pc with
  | .started _ _ => s.call.notified (decide (reply = .flag true))
  | _            => s.call

/-- A step of `adapter.run`. -/
def advance (inp : RunInput) : Option Supervision :=
  match s.pc, a.advance inp s.call with
  | .running _, some (call, none)   => some { s with call := call }
  | .running _, some (call, some i) => (s.pc.advance i).map (fun x => { s with pc := x.1, call := call })
  | _, _                            => none

def step : SupervisionAct → Option Supervision
  | .other now op => some { s with db := op.after b now s.db }
  | .call now locked =>
    (s.pc.op sup locked).map (fun op =>
      { db := op.after b now s.db, pc := s.pc.resume (op.reply b now s.db), call := s.notified (op.reply b now s.db) })
  | .enter =>
    match s.pc with
    | .ready _ => (s.pc.advance .go).map (fun x => { s with pc := x.1, call := s.call.enter })
    | _        => none
  | .run inp => s.advance a inp
  | .exit code => (s.call.exit code).map (fun call => { s with call := call })
  | .cancel polled permitted => some { s with call := (s.call.cancel polled permitted).1 }

/-- The call records a termination witness. -/
def records (act : SupervisionAct) : Prop :=
  ∃ now locked req w r, act = .call now locked ∧ s.pc = .witness req w r ∧
    (StoreOp.recordTerminationWitness req.executionId w.kind w.processExitCode w.artifactPath w.detail).reply b now s.db =
      .flag true

/-- The request is still claimed by this supervisor. -/
def stillClaimed (executionId : String) : Prop :=
  ∃ e, s.db.executionRequests.get executionId = some e ∧ e.status = .claimed ∧ e.supervisorId = some sup.supervisorId

/-- No step raises past a child that is not reaped: no observer does, and so the request is still claimed when the start is
recorded; the hold is readable; the signal is not refused. -/
def Observed : SupervisionAct → Prop
  | .call _ _ => ∀ req pid, s.pc = .started req pid → s.stillClaimed sup req.executionId
  | .run inp  => ¬ s.call.Abandons inp
  | _         => True

/-! ## What the supervisor and its adapter keep -/

/-- Where the adapter stands for where the supervisor does. -/
def Wf : Prop :=
  match s.pc with
  | .claim | .ready _ => s.call.pc = .prepare ∧ s.call.child = none
  | .running _        => s.call.Wf ∧ s.call.pc ≠ .notify ∧ s.call.pc ≠ .ended
  | .started _ _      => s.call.Wf ∧ s.call.pc = .notify
  | _                 => s.call.Down ∧ (s.call.pc = .prepare ∨ s.call.pc = .ended)

section Step

variable {b : Backend} {sup : Supervisor} {a : OpenStaSubprocessAdapter} {s s' : Supervision}

theorem Wf.down_of_ended (h : s.Wf) (hended : s.call.pc = .ended) : s.call.Down := by
  unfold Wf at h
  cases hpc : s.pc with
  | claim | ready _ =>
    rw [hpc] at h
    exact AdapterCall.down_of_none h.2
  | running _ =>
    rw [hpc] at h
    exact absurd hended h.2.2
  | started _ _ =>
    rw [hpc] at h
    rw [h.2] at hended
    cases hended
  | witness _ _ _ | finalize _ _ | returned _ | raised =>
    rw [hpc] at h
    exact h.1

/-- The start is recorded exactly while the request is claimed. -/
theorem started_reply (e : String) (pid : Nat) (now : Time) :
    (StoreOp.recordSupervisorProcessStarted e sup.supervisorId pid).reply b now s.db = .flag true ↔
      s.stillClaimed sup e := by
  have hreply : (StoreOp.recordSupervisorProcessStarted e sup.supervisorId pid).reply b now s.db =
      .flag (decide (s.db.executionRequests.countWhere (Store.isClaimedBy e sup.supervisorId) = 1)) := rfl
  have hkey : ∀ r, Store.isClaimedBy e sup.supervisorId r = true → r.executionId = e := by
    intro r hr
    simp only [Store.isClaimedBy, Bool.and_eq_true, decide_eq_true_eq] at hr
    exact hr.1.1
  rw [hreply, Reply.flag.injEq, decide_eq_true_iff, Relational.Table.countWhere_eq_one_iff _ _ e hkey]
  unfold stillClaimed
  constructor
  · rintro ⟨r, hr, hclaimed⟩
    simp only [Store.isClaimedBy, Bool.and_eq_true, decide_eq_true_eq] at hclaimed
    exact ⟨r, hr, hclaimed.1.2, hclaimed.2⟩
  · rintro ⟨r, hr, hstatus, hsup⟩
    refine ⟨r, hr, ?_⟩
    simp [Store.isClaimedBy, Relational.Table.key_of_get hr, hstatus, hsup]

theorem call_wf {now : Time} {locked : List String} (hw : s.Wf) (hobserved : s.Observed sup (.call now locked))
    (h : s.step b sup a (.call now locked) = some s') : s'.Wf := by
  unfold step at h
  obtain ⟨op, hop, rfl⟩ := Option.map_eq_some_iff.1 h
  unfold Wf at hw ⊢
  unfold notified
  cases hpc : s.pc with
  | claim =>
    rw [hpc] at hw
    simp only [SupervisorPc.resume]
    cases op.reply b now s.db with
    | request r =>
      cases r with
      | none => exact ⟨AdapterCall.down_of_none hw.2, Or.inl hw.1⟩
      | some req => exact hw
    | _ => exact ⟨AdapterCall.down_of_none hw.2, Or.inl hw.1⟩
  | started req pid =>
    rw [hpc] at hw hop
    cases hop
    have hreply := (started_reply (b := b) req.executionId pid now).2 (hobserved req pid hpc)
    simp only [SupervisorPc.resume]
    rw [if_pos hreply, hreply]
    refine ⟨⟨fun hprepare => ?_, fun _ => ?_, fun hwaited => ?_⟩, AdapterPc.noConfusion, AdapterPc.noConfusion⟩
    · cases hprepare
    · exact hw.1.starting (by rw [hw.2]; rfl)
    · cases hwaited
  | witness req w r =>
    rw [hpc] at hw
    simp only [SupervisorPc.resume]
    cases r with
    | none => exact hw
    | some r =>
      simp only
      cases r.parsed with
      | ok parsed => exact hw
      | error m => exact hw
  | finalize req c =>
    rw [hpc] at hw
    simp only [SupervisorPc.resume]
    by_cases hreply : op.reply b now s.db = .flag true
    · rw [if_pos hreply]
      exact hw
    · rw [if_neg hreply]
      exact hw
  | ready req | running req | returned _ | raised =>
    rw [hpc] at hop
    cases hop

theorem advance_wf {inp : RunInput} (hw : s.Wf) (hobserved : ¬ s.call.Abandons inp) (h : s.advance a inp = some s') :
    s'.Wf := by
  unfold advance at h
  cases hpc : s.pc with
  | running req =>
    unfold Wf at hw
    rw [hpc] at hw h
    simp only at hw
    cases hadvance : a.advance inp s.call with
    | none =>
      rw [hadvance] at h
      cases h
    | some x =>
      obtain ⟨call, i⟩ := x
      rw [hadvance] at h
      have hkept := AdapterCall.advance_kept hadvance hw.1 hobserved
      cases AdapterCall.advance_emits hadvance with
      | quiet hnotify hended =>
        cases h
        exact ⟨hkept.wf, hnotify, hended⟩
      | child pid group identity hnotify =>
        cases h
        exact ⟨hkept.wf, hnotify⟩
      | raised e hended =>
        cases e with
        | cancelled _ | timeout _ | connection _ | other _ =>
          cases h
          exact ⟨hkept.ended hended, Or.inr hended⟩
      | returned x parsed hended =>
        cases h
        exact ⟨hkept.ended hended, Or.inr hended⟩
  | _ =>
    rw [hpc] at h
    cases h

theorem running_of_abandons {inp : RunInput} (hw : s.Wf) (h : s.call.Abandons inp) : ∃ req, s.pc = .running req := by
  obtain ⟨hprepare, hnotify, hended⟩ := h.pc
  unfold Wf at hw
  cases hpc : s.pc with
  | running req => exact ⟨req, rfl⟩
  | claim | ready _ =>
    rw [hpc] at hw
    exact absurd hw.1 hprepare
  | started _ _ =>
    rw [hpc] at hw
    exact absurd hw.2 hnotify
  | witness _ _ _ | finalize _ _ | returned _ | raised =>
    rw [hpc] at hw
    exact absurd hw.2 (not_or.2 ⟨hprepare, hended⟩)

theorem wf_beside {call : AdapterCall} (hw : s.Wf) (h : s.call.Beside call) :
    ({ s with call := call } : Supervision).Wf := by
  unfold Wf at hw ⊢
  simp only
  cases hs : s.pc with
  | claim | ready _ =>
    rw [hs] at hw
    exact ⟨h.pc.trans hw.1, h.childless hw.2⟩
  | running _ =>
    rw [hs] at hw
    simp only at hw ⊢
    rw [h.pc]
    exact ⟨h.wf hw.1, hw.2⟩
  | started _ _ =>
    rw [hs] at hw
    exact ⟨h.wf hw.1, h.pc.trans hw.2⟩
  | witness _ _ _ | finalize _ _ | returned _ | raised =>
    rw [hs] at hw
    simp only at hw ⊢
    rw [h.pc]
    exact ⟨h.down hw.1, hw.2⟩

/-- **What a step keeps** where no observer, hold or signal raises past the child. -/
theorem step_wf {act : SupervisionAct} (hw : s.Wf) (hobserved : s.Observed sup act) (h : s.step b sup a act = some s') :
    s'.Wf := by
  cases act with
  | other now op =>
    cases h
    exact hw
  | call now locked => exact call_wf hw hobserved h
  | enter =>
    unfold step at h
    cases hpc : s.pc with
    | ready req =>
      rw [hpc] at h
      cases h
      exact ⟨AdapterCall.wf_enter _, AdapterPc.noConfusion, AdapterPc.noConfusion⟩
    | _ =>
      rw [hpc] at h
      cases h
  | run inp => exact advance_wf hw hobserved h
  | exit code =>
    obtain ⟨call, hcall, rfl⟩ := Option.map_eq_some_iff.1 h
    exact wf_beside hw (AdapterCall.exit_beside hcall)
  | cancel polled permitted =>
    cases h
    exact wf_beside hw (AdapterCall.cancel_beside s.call polled permitted)

end Step

/-- If the step ends `adapter.run`, its child is reaped. -/
def LeavesReaped (act : SupervisionAct) : Prop := ∀ s', s.step b sup a act = some s' → s'.call.pc = .ended → s'.call.Down

/-- If the call records a termination witness, no child is behind it. -/
def WitnessesDown (act : SupervisionAct) : Prop := s.records b act → s.call.Down

variable {b sup a s}

/-- An observer that raises, an unreadable hold and a refused signal leave the child. -/
theorem not_leavesReaped {act : SupervisionAct} (hw : s.Wf) (hnot : ¬ s.Observed sup act) :
    ¬ s.LeavesReaped b sup a act := by
  intro hleaves
  cases act with
  | call now locked =>
    simp only [Observed, not_forall] at hnot
    obtain ⟨req, pid, hpc, hlost⟩ := hnot
    have hreply : ¬ (StoreOp.recordSupervisorProcessStarted req.executionId sup.supervisorId pid).reply b now s.db =
        .flag true := fun hreply => hlost ((started_reply req.executionId pid now).1 hreply)
    have hended : s.notified ((StoreOp.recordSupervisorProcessStarted req.executionId sup.supervisorId pid).reply b now
        s.db) =
        { s.call with pc := .ended } := by
      unfold notified
      rw [hpc]
      simp only [AdapterCall.notified, hreply, decide_false, Bool.false_eq_true, if_false]
    unfold Wf at hw
    rw [hpc] at hw
    have hstep : ∃ s', s.step b sup a (.call now locked) = some s' ∧ s'.call = { s.call with pc := .ended } := by
      unfold step
      rw [hpc]
      exact ⟨_, rfl, hended⟩
    obtain ⟨s', hs', hcall⟩ := hstep
    have hdown := hleaves s' hs' (by rw [hcall])
    rw [hcall] at hdown
    exact hw.1.not_down (by rw [hw.2]; rfl) hdown
  | run inp =>
    have habandons : s.call.Abandons inp := not_not.1 hnot
    obtain ⟨req, hpc⟩ := running_of_abandons hw habandons
    unfold Wf at hw
    rw [hpc] at hw
    obtain ⟨call, m, hadvance, hended, hup⟩ := AdapterCall.advance_abandons a hw.1 habandons
    have hstep : ∃ s', s.step b sup a (.run inp) = some s' ∧ s'.call = call := by
      have hrun : s.step b sup a (.run inp) = s.advance a inp := rfl
      rw [hrun, advance, hpc, hadvance]
      exact ⟨_, rfl, rfl⟩
    obtain ⟨s', hs', rfl⟩ := hstep
    exact hup (hleaves s' hs' hended)
  | other now op => exact hnot trivial
  | enter => exact hnot trivial
  | exit code => exact hnot trivial
  | cancel polled permitted => exact hnot trivial

theorem observed_iff {act : SupervisionAct} (hw : s.Wf) : s.Observed sup act ↔ s.LeavesReaped b sup a act := by
  constructor
  · intro hobserved s' hs' hended
    exact (step_wf hw hobserved hs').down_of_ended hended
  · intro hleaves
    by_contra hnot
    exact not_leavesReaped hw hnot hleaves

theorem witnessesDown (hw : s.Wf) (act : SupervisionAct) : s.WitnessesDown b act := by
  rintro ⟨now, locked, req, w, r, -, hpc, -⟩
  unfold Wf at hw
  rw [hpc] at hw
  exact hw.1

theorem every_observed_iff : ∀ (acts : List SupervisionAct) {s : Supervision}, s.Wf →
    (Trace.Every (step b sup a) (Observed sup) s acts ↔ Trace.Every (step b sup a) (LeavesReaped b sup a) s acts)
  | [], _, _ => Iff.rfl
  | act :: acts, s, hw => by
    unfold Trace.Every
    constructor
    · rintro ⟨hobserved, hrest⟩
      refine ⟨(observed_iff hw).1 hobserved, fun s' hs' => ?_⟩
      exact (every_observed_iff acts (step_wf hw hobserved hs')).1 (hrest s' hs')
    · rintro ⟨hleaves, hrest⟩
      have hobserved := (observed_iff hw).2 hleaves
      refine ⟨hobserved, fun s' hs' => ?_⟩
      exact (every_observed_iff acts (step_wf hw hobserved hs')).2 (hrest s' hs')

/-- One `run_once` from any database. -/
def start (db : Db) : Supervision := { db := db }

theorem wf_start (db : Db) : (start db).Wf := ⟨rfl, rfl⟩

/-- **The witness of a supervised child.**  In every interleaving of `run_once` with others, `adapter.run` never ends before
its child is reaped exactly when no step raises past the child; and then every witness that `run_once` records is of a child
that is gone. -/
theorem witness_over_reaped_child (db : Db) (acts : List SupervisionAct) :
    (Trace.Every (step b sup a) (Observed sup) (start db) acts ↔
      Trace.Every (step b sup a) (LeavesReaped b sup a) (start db) acts) ∧
    (Trace.Every (step b sup a) (Observed sup) (start db) acts →
      Trace.Every (step b sup a) (WitnessesDown b) (start db) acts) := by
  refine ⟨every_observed_iff acts (wf_start db), fun hobserved => ?_⟩
  rw [Trace.every_iff_forall_split]
  intro pre act post m hsplit hm
  have hpre : Trace.Every (step b sup a) (Observed sup) (start db) pre := by
    rw [hsplit, Trace.every_append] at hobserved
    exact hobserved.1
  have hwf : m.Wf := Trace.run_preserves_of_every (fun s act s' => step_wf) (wf_start db) hpre hm
  exact witnessesDown hwf act

/-! ### A recovery between the claim and the start of the child -/

def hostSupervisor : Supervisor := ⟨"host", "supervisor", 30⟩

def hostOwner : ExecutionOwner := ⟨"host", "boot", "session"⟩

def fixtureAdapter : OpenStaSubprocessAdapter :=
  { staPath := "/opt/sta", libertyPath := "/opt/tt.lib", fixtureDir := "/opt/fixture" }

def supervisedSpec : JobSpec := ⟨"job", "design", "ip", "flow", "tt", .int 1, "ns", .float (1 / 50)⟩

/-- A Host Agent's worker delivers the first Attempt of the job. -/
def deliveryActs : List SupervisionAct :=
  [.other 0 (.createRun "job" "design" "ip" "flow" none none none),
   .other 0 (.updateRun "job" { status := some .running }),
   .other 0 (.recordAttempt "job" 1 .running none none none (some .notClassified)),
   .other 0 (.acquireAttemptLease "job" 1 "worker" "lease" 30),
   .other 0 (.startHostSession hostOwner 30),
   .other 0 (.recordAttemptExecution "job" 1 "lease" hostOwner "execution"),
   .other 0 (.enqueueExecutionRequest "execution" "job" 1 "host" ⟨supervisedSpec, "lease", hostOwner⟩)]

/-- The supervisor claims the delivery and starts its child; before it records the start, the Host Agent's own recovery
closes the Run, whose lease is over. -/
def lostClaimActs : List SupervisionAct :=
  deliveryActs ++
  [.call 1 [], .enter, .run (.spawn 7 7 none), .other 40 (.claimRecovery "job" 1 "worker" "recovery" 30),
   .other 40 (.finalizeRecovery "job" 1 "recovery" "worker_unavailable"
     "recovery: stale RUNNING record without live worker"), .run .ok, .call 41 []]

/-- The witness that the supervisor then records. -/
def lostClaimWitness : StoreOp :=
  .recordTerminationWitness "execution" .runtimeTerminated none none
    "supervisor observed execution error: supervisor could not record child start"

/-- **The supervisor witnesses the end of a child that runs.** -/
theorem witness_over_running_child :
    ¬ Trace.Every (step .sqlite hostSupervisor fixtureAdapter) (WitnessesDown .sqlite) (start .empty)
      (lostClaimActs ++ [.call 42 []]) := by
  intro h
  have hrun : (Trace.run (step .sqlite hostSupervisor fixtureAdapter) (start .empty) lostClaimActs).map (fun s =>
      decide (s.pc.op hostSupervisor [] = some lostClaimWitness) &&
        decide (lostClaimWitness.reply .sqlite 42 s.db = .flag true) &&
        decide (s.call.child = some ⟨7, 7, none, .running⟩)) = some true := by
    decide +kernel
  obtain ⟨s, hs, hfacts⟩ := Option.map_eq_some_iff.1 hrun
  simp only [Bool.and_eq_true, decide_eq_true_eq] at hfacts
  obtain ⟨⟨hop, hreply⟩, hchild⟩ := hfacts
  have hdown := Trace.every_iff_forall_split.1 h lostClaimActs (.call 42 []) [] s (by simp) hs
  have hrecords : s.records .sqlite (.call 42 []) := by
    cases hpc : s.pc with
    | witness req w r =>
      rw [hpc] at hop
      have heq := Option.some.inj hop
      exact ⟨42, [], req, w, r, rfl, hpc, by rw [heq]; exact hreply⟩
    | _ =>
      rw [hpc] at hop
      cases hop
  have hreaped := hdown hrecords _ hchild
  cases hreaped

end Supervision

end EdaLab
