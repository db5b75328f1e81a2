import EdaLab.Numeral
import EdaLab.Service
/-!
# Subprocess — `OpenStaSubprocessAdapter`, one call of `run` and the child it starts

A call of `run` is a machine (`AdapterPc`) that other calls interleave with: `cancel` from another thread, the child that
exits when it likes, the observers of its start.  What the call depends on outside comes in as a `RunInput`; what it hands
to the party that made it (a started child, a result, an exception) goes out as that party's own `Input`.

`communicate` returns or fails only after it has waited for the child, and can time out whatever the child does: a
descendant may hold its pipes, and SIGTERM may be ignored.
-/
namespace EdaLab

/-- `str` of a number. -/
def PyNumber.str : PyNumber → String
  | .int i   => toString i
  | .float q => String.ofList (PyFloat.repr q).text

structure OpenStaSubprocessAdapter where
  staPath        : String
  libertyPath    : String
  fixtureDir     : String
  sdcName        : Option String := some "normal.sdc"
  netlistPath    : Option String := none
  scriptName     : String := "run.tcl"
  timeoutSeconds : PyNumber := .int 30
  deriving DecidableEq

/-! ## The child -/

/-- A child as the operating system has it. -/
inductive ChildState
  | running
  /-- It has ended and nobody has waited for it. -/
  | exited (code : Int)
  | reaped (code : Int)
  deriving DecidableEq

structure Popen where
  pid      : Nat
  group    : Nat
  identity : Option String
  state    : ChildState
  deriving DecidableEq

/-- `poll() is None` is certain of a running child. -/
def Popen.isRunning (p : Popen) : Bool := decide (p.state = .running)

def Popen.isReaped (p : Popen) : Bool :=
  match p.state with
  | .reaped _ => true
  | _         => false

/-- Waiting for a child that has ended. -/
def Popen.wait (p : Popen) : Option Popen :=
  match p.state with
  | .running     => none
  | .exited code => some { p with state := .reaped code }
  | .reaped _    => some p

def Popen.returncode (p : Popen) : Option Int :=
  match p.state with
  | .reaped code => some code
  | _            => none

/-! ## A call of `run` -/

inductive Termination
  | sigterm | sigkill
  deriving DecidableEq

def Termination.text : Termination → String
  | .sigterm => "SIGTERM"
  | .sigkill => "SIGKILL"

inductive AdapterPc
  /-- The checks, the directory and the copies, up to `Popen`. -/
  | prepare
  /-- `self.process_observer` and the observers that were added before. -/
  | observe
  /-- The observer of the party that made the call. -/
  | notify
  /-- `EDA_OPENSTA_HOLD_AFTER_START_SECONDS`. -/
  | hold
  | communicate
  /-- `TimeoutExpired`: SIGTERM is next. -/
  | terminate
  /-- `communicate(timeout=termination_grace_seconds)`. -/
  | grace
  /-- The grace is over: SIGKILL is next. -/
  | kill
  /-- `communicate()`. -/
  | wait
  /-- The outputs are written and `TimeoutError` is raised. -/
  | timedOut (t : Termination)
  /-- `finally`, after `communicate` returned. -/
  | unregister
  /-- `spec.job_id in self._cancelled_jobs`. -/
  | collect
  | cancelled
  | report
  | ended
  deriving DecidableEq

/-- The adapter as one job sees it: its call of `run`, the child of that call, whether the job is in `_cancelled_jobs`, and
how many children were started for it. -/
structure AdapterCall where
  pc        : AdapterPc := .prepare
  child     : Option Popen := none
  cancelled : Bool := false
  spawned   : Nat := 0

/-- What `run` depends on outside. -/
inductive RunInput
  | ok
  /-- An exception that is not a timeout: of a check, a file, an observer, a decoding. -/
  | fail (message : String)
  | spawn (pid group : Nat) (identity : Option String)
  /-- `TimeoutExpired`. -/
  | expire
  /-- Whether the group could be signalled, or was gone; otherwise `PermissionError`. -/
  | signal (permitted : Bool)
  /-- The report is written: its path, the digests of the inputs and what `parse_report` will make of it. -/
  | report (artifact : String) (sha256 : String → String) (parsed : Except String ParseResult)

namespace AdapterCall

variable (c : AdapterCall)

/-- `self._processes` has the child. -/
def registered : Bool :=
  match c.pc with
  | .communicate | .terminate | .grace | .kill | .wait | .timedOut _ | .unregister => true
  | _                                                                             => false

/-- The next call of `run` for the job. -/
def enter : AdapterCall := { c with pc := .prepare, child := none }

def moveTo (pc : AdapterPc) : Option (AdapterCall × Option Input) := some ({ c with pc := pc }, none)

def throw (e : AdapterError) : Option (AdapterCall × Option Input) := some ({ c with pc := .ended }, some (.raised e))

/-- `communicate` has waited for the child. -/
def waited : Option AdapterCall := (c.child.bind Popen.wait).map (fun p => { c with child := some p })

/-- The child ends. -/
def exit (code : Int) : Option AdapterCall :=
  match c.child with
  | none   => none
  | some p => if p.isRunning then some { c with child := some { p with state := .exited code } } else none

/-- `cancel`, and what it returns, or none where the signal is refused.  `polled` is whether `poll()` saw the exit of a
child that nobody has waited for. -/
def cancel (polled permitted : Bool) : AdapterCall × Option Bool :=
  match c.registered, c.child with
  | true, some p =>
    match p.state with
    | .reaped _    => (c, some false)
    | .exited code =>
      if polled then ({ c with child := some { p with state := .reaped code } }, some false)
      else ({ c with cancelled := true }, if permitted then some true else none)
    | .running     => ({ c with cancelled := true }, if permitted then some true else none)
  | _, _ => (c, some false)

/-- The observer of the party that made the call returned, or raised. -/
def notified (returned : Bool) : AdapterCall := { c with pc := if returned then .hold else .ended }

end AdapterCall

namespace OpenStaSubprocessAdapter

variable (a : OpenStaSubprocessAdapter)

def fixture (name : String) : String := a.fixtureDir ++ "/" ++ name

def sdc : Option String := if truthy a.sdcName then a.sdcName.map a.fixture else none

def netlist : String := a.netlistPath.getD (a.fixture "tiny_mapped.v")

def executionProvenance (sha256 : String → String) : Document :=
  [("command_template_id", .str "opensta-fixed-fixture-v1"),
   ("tool_path", .str a.staPath),
   ("liberty_sha256", .str (sha256 a.libertyPath)),
   ("script_sha256", .str (sha256 (a.fixture a.scriptName))),
   ("sdc_sha256", a.sdc.elim .null (fun p => .str (sha256 p))),
   ("netlist_sha256", .str (sha256 a.netlist))]

def timeoutMessage (p : Popen) (t : Termination) : String :=
  "OpenSTA timed out after " ++ a.timeoutSeconds.str ++ "s; pid=" ++ toString p.pid ++ "; termination=" ++ t.text

def cancellationMessage (p : Popen) : String := "OpenSTA cancellation observed; pid=" ++ toString p.pid

def permissionMessage : String := "[Errno 1] Operation not permitted"

/-- A step of `run`. -/
def advance (inp : RunInput) (c : AdapterCall) : Option (AdapterCall × Option Input) :=
  match c.pc, inp with
  | .prepare, .fail m => c.throw (.other m)
  | .prepare, .spawn pid group identity =>
    some ({ c with pc := .observe, child := some ⟨pid, group, identity, .running⟩, spawned := c.spawned + 1 }, none)
  | .observe, .fail m => c.throw (.other m)
  | .observe, .ok => c.child.map (fun p => ({ c with pc := .notify }, some (.child p.pid p.group p.identity)))
  | .hold, .fail m => c.throw (.other m)
  | .hold, .ok => c.moveTo .communicate
  | .communicate, .ok => c.waited.bind (·.moveTo .unregister)
  | .communicate, .fail m => c.waited.bind (·.throw (.other m))
  | .communicate, .expire => c.moveTo .terminate
  | .terminate, .signal true => c.moveTo .grace
  | .terminate, .signal false => c.throw (.other permissionMessage)
  | .grace, .ok => c.waited.bind (·.moveTo (.timedOut .sigterm))
  | .grace, .fail m => c.waited.bind (·.throw (.other m))
  | .grace, .expire => c.moveTo .kill
  | .kill, .signal true => c.moveTo .wait
  | .kill, .signal false => c.throw (.other permissionMessage)
  | .wait, .ok => c.waited.bind (·.moveTo (.timedOut .sigkill))
  | .wait, .fail m => c.waited.bind (·.throw (.other m))
  | .timedOut t, .ok => c.child.bind (fun p => c.throw (.timeout (a.timeoutMessage p t)))
  | .timedOut _, .fail m => c.throw (.other m)
  | .unregister, .ok => c.moveTo .collect
  | .collect, .ok => if c.cancelled then { c with cancelled := false }.moveTo .cancelled else c.moveTo .report
  | .cancelled, .ok => c.child.bind (fun p => c.throw (.cancelled (cancellationMessage p)))
  | .cancelled, .fail m => c.throw (.other m)
  | .report, .fail m => c.throw (.other m)
  | .report, .report artifact sha256 parsed =>
    c.child.map (fun p => ({ c with pc := .ended },
      some (.returned ⟨.result ⟨artifact, p.returncode, some (a.executionProvenance sha256)⟩, parsed⟩)))
  | _, _ => none

end OpenStaSubprocessAdapter

/-! ## What a call leaves of its child -/

/-- Before the child is in `_processes`. -/
def AdapterPc.isStarting : AdapterPc → Bool
  | .observe | .notify | .hold => true
  | _                          => false

/-- After `communicate`. -/
def AdapterPc.isWaited : AdapterPc → Bool
  | .timedOut _ | .unregister | .collect | .cancelled | .report => true
  | _                                                           => false

namespace AdapterCall

/-- The call has no child that is not reaped. -/
def Down (c : AdapterCall) : Prop := ∀ p, c.child = some p → p.isReaped = true

structure Wf (c : AdapterCall) : Prop where
  unspawned : c.pc = .prepare → c.child = none
  starting : c.pc.isStarting = true → ∃ p, c.child = some p ∧ p.isReaped = false
  waited : c.pc.isWaited = true → c.Down

/-- The step raises past a child that is not reaped. -/
def Abandons (c : AdapterCall) : RunInput → Prop
  | .fail _           => c.pc = .observe ∨ c.pc = .hold
  | .signal permitted => permitted = false ∧ (c.pc = .terminate ∨ c.pc = .kill) ∧ ¬ c.Down
  | _                 => False

theorem Abandons.pc {c : AdapterCall} {inp : RunInput} (h : c.Abandons inp) :
    c.pc ≠ .prepare ∧ c.pc ≠ .notify ∧ c.pc ≠ .ended := by
  have hcases : c.pc = .observe ∨ c.pc = .hold ∨ c.pc = .terminate ∨ c.pc = .kill := by
    cases inp with
    | fail m => exact h.elim Or.inl (fun hpc => Or.inr (Or.inl hpc))
    | signal permitted => exact Or.inr (Or.inr h.2.1)
    | _ => cases h
  rcases hcases with hpc | hpc | hpc | hpc
  · exact ⟨by simp [hpc], by simp [hpc], by simp [hpc]⟩
  · exact ⟨by simp [hpc], by simp [hpc], by simp [hpc]⟩
  · exact ⟨by simp [hpc], by simp [hpc], by simp [hpc]⟩
  · exact ⟨by simp [hpc], by simp [hpc], by simp [hpc]⟩

theorem wf_enter (c : AdapterCall) : c.enter.Wf where
  unspawned _ := rfl
  starting h := by cases h
  waited h := by cases h

theorem waited_eq {c c' : AdapterCall} (h : c.waited = some c') :
    ∃ p, c' = { c with child := some p } ∧ p.isReaped = true ∧ c.child.isSome = true := by
  unfold waited at h
  cases hchild : c.child with
  | none =>
    rw [hchild] at h
    cases h
  | some p =>
    rw [hchild, Option.bind_some] at h
    obtain ⟨q, hq, rfl⟩ := Option.map_eq_some_iff.1 h
    refine ⟨q, rfl, ?_, rfl⟩
    unfold Popen.wait at hq
    unfold Popen.isReaped
    cases hstate : p.state with
    | running =>
      rw [hstate] at hq
      cases hq
    | exited code =>
      rw [hstate] at hq
      cases hq
      rfl
    | reaped code =>
      rw [hstate] at hq
      cases hq
      rw [hstate]

theorem down_of_reaped {c : AdapterCall} {p : Popen} (hchild : c.child = some p) (hp : p.isReaped = true) : c.Down := by
  intro q hq
  rw [hchild] at hq
  cases hq
  exact hp

theorem down_of_none {c : AdapterCall} (hchild : c.child = none) : c.Down := by
  intro q hq
  rw [hchild] at hq
  cases hq

theorem Wf.not_down {c : AdapterCall} (hw : c.Wf) (hpc : c.pc.isStarting = true) : ¬ c.Down := by
  intro hdown
  obtain ⟨p, hp, hreaped⟩ := hw.starting hpc
  rw [hdown p hp] at hreaped
  cases hreaped

/-- What a step has to leave: a call in order, and no child behind it once it has ended. -/
structure Kept (c : AdapterCall) : Prop where
  wf : c.Wf
  ended : c.pc = .ended → c.Down

section Step

variable {c c' : AdapterCall} {i : Option Input}

theorem throw_kept {e : AdapterError} (h : c.throw e = some (c', i)) (hdown : c.Down) : c'.Kept := by
  cases h
  refine ⟨⟨fun hpc => ?_, fun hpc => ?_, fun hpc => ?_⟩, fun _ => hdown⟩
  · cases hpc
  · cases hpc
  · cases hpc

theorem moveTo_kept {pc : AdapterPc} (h : c.moveTo pc = some (c', i)) (hprepare : pc ≠ .prepare)
    (hstarting : pc.isStarting = false) (hdown : pc.isWaited = true ∨ pc = .ended → c.Down) : c'.Kept := by
  cases h
  refine ⟨⟨fun hpc => absurd hpc hprepare, fun hpc => ?_, fun hpc => hdown (Or.inl hpc)⟩, fun hpc => hdown (Or.inr hpc)⟩
  simp only at hpc
  rw [hstarting] at hpc
  cases hpc

/-- On the way through `communicate`. -/
theorem passTo_kept {pc : AdapterPc} (h : c.moveTo pc = some (c', i)) (hprepare : pc ≠ .prepare)
    (hstarting : pc.isStarting = false) (hwaited : pc.isWaited = false) (hended : pc ≠ .ended) : c'.Kept := by
  refine moveTo_kept h hprepare hstarting ?_
  rintro (hpc | hpc)
  · rw [hwaited] at hpc
    cases hpc
  · exact absurd hpc hended

theorem waited_bind {f : AdapterCall → Option (AdapterCall × Option Input)} (h : c.waited.bind f = some (c', i)) :
    ∃ p, p.isReaped = true ∧ f { c with child := some p } = some (c', i) := by
  obtain ⟨d, hd, hf⟩ := Option.bind_eq_some_iff.1 h
  obtain ⟨p, rfl, hp, _⟩ := waited_eq hd
  exact ⟨p, hp, hf⟩

theorem waited_throw_kept {e : AdapterError} (h : c.waited.bind (·.throw e) = some (c', i)) : c'.Kept := by
  obtain ⟨p, hp, h⟩ := waited_bind h
  exact throw_kept h (down_of_reaped rfl hp)

theorem waited_moveTo_kept {pc : AdapterPc} (h : c.waited.bind (·.moveTo pc) = some (c', i)) (hprepare : pc ≠ .prepare)
    (hstarting : pc.isStarting = false) : c'.Kept := by
  obtain ⟨p, hp, h⟩ := waited_bind h
  exact moveTo_kept h hprepare hstarting (fun _ => down_of_reaped rfl hp)

/-- A step that does not raise past a child leaves none behind. -/
theorem advance_kept {a : OpenStaSubprocessAdapter} {inp : RunInput} (h : a.advance inp c = some (c', i)) (hw : c.Wf)
    (hno : ¬ c.Abandons inp) : c'.Kept := by
  unfold OpenStaSubprocessAdapter.advance at h
  split at h
  case h_1 hpc => exact throw_kept h (down_of_none (hw.unspawned hpc))
  case h_2 pid group identity hpc =>
    cases h
    refine ⟨⟨fun hpc => ?_, fun _ => ⟨_, rfl, rfl⟩, fun hpc => ?_⟩, fun hpc => ?_⟩
    · cases hpc
    · cases hpc
    · cases hpc
  case h_3 hpc => exact absurd (Or.inl hpc) hno
  case h_4 hpc =>
    have hup := hw.starting (by rw [hpc]; rfl)
    obtain ⟨p, _, h⟩ := Option.map_eq_some_iff.1 h
    cases h
    refine ⟨⟨fun hpc => ?_, fun _ => hup, fun hpc => ?_⟩, fun hpc => ?_⟩
    · cases hpc
    · cases hpc
    · cases hpc
  case h_5 hpc => exact absurd (Or.inr hpc) hno
  case h_6 => exact passTo_kept h (by decide) rfl rfl (by decide)
  case h_7 => exact waited_moveTo_kept h (by decide) rfl
  case h_8 => exact waited_throw_kept h
  case h_9 => exact passTo_kept h (by decide) rfl rfl (by decide)
  case h_10 => exact passTo_kept h (by decide) rfl rfl (by decide)
  case h_11 hpc =>
    have hdown : c.Down := by
      by_contra hdown
      exact hno ⟨rfl, Or.inl hpc, hdown⟩
    exact throw_kept h hdown
  case h_12 => exact waited_moveTo_kept h (by decide) rfl
  case h_13 => exact waited_throw_kept h
  case h_14 => exact passTo_kept h (by decide) rfl rfl (by decide)
  case h_15 => exact passTo_kept h (by decide) rfl rfl (by decide)
  case h_16 hpc =>
    have hdown : c.Down := by
      by_contra hdown
      exact hno ⟨rfl, Or.inr hpc, hdown⟩
    exact throw_kept h hdown
  case h_17 => exact waited_moveTo_kept h (by decide) rfl
  case h_18 => exact waited_throw_kept h
  case h_19 t hpc =>
    have hdown : c.Down := hw.waited (by rw [hpc]; rfl)
    obtain ⟨p, _, h⟩ := Option.bind_eq_some_iff.1 h
    exact throw_kept h hdown
  case h_20 t hpc => exact throw_kept h (hw.waited (by rw [hpc]; rfl))
  case h_21 hpc => exact moveTo_kept h (by decide) rfl (fun _ => hw.waited (by rw [hpc]; rfl))
  case h_22 hpc =>
    have hdown : c.Down := hw.waited (by rw [hpc]; rfl)
    by_cases hc : c.cancelled = true
    · rw [if_pos hc] at h
      exact moveTo_kept h (by decide) rfl (fun _ => hdown)
    · rw [if_neg hc] at h
      exact moveTo_kept h (by decide) rfl (fun _ => hdown)
  case h_23 hpc =>
    have hdown : c.Down := hw.waited (by rw [hpc]; rfl)
    obtain ⟨p, _, h⟩ := Option.bind_eq_some_iff.1 h
    exact throw_kept h hdown
  case h_24 hpc => exact throw_kept h (hw.waited (by rw [hpc]; rfl))
  case h_25 hpc => exact throw_kept h (hw.waited (by rw [hpc]; rfl))
  case h_26 artifact sha256 parsed hpc =>
    have hdown : c.Down := hw.waited (by rw [hpc]; rfl)
    obtain ⟨p, _, h⟩ := Option.map_eq_some_iff.1 h
    cases h
    refine ⟨⟨fun hpc => ?_, fun hpc => ?_, fun hpc => ?_⟩, fun _ => hdown⟩
    · cases hpc
    · cases hpc
    · cases hpc
  case h_27 => cases h

/-- A step that raises past a child that is not reaped leaves it. -/
theorem advance_abandons (a : OpenStaSubprocessAdapter) {inp : RunInput} (hw : c.Wf) (habandons : c.Abandons inp) :
    ∃ c' m, a.advance inp c = some (c', some (.raised (.other m))) ∧ c'.pc = .ended ∧ ¬ c'.Down := by
  unfold OpenStaSubprocessAdapter.advance
  cases inp with
  | fail m =>
    rcases habandons with hpc | hpc
    · have hdown := hw.not_down (by rw [hpc]; rfl)
      rw [hpc]
      exact ⟨_, m, rfl, rfl, hdown⟩
    · have hdown := hw.not_down (by rw [hpc]; rfl)
      rw [hpc]
      exact ⟨_, m, rfl, rfl, hdown⟩
  | signal permitted =>
    obtain ⟨rfl, hpc | hpc, hdown⟩ := habandons
    · rw [hpc]
      exact ⟨_, _, rfl, rfl, hdown⟩
    · rw [hpc]
      exact ⟨_, _, rfl, rfl, hdown⟩
  | ok => cases habandons
  | spawn pid group identity => cases habandons
  | expire => cases habandons
  | report artifact sha256 parsed => cases habandons

theorem wf_of_ended (h : c.pc = .ended) : c.Wf := by
  refine ⟨fun hpc => ?_, fun hpc => ?_, fun hpc => ?_⟩
  · rw [h] at hpc
    cases hpc
  · rw [h] at hpc
    cases hpc
  · rw [h] at hpc
    cases hpc

theorem advance_wf {a : OpenStaSubprocessAdapter} {inp : RunInput} (h : a.advance inp c = some (c', i)) (hw : c.Wf) :
    c'.Wf := by
  by_cases habandons : c.Abandons inp
  · obtain ⟨d, m, hd, hended, _⟩ := advance_abandons a hw habandons
    rw [h] at hd
    cases hd
    exact wf_of_ended hended
  · exact (advance_kept h hw habandons).wf

/-- What a step hands out, and where the call then stands. -/
inductive Emits (c : AdapterCall) : Option Input → Prop
  | quiet (not_notify : c.pc ≠ .notify) (not_ended : c.pc ≠ .ended) : Emits c none
  | child (pid group : Nat) (identity : Option String) (notify : c.pc = .notify) : Emits c (some (.child pid group identity))
  | raised (e : AdapterError) (ended : c.pc = .ended) : Emits c (some (.raised e))
  | returned (x : AdapterRunResult) (parsed : Except String ParseResult) (ended : c.pc = .ended) :
    Emits c (some (.returned ⟨.result x, parsed⟩))

theorem throw_emits {e : AdapterError} (h : c.throw e = some (c', i)) : c'.Emits i := by
  cases h
  exact .raised e rfl

theorem moveTo_emits {pc : AdapterPc} (h : c.moveTo pc = some (c', i)) (hnotify : pc ≠ .notify) (hended : pc ≠ .ended) :
    c'.Emits i := by
  cases h
  exact .quiet hnotify hended

theorem advance_emits {a : OpenStaSubprocessAdapter} {inp : RunInput} (h : a.advance inp c = some (c', i)) :
    c'.Emits i := by
  unfold OpenStaSubprocessAdapter.advance at h
  split at h
  case h_2 =>
    cases h
    exact .quiet AdapterPc.noConfusion AdapterPc.noConfusion
  case h_4 =>
    obtain ⟨p, _, h⟩ := Option.map_eq_some_iff.1 h
    cases h
    exact .child p.pid p.group p.identity rfl
  case h_7 | h_12 | h_17 =>
    obtain ⟨p, _, h⟩ := waited_bind h
    exact moveTo_emits h AdapterPc.noConfusion AdapterPc.noConfusion
  case h_8 | h_13 | h_18 =>
    obtain ⟨p, _, h⟩ := waited_bind h
    exact throw_emits h
  case h_6 | h_9 | h_10 | h_14 | h_15 | h_21 => exact moveTo_emits h AdapterPc.noConfusion AdapterPc.noConfusion
  case h_19 | h_23 =>
    obtain ⟨p, _, h⟩ := Option.bind_eq_some_iff.1 h
    exact throw_emits h
  case h_22 =>
    by_cases hc : c.cancelled = true
    · rw [if_pos hc] at h
      exact moveTo_emits h AdapterPc.noConfusion AdapterPc.noConfusion
    · rw [if_neg hc] at h
      exact moveTo_emits h AdapterPc.noConfusion AdapterPc.noConfusion
  case h_26 =>
    obtain ⟨p, _, h⟩ := Option.map_eq_some_iff.1 h
    cases h
    exact .returned _ _ rfl
  case h_27 => cases h
  all_goals exact throw_emits h

/-- What the child and other threads do leaves the call where it stands. -/
structure Beside (c c' : AdapterCall) : Prop where
  pc : c'.pc = c.pc
  wf : c.Wf → c'.Wf
  down : c.Down → c'.Down
  childless : c.child = none → c'.child = none
  spawned : c'.spawned = c.spawned

theorem exit_beside {code : Int} (h : c.exit code = some c') : c.Beside c' := by
  unfold exit at h
  by_cases hsome : ∃ p, c.child = some p
  · obtain ⟨p, hp⟩ := hsome
    simp only [hp] at h
    by_cases hrunning : p.isRunning = true
    · rw [if_pos hrunning] at h
      cases h
      have hup : ¬ c.Down := by
        intro hdown
        have hreaped := hdown p hp
        unfold Popen.isRunning at hrunning
        unfold Popen.isReaped at hreaped
        rw [of_decide_eq_true hrunning] at hreaped
        cases hreaped
      have hsome : c.child ≠ none := by simp [hp]
      refine ⟨rfl, fun hw => ⟨fun hpc => ?_, fun _ => ⟨_, rfl, rfl⟩, fun hpc => ?_⟩, fun hdown => ?_, fun hnone => ?_, rfl⟩
      · exact absurd (hw.unspawned hpc) hsome
      · exact absurd (hw.waited hpc) hup
      · exact absurd hdown hup
      · exact absurd hnone hsome
    · rw [if_neg hrunning] at h
      cases h
  · have hnone : c.child = none := Option.eq_none_iff_forall_ne_some.2 (fun p hp => hsome ⟨p, hp⟩)
    simp only [hnone] at h
    cases h

/-- What `cancel` can do: nothing, to reap the child it polls, or to take the request. -/
inductive CancelStep (c : AdapterCall) (polled permitted : Bool) : Prop
  | idle (eq : c.cancel polled permitted = (c, some false))
  | polled (p : Popen) (code : Int) (isRegistered : c.registered = true) (hasChild : c.child = some p)
      (eq : c.cancel polled permitted = ({ c with child := some { p with state := .reaped code } }, some false))
  | took (p : Popen) (isRegistered : c.registered = true) (hasChild : c.child = some p) (up : p.isReaped = false)
      (eq : c.cancel polled permitted = ({ c with cancelled := true }, if permitted then some true else none))

theorem cancel_cases (c : AdapterCall) (polled permitted : Bool) : CancelStep c polled permitted := by
  have hup : ∀ p : Popen, (∀ code, p.state ≠ .reaped code) → p.isReaped = false := by
    intro p hp
    unfold Popen.isReaped
    generalize p.state = st at hp
    cases st with
    | reaped code => exact absurd rfl (hp code)
    | running => rfl
    | exited code => rfl
  by_cases hreg : c.registered = true
  · by_cases hsome : ∃ p, c.child = some p
    · obtain ⟨p, hp⟩ := hsome
      cases hstate : p.state with
      | reaped code => exact .idle (by simp only [cancel, hreg, hp, hstate])
      | running =>
        exact .took p hreg hp (hup p (by simp [hstate])) (by simp only [cancel, hreg, hp, hstate])
      | exited code =>
        by_cases hpolled : polled = true
        · exact .polled p code hreg hp (by simp only [cancel, hreg, hp, hstate, if_pos hpolled])
        · exact .took p hreg hp (hup p (by simp [hstate])) (by simp only [cancel, hreg, hp, hstate, if_neg hpolled])
    · have hnone : c.child = none := Option.eq_none_iff_forall_ne_some.2 (fun p hp => hsome ⟨p, hp⟩)
      exact .idle (by simp only [cancel, hreg, hnone])
  · simp only [Bool.not_eq_true] at hreg
    exact .idle (by simp only [cancel, hreg])

theorem registered_not_starting (hreg : c.registered = true) : c.pc ≠ .prepare ∧ c.pc.isStarting = false := by
  unfold registered at hreg
  generalize c.pc = pc at hreg
  cases pc with
  | communicate | terminate | grace | kill | wait | timedOut _ | unregister => exact ⟨AdapterPc.noConfusion, rfl⟩
  | _ => cases hreg

/-- `cancel` reaps at most the child that it polls, and only one that is in `_processes`. -/
theorem cancel_beside (c : AdapterCall) (polled permitted : Bool) : c.Beside (c.cancel polled permitted).1 := by
  cases cancel_cases c polled permitted with
  | idle heq =>
    rw [heq]
    exact ⟨rfl, id, id, id, rfl⟩
  | polled p code hreg hp heq =>
    obtain ⟨hprepare, hstarting⟩ := registered_not_starting hreg
    have hdown : ({ c with child := some { p with state := .reaped code } } : AdapterCall).Down := down_of_reaped rfl rfl
    have hsome : c.child ≠ none := by simp [hp]
    rw [heq]
    refine ⟨rfl, fun hw => ⟨fun hpc => absurd hpc hprepare, fun hpc => ?_, fun _ => hdown⟩, fun _ => hdown,
      fun hnone => absurd hnone hsome, rfl⟩
    simp only at hpc
    rw [hstarting] at hpc
    cases hpc
  | took p hreg hp hup heq =>
    rw [heq]
    exact ⟨rfl, fun hw => ⟨hw.unspawned, hw.starting, hw.waited⟩, id, id, rfl⟩

end Step

end AdapterCall

end EdaLab
