import EdaLab.Orphan
import EdaLab.RecoveryClaim
/-!
# OrphanSignal — whom recovery sends `SIGTERM`

A scan signals the group it read with the Run, once `ps` has shown it the process that leads the group now.  Where the
worker recorded the `ps` line of its child, no process of another line is taken for it; where it recorded none, any
process of the number is (`recovery_signals_stranger`).  `signals_own_child_iff` says exactly which signals reach the
Attempt's own child under its claim.
-/
namespace EdaLab

open Relational

/-! ## Signals -/

/-- A `SIGTERM` to a process group that was delivered: the thread that scans, the Run and the Attempt it read, its claim,
the number it asked `ps` about. -/
structure Signal where
  thread  : Nat
  run     : Snapshot
  attempt : AttemptRow
  token   : String
  pid     : Nat
  deriving DecidableEq

/-- The Attempt the signal is for. -/
def Signal.key (g : Signal) : String × Nat := (g.run.jobId, g.attempt.attemptNo)

def RecoverPc.signal (i : Nat) : RecoverPc → Option Signal
  | .kill _ run a t pid => some ⟨i, run, a, t, pid⟩
  | _                   => none

/-- `os.killpg(attempt["process_group_id"], signal.SIGTERM)` returned. -/
def Sys.signal (s : Sys) : Act → Option Signal
  | .advance i _ _ (.signal true) => (s.threads i).recovery.bind (RecoverPc.signal i)
  | _                             => none

theorem Sys.signal_cases {s : Sys} {act : Act} {g : Signal} (h : s.signal act = some g) :
    ∃ sc k fresh, act = .advance g.thread k fresh (.signal true) ∧
      (s.threads g.thread).recovery = some (.kill sc g.run g.attempt g.token g.pid) := by
  unfold signal at h
  split at h
  · rename_i i k fresh
    obtain ⟨r, hr, hg⟩ := Option.bind_eq_some_iff.1 h
    cases r with
    | kill sc run a t pid =>
      cases hg
      exact ⟨sc, k, fresh, rfl, hr⟩
    | _ => cases hg
  · cases h

/-! ## The host -/

/-- What is recorded of an observation. -/
def Observation.columns (o : Observation) : ProcessColumns :=
  ⟨some o.child.pid, o.identity, o.processGroupId, some o.orphanDeadline⟩

/-- A process that was started, and the Attempt whose execution started it. -/
structure HostProcess where
  process : Process
  attempt : Option (String × Nat)
  deriving DecidableEq

/-- The Attempt of an execution that is inside `adapter.run`. -/
def Thread.adapterAttempt : Thread → Option (String × Nat)
  | .exec _ spec (.adapter n _) => some (spec.jobId, n)
  | _                           => Option.none

/-- The process a step starts. -/
def Sys.starts (cfg : Config) (s : Sys) : Act → Option HostProcess
  | .spawn _ group identity => some ⟨⟨s.births, group, identity⟩, none⟩
  | .advance i k fresh inp  =>
    match (s.threads i).advance cfg s k fresh inp with
    | some (_, .child _ group identity) => some ⟨⟨s.births, group, identity⟩, (s.threads i).adapterAttempt⟩
    | _                                 => none
  | _                       => none

/-- The thread a step gives the answer of `ps`. -/
def Act.asked : Act → Option Nat
  | .advance i _ _ (.ps _) => some i
  | _                      => none

/-- The child an execution is about to observe. -/
def Thread.spawned : Thread → Option Child
  | .exec _ _ (.spawned _ _ c) => some c
  | _                          => Option.none

/-- The system, with what is on no row: the processes started so far, the observations `record_attempt_process` accepted,
the expiry of each thread's last claim, and the process its last `ps` looked at. -/
structure SameHost where
  sys          : Sys
  started      : List HostProcess
  recordings   : List ((String × Nat) × Observation)
  claimedUntil : Nat → Time
  inspected    : Nat → Option Nat

namespace SameHost

variable (cfg : Config) (w : SameHost)

def init : SameHost where
  sys := Sys.init
  started := []
  recordings := []
  claimedUntil _ := 0
  inspected _ := none

/-- The observation a call records, if it is accepted. -/
def records : Act → Option ((String × Nat) × Observation)
  | .call i _ locked =>
    match w.sys.threads i, (w.sys.threads i).op cfg w.sys locked with
    | .exec _ spec (.observe n _ o), some op =>
      if op.reply cfg.backend w.sys.clock w.sys.db = .flag true then some ((spec.jobId, n), o) else none
    | _, _ => none
  | _ => none

/-- The thread that claims, and until when. -/
def claims : Act → Option (Nat × Time)
  | .call i _ locked =>
    match (w.sys.threads i).op cfg w.sys locked with
    | some (.claimRecovery _ _ _ _ ttl) => some (i, w.sys.clock + ttl)
    | _                                 => none
  | _ => none

/-- The scan that asks `ps`, and the process it is told of. -/
def inspects : Act → Option (Nat × Option Nat)
  | .advance i _ _ (.ps _) =>
    match (w.sys.threads i).recovery with
    | some (.inspect _ _ _ _ pid) => some (i, (w.sys.processes pid).map (·.birth))
    | _                           => none
  | _ => none

/-- `f` with the value noted for a thread, if there is one. -/
def noted {β : Type} (f : Nat → β) : Option (Nat × β) → Nat → β
  | some (i, x) => Function.update f i x
  | none        => f

def step (a : Act) : Option SameHost :=
  (Sys.step cfg w.sys a).map (fun s' =>
    { sys := s'
      started := w.started ++ (w.sys.starts cfg a).toList
      recordings := w.recordings ++ (w.records cfg a).toList
      claimedUntil := noted w.claimedUntil (w.claims cfg a)
      inspected := noted w.inspected (w.inspects a) })

/-! ## What the host does -/

/-- A new process shows a `ps` line that no other process has shown. -/
def LinesDiffer (a : Act) : Prop :=
  ∀ x ∈ w.sys.starts cfg a, ∀ y ∈ w.started, x.process.identity.isSome = true → x.process.identity ≠ y.process.identity

/-- The number of a child is its own until its worker has asked `ps` about it: a child that died is a zombie until its
parent waits for it, which comes later. -/
def LooksAtChild (a : Act) : Prop :=
  ∀ i ∈ a.asked, ∀ c ∈ (w.sys.threads i).spawned, ∀ p ∈ w.sys.processes c.pid, p.birth = c.birth

/-- The signal of a step is sent for an Attempt whose `process_identity` was recorded, within the recovery lease, to the
process that `ps` was asked about. -/
def SureSignal (a : Act) : Prop :=
  ∀ g ∈ w.sys.signal a, g.attempt.processIdentity.isSome = true ∧ w.sys.clock ≤ w.claimedUntil g.thread ∧
    (w.sys.processes g.pid).map (·.birth) = w.inspected g.thread

/-- The claim stands, the orphan deadline has passed, and the group is led by a process that the Attempt's own execution
started and put on record just as the scan read it, with this deadline. -/
structure Owns (g : Signal) : Prop where
  held : ∃ until_, HeldBy g.key g.token until_ w.sys.db ∧ w.sys.clock ≤ until_
  orphaned : g.attempt.orphaned w.sys.clock
  leads : ∃ group p o, g.attempt.processGroupId = some group ∧ w.sys.processes group = some p ∧ p.group = group ∧
    ⟨p, some g.key⟩ ∈ w.started ∧ (g.key, o) ∈ w.recordings ∧ o.child = ⟨group, p.birth⟩ ∧
    g.attempt.process = o.columns

/-- Where the step signals a group, it is the Attempt's own. -/
def SignalsOwnChild (a : Act) : Prop := ∀ g ∈ w.sys.signal a, w.Owns g

/-- The number that the signal goes to is still that of the child of which the record was made. -/
def ChildThere (g : Signal) : Prop :=
  ∃ x ∈ w.recordings, x.1 = g.key ∧ g.attempt.process = x.2.columns ∧
    (w.sys.processes g.pid).map (·.birth) = some x.2.child.birth

/-- The signal of a step is sent within the recovery lease; where a `ps` line is on record, the process that `ps` was asked
about is still there, and where none is, no other process has got the number of the child. -/
def SignalsKnown (a : Act) : Prop :=
  ∀ g ∈ w.sys.signal a, w.sys.clock ≤ w.claimedUntil g.thread ∧
    (g.attempt.processIdentity.isSome = true → (w.sys.processes g.pid).map (·.birth) = w.inspected g.thread) ∧
    (g.attempt.processIdentity = none → w.ChildThere g)

instance (a : Act) : Decidable (w.LinesDiffer cfg a) :=
  inferInstanceAs (Decidable (∀ x ∈ w.sys.starts cfg a, ∀ y ∈ w.started,
    x.process.identity.isSome = true → x.process.identity ≠ y.process.identity))

instance (a : Act) : Decidable (w.LooksAtChild a) :=
  inferInstanceAs (Decidable (∀ i ∈ a.asked, ∀ c ∈ (w.sys.threads i).spawned, ∀ p ∈ w.sys.processes c.pid,
    p.birth = c.birth))

instance (a : Act) : Decidable (w.SureSignal a) :=
  inferInstanceAs (Decidable (∀ g ∈ w.sys.signal a, g.attempt.processIdentity.isSome = true ∧
    w.sys.clock ≤ w.claimedUntil g.thread ∧ (w.sys.processes g.pid).map (·.birth) = w.inspected g.thread))

instance (g : Signal) : Decidable (w.ChildThere g) :=
  inferInstanceAs (Decidable (∃ x ∈ w.recordings, x.1 = g.key ∧ g.attempt.process = x.2.columns ∧
    (w.sys.processes g.pid).map (·.birth) = some x.2.child.birth))

instance (a : Act) : Decidable (w.SignalsKnown a) :=
  inferInstanceAs (Decidable (∀ g ∈ w.sys.signal a, w.sys.clock ≤ w.claimedUntil g.thread ∧
    (g.attempt.processIdentity.isSome = true → (w.sys.processes g.pid).map (·.birth) = w.inspected g.thread) ∧
    (g.attempt.processIdentity = none → w.ChildThere g)))

end SameHost

/-! ## Processes and observations -/

section Step

variable {cfg : Config} {s s' : Sys} {a : Act}

/-- A step starts at most the process that `starts` names, and gives it the next birth. -/
theorem starts_after (h : Sys.step cfg s a = some s') :
    (∀ pid p, s'.processes pid = some p → s.processes pid = some p ∨ ∃ k, s.starts cfg a = some ⟨p, k⟩) ∧
    ∀ x, s.starts cfg a = some x → x.process.birth = s.births ∧ s'.births = s.births + 1 := by
  have hborn : ∀ pid group identity k pid' p, s.starts cfg a = some ⟨⟨s.births, group, identity⟩, k⟩ →
      Function.update s.processes pid (some ⟨s.births, group, identity⟩) pid' = some p →
      s.processes pid' = some p ∨ ∃ k, s.starts cfg a = some ⟨p, k⟩ := by
    intro pid group identity k pid' p hstarts hp
    by_cases hpid : pid' = pid
    · subst hpid
      rw [Function.update_self] at hp
      cases hp
      exact Or.inr ⟨k, hstarts⟩
    · rw [Function.update_of_ne hpid] at hp
      exact Or.inl hp
  cases Sys.step_cases h with
  | spawn pid group identity =>
    refine ⟨fun pid' p hp => hborn pid group identity none pid' p rfl hp, fun x hx => ?_⟩
    cases hx
    exact ⟨rfl, rfl⟩
  | exit pid =>
    refine ⟨fun pid' p hp => Or.inl ?_, fun x hx => by cases hx⟩
    by_cases hpid : pid' = pid
    · subst hpid
      simp only [Function.update_self] at hp
      cases hp
    · simpa only [Function.update_of_ne hpid] using hp
  | call i fresh locked op _ hc =>
    rw [hc.processes_eq]
    exact ⟨fun pid p hp => Or.inl hp, fun x hx => by cases hx⟩
  | advance i k fresh inp th eff _ hadv happ =>
    have hstarts : ∀ x, s.starts cfg (.advance i k fresh inp) = some x →
        ∃ pid group identity, eff = .child pid group identity ∧ x.process.birth = s.births := by
      intro x hx
      simp only [Sys.starts, hadv.advance_eq] at hx
      cases eff with
      | child pid group identity => cases hx; exact ⟨pid, group, identity, rfl, rfl⟩
      | _ => cases hx
    cases happ with
    | child pid group identity =>
      refine ⟨fun pid' p hp => ?_, fun x hx => ?_⟩
      · refine hborn pid group identity (s.threads i).adapterAttempt pid' p ?_ hp
        simp only [Sys.starts, hadv.advance_eq]
      · obtain ⟨-, -, -, -, hbirth⟩ := hstarts x hx
        exact ⟨hbirth, rfl⟩
    | cancelFuture j v =>
      obtain ⟨threads, heq⟩ := Sys.cancelFuture_eq (s := s.put i fresh th) v j
      rw [heq]
      refine ⟨fun pid p hp => Or.inl hp, fun x hx => ?_⟩
      obtain ⟨_, _, _, heff, -⟩ := hstarts x hx
      cases heff
    | _ =>
      refine ⟨fun pid p hp => Or.inl hp, fun x hx => ?_⟩
      obtain ⟨_, _, _, heff, -⟩ := hstarts x hx
      cases heff
  | _ => exact ⟨fun pid p hp => Or.inl hp, fun x hx => by cases hx⟩

/-- An execution that holds a child held it before, or comes to it without a store call. -/
theorem holding_after (h : Sys.step cfg s a = some s') {q svc : Nat} {spec : JobSpec} {pc' : ExecPc} {c : Child}
    (hq : s'.threads q = .exec svc spec pc') (hc : pc'.child = some c) :
    s.threads q = .exec svc spec pc' ∨
    ∃ k fresh inp pc eff, a = .advance q k fresh inp ∧ s.threads q = .exec svc spec pc ∧
      pc.advance (cfg.service svc) spec s.clock s.observed s.births inp = some (pc', eff) := by
  cases thread_after q h with
  | same heq => exact Or.inl (by rw [← heq, hq])
  | entered th _ _ hentry heq =>
    rw [hq] at heq
    subst heq
    cases hentry
  | called fresh locked op _ hcall heq =>
    rw [hq] at heq
    have hop := hcall.is_op
    cases hth : s.threads q with
    | exec v spec₀ pc =>
      rw [hth] at heq hop
      cases heq
      rw [ExecPc.resume_child fresh (op.reply cfg.backend s.clock s.db) hop] at hc
      cases hc
    | _ => rw [hth] at heq; cases heq
  | advanced k fresh inp th eff hact hadv heq =>
    rw [hq] at heq
    subst heq
    have hx := hadv.advance_eq
    cases hth : s.threads q with
    | none => rw [hth] at hx; cases hx
    | exec v spec₀ pc =>
      rw [hth] at hx
      obtain ⟨⟨pc₁, eff₁⟩, hy, hy'⟩ := Option.map_eq_some_iff.1 hx
      cases hy'
      exact Or.inr ⟨k, fresh, inp, pc, _, hact, rfl, hy⟩
    | _ =>
      rw [hth] at hx
      obtain ⟨x, -, hx'⟩ := Option.map_eq_some_iff.1 hx
      cases hx'
  | executed _ _ _ _ _ _ _ _ _ _ heq => rw [hq] at heq; cases heq; cases hc
  | beat _ _ _ _ _ _ _ _ _ _ heq => rw [hq] at heq; cases heq
  | cancelled _ _ _ heq => rw [hq] at heq; cases heq; cases hc

/-- The child of an execution was started by it. -/
theorem spawned_after (h : Sys.step cfg s a = some s') {q svc n : Nat} {spec : JobSpec} {t : String} {c : Child}
    (hq : s'.threads q = .exec svc spec (.spawned n t c)) :
    s.threads q = .exec svc spec (.spawned n t c) ∨
    ∃ p, s.starts cfg a = some ⟨p, some (spec.jobId, n)⟩ ∧ p.birth = c.birth := by
  rcases holding_after h hq rfl with hold | ⟨k, fresh, inp, pc, eff, rfl, hth, hx⟩
  · exact Or.inl hold
  · right
    have hadv := ExecPc.advance_cases hx
    generalize hpc : ExecPc.spawned n t c = pc' at hadv
    cases hadv with
    | child n' t' pid group identity =>
      cases hpc
      refine ⟨⟨s.births, group, identity⟩, ?_, rfl⟩
      simp only [Sys.starts, hth, Thread.advance, hx, Option.map_some, Thread.adapterAttempt]
    | raised n' t' e =>
      rcases adapterRaised_cases (cfg.service svc) spec n' t' e with ⟨et, m, hraised⟩ | ⟨c', hraised, -, -⟩
      · rw [hraised] at hpc
        cases hpc
      · rw [hraised] at hpc
        cases hpc
    | _ => cases hpc

/-- What an observer tells was seen of the number of its child. -/
theorem observe_after (h : Sys.step cfg s a = some s') {q svc n : Nat} {spec : JobSpec} {t : String} {o : Observation}
    (hq : s'.threads q = .exec svc spec (.observe n t o)) :
    s.threads q = .exec svc spec (.observe n t o) ∨
    ∃ k fresh answered, a = .advance q k fresh (.ps answered) ∧ s.threads q = .exec svc spec (.spawned n t o.child) ∧
      o.identity = (if answered then (s.observed o.child.pid).bind (·.2) else none) ∧
      o.processGroupId = (s.observed o.child.pid).map (·.1) := by
  rcases holding_after h hq rfl with hold | ⟨k, fresh, inp, pc, eff, rfl, hth, hx⟩
  · exact Or.inl hold
  · right
    have hadv := ExecPc.advance_cases hx
    generalize hpc : ExecPc.observe n t o = pc' at hadv
    cases hadv with
    | observed n' t' o' =>
      cases hpc
      cases inp with
      | ps answered =>
        simp only [ExecPc.advance, Option.some.injEq, Prod.mk.injEq, ExecPc.observe.injEq, true_and, and_true] at hx
        refine ⟨k, fresh, answered, rfl, hth, ?_, ?_⟩
        · rw [← hx]
        · rw [← hx]
      | _ => cases hx
    | raised n' t' e =>
      rcases adapterRaised_cases (cfg.service svc) spec n' t' e with ⟨et, m, hraised⟩ | ⟨c', hraised, -, -⟩
      · rw [hraised] at hpc
        cases hpc
      · rw [hraised] at hpc
        cases hpc
    | _ => cases hpc

end Step

/-! ## What a step notes -/

namespace SameHost

variable {cfg : Config} {w w' : SameHost} {a : Act}

/-- What a step leaves. -/
structure Stepped (cfg : Config) (w : SameHost) (a : Act) (w' : SameHost) : Prop where
  sys_step : Sys.step cfg w.sys a = some w'.sys
  started_eq : w'.started = w.started ++ (w.sys.starts cfg a).toList
  recordings_eq : w'.recordings = w.recordings ++ (w.records cfg a).toList
  claimedUntil_eq : w'.claimedUntil = noted w.claimedUntil (w.claims cfg a)
  inspected_eq : w'.inspected = noted w.inspected (w.inspects a)

theorem step_some (h : step cfg w a = some w') : Stepped cfg w a w' := by
  obtain ⟨s', hs, rfl⟩ := Option.map_eq_some_iff.1 h
  exact ⟨hs, rfl, rfl, rfl, rfl⟩

theorem Stepped.mem_started (h : Stepped cfg w a w') {x : HostProcess} :
    x ∈ w'.started ↔ x ∈ w.started ∨ w.sys.starts cfg a = some x := by
  rw [h.started_eq, List.mem_append, Option.mem_toList]

theorem Stepped.mem_recordings (h : Stepped cfg w a w') {x : (String × Nat) × Observation} :
    x ∈ w'.recordings ↔ x ∈ w.recordings ∨ w.records cfg a = some x := by
  rw [h.recordings_eq, List.mem_append, Option.mem_toList]

theorem noted_of_ne {β : Type} {f : Nat → β} {x : Option (Nat × β)} {i : Nat} (h : ∀ y, x ≠ some (i, y)) :
    noted f x i = f i := by
  cases x with
  | none => rfl
  | some z => exact Function.update_of_ne (fun hi => h z.2 (by rw [hi])) ..

theorem records_cases {k : String × Nat} {o : Observation} (h : w.records cfg a = some (k, o)) :
    ∃ q svc spec n t, w.sys.threads q = .exec svc spec (.observe n t o) ∧ k = (spec.jobId, n) := by
  unfold records at h
  split at h
  · rename_i q fresh locked
    split at h
    · rename_i svc spec n t o' op hth hop
      split at h
      · cases h
        exact ⟨q, svc, spec, n, t, hth, rfl⟩
      · cases h
    · cases h
  · cases h

theorem inspects_cases {i : Nat} {y : Option Nat} (h : w.inspects a = some (i, y)) :
    ∃ sc x at_ t pid, (w.sys.threads i).recovery = some (.inspect sc x at_ t pid) := by
  unfold inspects at h
  split at h
  · split at h
    · rename_i hr
      cases h
      exact ⟨_, _, _, _, _, hr⟩
    · cases h
  · cases h

/-- The process columns of a row were there before, or are empty, or this step records them. -/
theorem columns_after (h : Stepped cfg w a w') {k : String × Nat} {row' : AttemptRow}
    (hrow' : w'.sys.db.attempts.get k = some row') :
    (∃ row, w.sys.db.attempts.get k = some row ∧ row'.process = row.process) ∨ row'.processPid = none ∨
    ∃ o, w.records cfg a = some (k, o) ∧ row'.process = o.columns := by
  rcases Sys.step_db h.sys_step with hdb | ⟨q, fresh, locked, op, rfl, hc⟩
  · rw [hdb] at hrow'
    exact Or.inl ⟨row', hrow', rfl⟩
  · rw [hc.db_eq] at hrow'
    rcases process_after hrow' with hsame | ⟨-, hnew⟩ | ⟨hreply, t, pid, at_, identity, group, deadline, rfl, hcolumns⟩
    · exact Or.inl hsame
    · exact Or.inr (Or.inl (congrArg ProcessColumns.pid hnew))
    · -- only an execution records a process, at its observer
      obtain ⟨svc, spec, pc, hth, hj, hop⟩ := Thread.op_ofExecution hc.is_op rfl
      cases pc with
      | observe n t' o =>
        have hcall := hc.is_op
        rw [hth] at hcall
        simp only [ExecPc.op, Option.some.injEq, StoreOp.recordAttemptProcess.injEq] at hop
        obtain ⟨hjob, hn, -, rfl, -, rfl, rfl, rfl⟩ := hop
        have hk : (spec.jobId, n) = k := Prod.ext hjob hn
        refine Or.inr (Or.inr ⟨o, ?_, hcolumns⟩)
        simp only [records, hth, hcall, if_pos hreply, hk]
      | _ => cases hop

/-! ## The recorded child -/

/-- The observation is of a process that the execution of the Attempt started. -/
def Saw (w : SameHost) (k : String × Nat) (o : Observation) : Prop :=
  ∃ p, ⟨p, some k⟩ ∈ w.started ∧ p.birth = o.child.birth ∧ (∀ id, o.identity = some id → p.identity = some id) ∧
    ∀ g, o.processGroupId = some g → p.group = g

/-- The process columns are those of an observation on record for the Attempt. -/
def OnRecord (w : SameHost) (k : String × Nat) (row : AttemptRow) : Prop :=
  ∀ pid, row.processPid = some pid → ∃ o, (k, o) ∈ w.recordings ∧ row.process = o.columns

/-- What a scan knows of the process it is about. -/
def Knows (w : SameHost) (i : Nat) : RecoverPc → Prop
  | .inspect _ _ row _ pid => row.processPid = some pid
  | .kill _ _ row _ pid    => row.processPid = some pid ∧ row.processGroupId = some pid ∧
      ∀ id, row.processIdentity = some id →
        ∃ x ∈ w.started, x.process.identity = some id ∧ w.inspected i = some x.process.birth
  | _                      => True

theorem Stepped.saw (h : Stepped cfg w a w') {k : String × Nat} {o : Observation} (hs : w.Saw k o) : w'.Saw k o := by
  obtain ⟨p, hp, hrest⟩ := hs
  exact ⟨p, h.mem_started.2 (Or.inl hp), hrest⟩

theorem Stepped.onRecord (h : Stepped cfg w a w') {k : String × Nat} {row : AttemptRow} (hr : w.OnRecord k row) :
    w'.OnRecord k row := by
  intro pid hpid
  obtain ⟨o, ho, hcolumns⟩ := hr pid hpid
  exact ⟨o, h.mem_recordings.2 (Or.inl ho), hcolumns⟩

/-- The processes of the host are told apart by their births and by their `ps` lines, and whatever is recorded of a child
is true of it. -/
structure HostInv (w : SameHost) : Prop where
  running : ∀ pid p, w.sys.processes pid = some p → ∃ k, ⟨p, k⟩ ∈ w.started
  births : ∀ x ∈ w.started, x.process.birth < w.sys.births
  born_once : ∀ x ∈ w.started, ∀ y ∈ w.started, x.process.birth = y.process.birth → x = y
  lines : ∀ x ∈ w.started, ∀ y ∈ w.started, ∀ id, x.process.identity = some id → y.process.identity = some id → x = y
  spawned : ∀ q svc spec n t c, w.sys.threads q = .exec svc spec (.spawned n t c) →
    ∃ p, ⟨p, some (spec.jobId, n)⟩ ∈ w.started ∧ p.birth = c.birth
  observing : ∀ q svc spec n t o, w.sys.threads q = .exec svc spec (.observe n t o) → w.Saw (spec.jobId, n) o
  recordings : ∀ k o, (k, o) ∈ w.recordings → w.Saw k o
  rows : ∀ k row, w.sys.db.attempts.get k = some row → w.OnRecord k row
  read : ∀ i r x row, (w.sys.threads i).recovery = some r → x ∈ r.snapshots → x.last = some row →
    w.OnRecord (x.jobId, row.attemptNo) row
  knows : ∀ i r, (w.sys.threads i).recovery = some r → w.Knows i r

theorem hostInv_init : HostInv init where
  running _ _ h := by cases h
  births _ h := by cases h
  born_once _ h := by cases h
  lines _ h := by cases h
  spawned _ _ _ _ _ _ h := by cases h
  observing _ _ _ _ _ _ h := by cases h
  recordings _ _ h := by cases h
  rows _ _ h := by cases h
  read _ _ _ _ h := by cases h
  knows _ _ h := by cases h

theorem running_step (hi : HostInv w) (h : Stepped cfg w a w') {pid : Nat} {p : Process}
    (hp : w'.sys.processes pid = some p) : ∃ k, ⟨p, k⟩ ∈ w'.started := by
  rcases (starts_after h.sys_step).1 pid p hp with hold | ⟨k, hnew⟩
  · obtain ⟨k, hk⟩ := hi.running pid p hold
    exact ⟨k, h.mem_started.2 (Or.inl hk)⟩
  · exact ⟨k, h.mem_started.2 (Or.inr hnew)⟩

theorem started_births_step (hi : HostInv w) (h : Stepped cfg w a w') {x : HostProcess} (hx : x ∈ w'.started) :
    x.process.birth < w'.sys.births := by
  rcases h.mem_started.1 hx with hold | hnew
  · exact lt_of_lt_of_le (hi.births x hold) (births_after h.sys_step).1
  · obtain ⟨hbirth, hnext⟩ := (starts_after h.sys_step).2 x hnew
    omega

theorem born_once_step (hi : HostInv w) (h : Stepped cfg w a w') {x y : HostProcess} (hx : x ∈ w'.started)
    (hy : y ∈ w'.started) (hb : x.process.birth = y.process.birth) : x = y := by
  rcases h.mem_started.1 hx with hx | hx <;> rcases h.mem_started.1 hy with hy | hy
  · exact hi.born_once x hx y hy hb
  · have hlt := hi.births x hx
    have hnew := ((starts_after h.sys_step).2 y hy).1
    omega
  · have hlt := hi.births y hy
    have hnew := ((starts_after h.sys_step).2 x hx).1
    omega
  · rw [hx] at hy
    exact Option.some.inj hy

theorem lines_step (hi : HostInv w) (h : Stepped cfg w a w') (hd : w.LinesDiffer cfg a) {x y : HostProcess}
    (hx : x ∈ w'.started) (hy : y ∈ w'.started) {id : String} (hxid : x.process.identity = some id)
    (hyid : y.process.identity = some id) : x = y := by
  rcases h.mem_started.1 hx with hx | hx <;> rcases h.mem_started.1 hy with hy | hy
  · exact hi.lines x hx y hy id hxid hyid
  · exact absurd (hyid.trans hxid.symm) (hd y hy x hx (by rw [hyid]; rfl))
  · exact absurd (hxid.trans hyid.symm) (hd x hx y hy (by rw [hxid]; rfl))
  · rw [hx] at hy
    exact Option.some.inj hy

/-- **What the worker tells of its child is true of it.** -/
theorem observing_step (hi : HostInv w) (h : Stepped cfg w a w') (hl : w.LooksAtChild a) {q svc n : Nat} {spec : JobSpec}
    {t : String} {o : Observation} (hq : w'.sys.threads q = .exec svc spec (.observe n t o)) :
    w'.Saw (spec.jobId, n) o := by
  apply h.saw
  rcases observe_after h.sys_step hq with hold | ⟨k, fresh, answered, rfl, hth, hidentity, hgroup⟩
  · exact hi.observing q svc spec n t o hold
  · obtain ⟨p, hp, hbirth⟩ := hi.spawned q svc spec n t o.child hth
    -- the process of the number is the child
    have hchild : ∀ p', w.sys.processes o.child.pid = some p' → p' = p := by
      intro p' hp'
      obtain ⟨k', hk'⟩ := hi.running o.child.pid p' hp'
      have hsame := hl q rfl o.child (by rw [hth]; rfl) p' hp'
      have heq := hi.born_once _ hk' _ hp (hsame.trans hbirth.symm)
      exact congrArg HostProcess.process heq
    refine ⟨p, hp, hbirth, fun id hid => ?_, fun g hg => ?_⟩
    · rw [hidentity] at hid
      cases answered with
      | false => cases hid
      | true =>
        obtain ⟨⟨g, line⟩, hobserved, rfl⟩ := Option.bind_eq_some_iff.1 hid
        obtain ⟨p', hp', hline⟩ := Option.map_eq_some_iff.1 hobserved
        rw [← hchild p' hp']
        exact congrArg Prod.snd hline
    · rw [hgroup] at hg
      obtain ⟨⟨g', line⟩, hobserved, rfl⟩ := Option.map_eq_some_iff.1 hg
      obtain ⟨p', hp', hline⟩ := Option.map_eq_some_iff.1 hobserved
      rw [← hchild p' hp']
      exact congrArg Prod.fst hline

theorem recordings_step (hi : HostInv w) (h : Stepped cfg w a w') {k : String × Nat} {o : Observation}
    (ho : (k, o) ∈ w'.recordings) : w'.Saw k o := by
  apply h.saw
  rcases h.mem_recordings.1 ho with hold | hnew
  · exact hi.recordings k o hold
  · obtain ⟨q, svc, spec, n, t, hth, rfl⟩ := records_cases hnew
    exact hi.observing q svc spec n t o hth

theorem rows_step (hi : HostInv w) (h : Stepped cfg w a w') {k : String × Nat} {row' : AttemptRow}
    (hrow' : w'.sys.db.attempts.get k = some row') : w'.OnRecord k row' := by
  rcases columns_after h hrow' with ⟨row, hrow, hsame⟩ | hnone | ⟨o, ho, hcolumns⟩
  · intro pid hpid
    have hpid' : row.processPid = some pid := (congrArg ProcessColumns.pid hsame).symm.trans hpid
    obtain ⟨o, ho, hcolumns⟩ := h.onRecord (hi.rows k row hrow) pid hpid'
    exact ⟨o, ho, hsame.trans hcolumns⟩
  · intro pid hpid
    rw [hnone] at hpid
    cases hpid
  · exact fun pid _ => ⟨o, h.mem_recordings.2 (Or.inr ho), hcolumns⟩

theorem read_step (hi : HostInv w) (h : Stepped cfg w a w') {i : Nat} {r' : RecoverPc} {x : Snapshot} {row : AttemptRow}
    (hr' : (w'.sys.threads i).recovery = some r') (hx : x ∈ r'.snapshots) (hlast : x.last = some row) :
    w'.OnRecord (x.jobId, row.attemptNo) row := by
  apply h.onRecord
  rcases snapshot_after h.sys_step hr' hx with ⟨r, hr, hx⟩ | ⟨j, v, hv, rfl, -⟩
  · exact hi.read i r x row hr hx hlast
  · obtain ⟨hkey, hget⟩ := read_last hv hlast
    rw [hkey] at hget
    exact hi.rows _ row hget

/-- A reply leads no scan to a signal. -/
theorem knows_resume {svc : Service} {r : RecoverPc} {op : StoreOp} (i : Nat) (child : Option Child) (reply : Reply)
    (hop : r.op svc = some op) : w.Knows i (r.resume child reply) := by
  cases RecoverPc.op_cases hop with
  | expired cutoff => simp only [RecoverPc.resume]; split <;> trivial
  | stale cutoff es => simp only [RecoverPc.resume]; split <;> trivial
  | read es j ids runs => simp only [RecoverPc.resume]; split <;> trivial
  | failNoAttempt sc run => trivial
  | gate sc run row => simp only [RecoverPc.resume]; split <;> trivial
  | claim sc run row t =>
    simp only [RecoverPc.resume]
    split
    · split <;> trivial
    · trivial
  | release sc run row t why => cases why <;> trivial
  | witness sc run row t => simp only [RecoverPc.resume]; split <;> trivial
  | finalize sc run row t et e => simp only [RecoverPc.resume]; split <;> trivial

/-- **The line that lets a scan signal is that of the process `ps` was asked about.** -/
theorem knows_advance (ho : OrphanInv w.sys) (hi : HostInv w) (h : Stepped cfg w a w') {i k : Nat} {fresh : String}
    {inp : Input} {owner : Option ExecutionOwner} {live : String → Bool} {r r' : RecoverPc}
    (hact : a = .advance i k fresh inp) (hr : (w.sys.threads i).recovery = some r)
    (hadv : r.advance owner live w.sys.clock w.sys.observed fresh inp = some r') : w'.Knows i r' := by
  have hcases := RecoverPc.advance_cases hadv
  cases hcases with
  | visited sc run rest hrest =>
    unfold RecoverPc.visit
    split
    · trivial
    · split
      · trivial
      · split <;> trivial
  | there sc run row t pid _ => exact (ho.sees i _ hr).2
  | terminable sc run row t pid _ hidentified hleads =>
    refine ⟨hi.knows i _ hr, hleads, fun id hid => ?_⟩
    rw [hid] at hidentified
    obtain ⟨⟨g, line⟩, hobserved, rfl⟩ := Option.bind_eq_some_iff.1 (hidentified.resolve_left (by simp)).symm
    obtain ⟨p, hp, hline⟩ := Option.map_eq_some_iff.1 hobserved
    obtain ⟨k', hk'⟩ := hi.running pid p hp
    refine ⟨⟨p, k'⟩, h.mem_started.2 (Or.inl hk'), congrArg Prod.snd hline, ?_⟩
    cases inp with
    | ps answered =>
      have hnoted : w.inspects a = some (i, some p.birth) := by
        subst hact
        simp only [inspects, hr, hp, Option.map_some]
      rw [h.inspected_eq, hnoted]
      exact Function.update_self ..
    | _ => cases hadv
  | _ => trivial

theorem knows_step (ho : OrphanInv w.sys) (hi : HostInv w) (h : Stepped cfg w a w') {i : Nat} {r' : RecoverPc}
    (hr' : (w'.sys.threads i).recovery = some r') : w'.Knows i r' := by
  cases thread_after i h.sys_step with
  | same heq =>
    rw [heq] at hr'
    have hknows := hi.knows i r' hr'
    cases r' with
    | kill sc run row t pid =>
      obtain ⟨hpid, hleads, hline⟩ := hknows
      refine ⟨hpid, hleads, fun id hid => ?_⟩
      obtain ⟨x, hx, hidentity, hinspected⟩ := hline id hid
      refine ⟨x, h.mem_started.2 (Or.inl hx), hidentity, ?_⟩
      -- a scan that asks `ps` is not the one that is about to signal
      rw [h.inspected_eq, noted_of_ne, hinspected]
      intro y hy
      obtain ⟨sc', x', row', t', pid', hinspect⟩ := inspects_cases hy
      rw [hr'] at hinspect
      cases hinspect
    | _ => exact hknows
  | entered th _ _ hentry heq =>
    rw [heq] at hr'
    obtain ⟨staleAfter, rfl⟩ := Thread.isEntry_recovery hentry hr'
    trivial
  | called fresh locked op _ hc heq =>
    rw [heq] at hr'
    obtain ⟨r, hr, rfl⟩ := Thread.resume_recovery hr'
    obtain ⟨svc, -, hthop⟩ := Thread.recovery_op cfg w.sys locked hr
    exact knows_resume i _ _ (hthop.symm.trans hc.is_op)
  | advanced k fresh inp th eff hact hadv heq =>
    rw [heq] at hr'
    rcases Thread.advance_scan hadv.advance_eq hr' with ⟨staleAfter, rfl⟩ | ⟨svc, r, -, hr, hstep⟩
    · trivial
    · exact knows_advance ho hi h hact hr hstep
  | executed _ _ _ _ _ _ _ _ _ _ heq _ => rw [heq] at hr'; cases hr'
  | beat _ _ _ _ _ _ _ _ _ _ heq => rw [heq] at hr'; cases hr'
  | cancelled _ _ _ heq => rw [heq] at hr'; cases hr'

theorem hostInv_step (ho : OrphanInv w.sys) (hi : HostInv w) (h : Stepped cfg w a w') (hd : w.LinesDiffer cfg a)
    (hl : w.LooksAtChild a) : HostInv w' where
  running _ _ hp := running_step hi h hp
  births _ hx := started_births_step hi h hx
  born_once _ hx _ hy := born_once_step hi h hx hy
  lines _ hx _ hy _ hxid hyid := lines_step hi h hd hx hy hxid hyid
  spawned q svc spec n t c hq := by
    rcases spawned_after h.sys_step hq with hold | ⟨p, hstarts, hbirth⟩
    · obtain ⟨p, hp, hbirth⟩ := hi.spawned q svc spec n t c hold
      exact ⟨p, h.mem_started.2 (Or.inl hp), hbirth⟩
    · exact ⟨p, h.mem_started.2 (Or.inr hstarts), hbirth⟩
  observing _ _ _ _ _ _ hq := observing_step hi h hl hq
  recordings _ _ ho := recordings_step hi h ho
  rows _ _ hrow := rows_step hi h hrow
  read _ _ _ _ hr hx hlast := read_step hi h hr hx hlast
  knows _ _ hr := knows_step ho hi h hr

end SameHost

/-! ## The claim -/

/-- The recovery token of the Run a scan is at. -/
def RecoverPc.token : RecoverPc → Option String
  | .claim _ _ _ t | .probe _ _ _ t _ | .inspect _ _ _ t _ | .kill _ _ _ t _ => some t
  | .release _ _ _ t _ | .witness _ _ _ t | .finalize _ _ _ t _ _            => some t
  | _                                                                       => none

/-- The Attempt a scan has claimed and not dealt with yet, and the token. -/
def RecoverPc.claimed : RecoverPc → Option ((String × Nat) × String)
  | .probe _ run a t _ | .inspect _ run a t _ | .kill _ run a t _ => some ((run.jobId, a.attemptNo), t)
  | _                                                             => none

theorem RecoverPc.token_of_claimed {r : RecoverPc} {k : String × Nat} {t : String} (h : r.claimed = some (k, t)) :
    r.token = some t := by
  cases r with
  | probe => cases h; rfl
  | inspect => cases h; rfl
  | kill => cases h; rfl
  | _ => cases h

theorem RecoverPc.visit_token (owner : Option ExecutionOwner) (live : String → Bool) (sc : Scan) (run : Snapshot) :
    (visit owner live sc run).token = none := by
  unfold visit
  split
  · rfl
  · split
    · rfl
    · split <;> rfl

theorem RecoverPc.resume_token {r : RecoverPc} {child : Option Child} {reply : Reply} {t : String}
    (h : (r.resume child reply).token = some t) : r.token = some t := by
  cases r with
  | expired cutoff => simp only [resume] at h; split at h <;> cases h
  | stale cutoff es => simp only [resume] at h; split at h <;> cases h
  | read es ids runs =>
    cases ids with
    | nil => cases h
    | cons j ids => simp only [resume] at h; split at h <;> cases h
  | gate sc run a => simp only [resume] at h; split at h <;> cases h
  | claim sc run a t' =>
    simp only [resume] at h
    split at h
    · split at h <;> exact h
    · cases h
  | release sc run a t' why => cases why <;> cases h
  | witness sc run a t' => simp only [resume] at h; split at h <;> exact h
  | finalize sc run a t' et e => simp only [resume] at h; split at h <;> cases h
  | failNoAttempt => cases h
  | _ => exact h

theorem RecoverPc.Advance.token {owner : Option ExecutionOwner} {live : String → Bool} {clock : Time}
    {observed : Nat → Option (Nat × Option String)} {fresh : String} {r r' : RecoverPc} {t : String}
    (hadv : Advance owner live clock observed fresh r r') (h : r'.token = some t) : r.token = some t ∨ t = fresh := by
  cases hadv with
  | visited sc run rest hrest => rw [visit_token] at h; cases h
  | claim sc run a _ => exact Or.inr (Option.some.inj h).symm
  | gone => exact Or.inl h
  | there => exact Or.inl h
  | young => exact Or.inl h
  | terminable => exact Or.inl h
  | unknown => exact Or.inl h
  | killed => exact Or.inl h
  | unkillable => exact Or.inl h
  | _ => cases h

/-- A scan has claimed an Attempt where its `claim_recovery` was accepted. -/
theorem RecoverPc.resume_claimed {svc : Service} {r : RecoverPc} {op : StoreOp} {child : Option Child} {reply : Reply}
    {k : String × Nat} {t : String} (hop : r.op svc = some op) (h : (r.resume child reply).claimed = some (k, t)) :
    op = .claimRecovery k.1 k.2 svc.workerId t svc.recoveryLeaseSeconds ∧ reply = .flag true := by
  cases RecoverPc.op_cases hop with
  | expired cutoff => simp only [resume] at h; split at h <;> cases h
  | stale cutoff es => simp only [resume] at h; split at h <;> cases h
  | read es j ids runs => simp only [resume] at h; split at h <;> cases h
  | failNoAttempt sc run => cases h
  | gate sc run a => simp only [resume] at h; split at h <;> cases h
  | claim sc run a t' =>
    simp only [resume] at h
    split at h
    · rename_i hreply
      split at h
      · cases h
        exact ⟨rfl, hreply⟩
      · cases h
    · cases h
  | release sc run a t' why => cases why <;> cases h
  | witness sc run a t' => simp only [resume] at h; split at h <;> cases h
  | finalize sc run a t' et e => simp only [resume] at h; split at h <;> cases h

theorem RecoverPc.Advance.claimed {owner : Option ExecutionOwner} {live : String → Bool} {clock : Time}
    {observed : Nat → Option (Nat × Option String)} {fresh : String} {r r' : RecoverPc} {k : String × Nat} {t : String}
    (hadv : Advance owner live clock observed fresh r r') (h : r'.claimed = some (k, t)) : r.claimed = some (k, t) := by
  cases hadv with
  | visited sc run rest hrest =>
    have htoken := token_of_claimed h
    rw [visit_token] at htoken
    cases htoken
  | there => exact h
  | terminable => exact h
  | _ => cases h

/-- The token of a call that claims an Attempt or gives the claim back. -/
def StoreOp.claimToken : StoreOp → Option String
  | .claimRecovery _ _ _ t _      => some t
  | .releaseRecoveryClaim _ _ t   => some t
  | _                             => none

section Tokens

variable {cfg : Config} {s s' : Sys} {a : Act}

/-- A token that was drawn stays drawn, and so does the one a step draws. -/
theorem tokens_after (h : Sys.step cfg s a = some s') :
    (∀ t ∈ s.tokens, t ∈ s'.tokens) ∧ ∀ i k fresh inp, a = .advance i k fresh inp → fresh ∈ s'.tokens ∧
      fresh ∉ s.tokens := by
  cases Sys.step_cases h with
  | call i fresh locked op _ hc =>
    rw [hc.tokens_eq]
    exact ⟨fun t ht => List.mem_cons_of_mem _ ht, fun _ _ _ _ hact => by cases hact⟩
  | advance i k fresh inp th eff _ hadv happ =>
    have hput : s'.tokens = fresh :: s.tokens := by
      cases happ with
      | cancelFuture j v =>
        obtain ⟨threads, heq⟩ := Sys.cancelFuture_eq (s := s.put i fresh th) v j
        rw [heq]
        rfl
      | _ => rfl
    rw [hput]
    refine ⟨fun t ht => List.mem_cons_of_mem _ ht, fun _ _ _ _ hact => ?_⟩
    cases hact
    have hfresh := hadv.is_fresh
    simp only [Sys.isFresh, Bool.and_eq_true, decide_eq_true_eq] at hfresh
    exact ⟨List.mem_cons_self, hfresh.2⟩
  | _ => exact ⟨fun t ht => ht, fun _ _ _ _ hact => by cases hact⟩

/-- The token of a scan was its token before, or the step has just drawn it. -/
theorem token_after (h : Sys.step cfg s a = some s') {i : Nat} {r' : RecoverPc} {t : String}
    (hr' : (s'.threads i).recovery = some r') (ht : r'.token = some t) :
    (∃ r, (s.threads i).recovery = some r ∧ r.token = some t) ∨ ∃ k inp, a = .advance i k t inp := by
  cases thread_after i h with
  | same heq =>
    rw [heq] at hr'
    exact Or.inl ⟨r', hr', ht⟩
  | entered th _ _ hentry heq =>
    rw [heq] at hr'
    obtain ⟨staleAfter, rfl⟩ := Thread.isEntry_recovery hentry hr'
    cases ht
  | called fresh locked op _ hc heq =>
    rw [heq] at hr'
    obtain ⟨r, hr, rfl⟩ := Thread.resume_recovery hr'
    exact Or.inl ⟨r, hr, RecoverPc.resume_token ht⟩
  | advanced k fresh inp th eff hact hadv heq =>
    rw [heq] at hr'
    rcases Thread.advance_recovery hadv.advance_eq hr' with ⟨staleAfter, rfl⟩ | ⟨svc, r, -, hr, hstep⟩
    · cases ht
    · rcases hstep.token ht with hold | rfl
      · exact Or.inl ⟨r, hr, hold⟩
      · exact Or.inr ⟨k, inp, hact⟩
  | executed _ _ _ _ _ _ _ _ _ _ heq _ => rw [heq] at hr'; cases hr'
  | beat _ _ _ _ _ _ _ _ _ _ heq => rw [heq] at hr'; cases hr'
  | cancelled _ _ _ heq => rw [heq] at hr'; cases hr'

/-- A claim and a release are calls of the scan that has the token. -/
theorem Thread.op_claimToken {th : Thread} {locked : List String} {op : StoreOp} {t : String}
    (h : th.op cfg s locked = some op) (ht : op.claimToken = some t) : ∃ r, th.recovery = some r ∧ r.token = some t := by
  cases Thread.op_cases h with
  | scan svc r _ _ hr hcall =>
    refine ⟨r, hr, ?_⟩
    cases RecoverPc.op_cases hcall with
    | claim => exact ht
    | release => exact ht
    | _ => cases ht
  | submit svc spec pc _ hpc => cases pc <;> cases hpc <;> cases ht
  | exec svc spec pc _ hpc => cases pc <;> cases hpc <;> cases ht
  | beat b pc _ hpc => cases pc <;> cases hpc <;> cases ht
  | supervisor sup pc _ hpc => cases pc <;> cases hpc <;> cases ht
  | _ => cases ht

end Tokens

/-- **A claim stands through every call of the other parties**, an Attempt that is recorded again included. -/
theorem held_through {b : Backend} {now until_ : Time} {db : Db} {op : StoreOp} {k : String × Nat} {t : String}
    (hheld : HeldBy k t until_ db) (hnow : now ≤ until_) (hother : op.claimToken ≠ some t) :
    HeldBy k t until_ (op.after b now db) := by
  by_cases hrecord : ∃ st et e ap rc, op = .recordAttempt k.1 k.2 st et e ap rc
  · obtain ⟨st, et, e, ap, rc, rfl⟩ := hrecord
    obtain ⟨row, hrow, ht, he⟩ := hheld
    cases attempts_after b now db (.recordAttempt k.1 k.2 st et e ap rc) k with
    | same h => exact ⟨row, by rw [h, hrow], ht, he⟩
    | recorded st' et' e' ap' rc' is_op _ hget =>
      rw [hrow] at hget
      exact ⟨_, hget, ht, he⟩
    | renewed session ttl a is_op => cases is_op
    | updated u a is_op => cases is_op
  · have hrespects : op.respects k t := by
      cases op with
      | recordAttempt j n st et e ap rc => exact fun hk => hrecord ⟨st, et, e, ap, rc, by rw [← hk]⟩
      | claimRecovery j n owner t' ttl => exact fun _ ht => hother (congrArg some ht)
      | _ => trivial
    refine held_step (s := ⟨now, db⟩) (c := ⟨now, op⟩) hheld hnow hrespects ?_
    rintro ⟨hrelease, -⟩
    have hop : op = .releaseRecoveryClaim k.1 k.2 t := hrelease
    exact hother (by rw [hop]; rfl)

/-- **What stands beside a token** is written with it. -/
theorem expiry_after {b : Backend} {now : Time} {db : Db} {op : StoreOp} {k : String × Nat} {t : String} {row' : AttemptRow}
    (hrow' : (op.after b now db).attempts.get k = some row') (ht : row'.recoveryToken = some t)
    (hother : op.claimToken ≠ some t) : ∃ row, db.attempts.get k = some row ∧ row.recoveryToken = some t ∧
      row'.recoveryExpiresAt = row.recoveryExpiresAt := by
  cases attempts_after b now db op k with
  | same h =>
    rw [h] at hrow'
    exact ⟨row', hrow', ht, rfl⟩
  | recorded st et e ap rc _ _ hget =>
    rw [hget] at hrow'
    cases hk : db.attempts.get k with
    | none =>
      rw [hk] at hrow'
      cases hrow'
      cases ht
    | some row =>
      rw [hk] at hrow'
      cases hrow'
      exact ⟨row, rfl, ht, rfl⟩
  | renewed session ttl row _ hrow _ hget =>
    rw [hget] at hrow'
    cases hrow'
    exact ⟨row, hrow, ht, rfl⟩
  | updated u row is_op hk hrow hg hget _ =>
    rw [hget] at hrow'
    cases hrow'
    rcases attemptUpdate_recovery is_op with ⟨j, n, owner, tok, ttl, rfl⟩ | ⟨j, n, tok, rfl⟩ | hkeep
    · cases is_op
      exact absurd ht hother
    · cases is_op
      cases ht
    · exact ⟨row, hrow, (hkeep row).1.symm.trans ht, (hkeep row).2⟩

namespace SameHost

variable {cfg : Config} {w w' : SameHost} {a : Act}

theorem claims_cases {i : Nat} {until_ : Time} (h : w.claims cfg a = some (i, until_)) :
    ∃ fresh locked, a = .call i fresh locked := by
  unfold claims at h
  split at h
  · rename_i i' fresh locked
    split at h
    · cases h
      exact ⟨fresh, locked, rfl⟩
    · cases h
  · cases h

/-- Every scan has a token of its own, a scan's claim stands until the recovery lease is over, and where its token is on the
row the end of that lease stands beside it. -/
structure ClaimInv (w : SameHost) : Prop where
  drawn : ∀ i r t, (w.sys.threads i).recovery = some r → r.token = some t → t ∈ w.sys.tokens
  apart : ∀ i i' r r' t, (w.sys.threads i).recovery = some r → (w.sys.threads i').recovery = some r' →
    r.token = some t → r'.token = some t → i = i'
  held : ∀ i r k t, (w.sys.threads i).recovery = some r → r.claimed = some (k, t) →
    w.sys.clock ≤ w.claimedUntil i → HeldBy k t (w.claimedUntil i) w.sys.db
  expiry : ∀ i r k t row, (w.sys.threads i).recovery = some r → r.claimed = some (k, t) →
    w.sys.db.attempts.get k = some row → row.recoveryToken = some t → row.recoveryExpiresAt = some (w.claimedUntil i)

theorem claimInv_init : ClaimInv init where
  drawn _ _ _ h := by cases h
  apart _ _ _ _ _ h := by cases h
  held _ _ _ _ h := by cases h
  expiry _ _ _ _ _ h := by cases h

theorem drawn_step (hi : ClaimInv w) (h : Stepped cfg w a w') {i : Nat} {r' : RecoverPc} {t : String}
    (hr' : (w'.sys.threads i).recovery = some r') (ht : r'.token = some t) : t ∈ w'.sys.tokens := by
  rcases token_after h.sys_step hr' ht with ⟨r, hr, ht⟩ | ⟨k, inp, hact⟩
  · exact (tokens_after h.sys_step).1 t (hi.drawn i r t hr ht)
  · exact ((tokens_after h.sys_step).2 i k t inp hact).1

theorem apart_step (hi : ClaimInv w) (h : Stepped cfg w a w') {i i' : Nat} {r r' : RecoverPc} {t : String}
    (hr : (w'.sys.threads i).recovery = some r) (hr' : (w'.sys.threads i').recovery = some r')
    (ht : r.token = some t) (ht' : r'.token = some t) : i = i' := by
  -- a token that is drawn now is no scan's yet
  have hnew : ∀ j k inp x, a = .advance j k t inp → ∀ q, (w.sys.threads q).recovery = some x → x.token ≠ some t :=
    fun j k inp x hact q hx htx => ((tokens_after h.sys_step).2 j k t inp hact).2 (hi.drawn q x t hx htx)
  rcases token_after h.sys_step hr ht with ⟨r₀, hr₀, ht₀⟩ | ⟨k, inp, hact⟩
  · rcases token_after h.sys_step hr' ht' with ⟨r₁, hr₁, ht₁⟩ | ⟨k', inp', hact'⟩
    · exact hi.apart i i' r₀ r₁ t hr₀ hr₁ ht₀ ht₁
    · exact absurd ht₀ (hnew i' k' inp' r₀ hact' i hr₀)
  · rcases token_after h.sys_step hr' ht' with ⟨r₁, hr₁, ht₁⟩ | ⟨k', inp', hact'⟩
    · exact absurd ht₁ (hnew i k inp r₁ hact i' hr₁)
    · rw [hact] at hact'
      cases hact'
      rfl

/-- **A scan that has claimed** had claimed before and makes no call, or its claim has just been accepted. -/
theorem claimed_after (h : Stepped cfg w a w') {i : Nat} {r' : RecoverPc} {k : String × Nat} {t : String}
    (hr' : (w'.sys.threads i).recovery = some r') (hclaimed : r'.claimed = some (k, t)) :
    (∃ r, (w.sys.threads i).recovery = some r ∧ r.claimed = some (k, t) ∧ w'.claimedUntil i = w.claimedUntil i ∧
      ∀ fresh locked, a ≠ .call i fresh locked) ∨ HeldBy k t (w'.claimedUntil i) w'.sys.db := by
  have hkept : (∀ fresh locked, a ≠ .call i fresh locked) → w'.claimedUntil i = w.claimedUntil i := by
    intro hcall
    rw [h.claimedUntil_eq]
    refine noted_of_ne (fun y hy => ?_)
    obtain ⟨fresh, locked, hact⟩ := claims_cases hy
    exact hcall fresh locked hact
  cases thread_after i h.sys_step with
  | same heq =>
    rw [heq] at hr'
    by_cases hcall : ∃ fresh locked, a = .call i fresh locked
    · -- a thread that has claimed is at no call
      obtain ⟨fresh, locked, rfl⟩ := hcall
      obtain ⟨op, hc⟩ := Sys.call_some h.sys_step
      obtain ⟨svc, -, hthop⟩ := Thread.recovery_op cfg w.sys locked hr'
      have hop := hthop.symm.trans hc.is_op
      cases RecoverPc.op_cases hop <;> cases hclaimed
    · have hnone : ∀ fresh locked, a ≠ .call i fresh locked := fun fresh locked hact => hcall ⟨fresh, locked, hact⟩
      exact Or.inl ⟨r', hr', hclaimed, hkept hnone, hnone⟩
  | entered th _ _ hentry heq =>
    rw [heq] at hr'
    obtain ⟨staleAfter, rfl⟩ := Thread.isEntry_recovery hentry hr'
    cases hclaimed
  | called fresh locked op hact hc heq =>
    rw [heq] at hr'
    obtain ⟨r, hr, rfl⟩ := Thread.resume_recovery hr'
    obtain ⟨svc, -, hthop⟩ := Thread.recovery_op cfg w.sys locked hr
    obtain ⟨rfl, hreply⟩ := RecoverPc.resume_claimed (hthop.symm.trans hc.is_op) hclaimed
    have huntil : w'.claimedUntil i = w.sys.clock + (cfg.service svc).recoveryLeaseSeconds := by
      rw [h.claimedUntil_eq, hact]
      simp only [claims, hc.is_op, noted, Function.update_self]
    rw [huntil, hc.db_eq]
    exact Or.inr (held_of_claimed hreply)
  | advanced k' fresh inp th eff hact hadv heq =>
    rw [heq] at hr'
    rcases Thread.advance_recovery hadv.advance_eq hr' with ⟨staleAfter, rfl⟩ | ⟨svc, r, -, hr, hstep⟩
    · cases hclaimed
    · have hnone : ∀ fresh locked, a ≠ .call i fresh locked := fun _ _ hcall => by rw [hact] at hcall; cases hcall
      exact Or.inl ⟨r, hr, hstep.claimed hclaimed, hkept hnone, hnone⟩
  | executed _ _ _ _ _ _ _ _ _ _ heq _ => rw [heq] at hr'; cases hr'
  | beat _ _ _ _ _ _ _ _ _ _ heq => rw [heq] at hr'; cases hr'
  | cancelled _ _ _ heq => rw [heq] at hr'; cases hr'

/-- Only the scan itself calls under its token. -/
theorem claimToken_other (hi : ClaimInv w) {i q : Nat} {r : RecoverPc} {k : String × Nat} {t fresh : String}
    {locked : List String} {op : StoreOp} (hr : (w.sys.threads i).recovery = some r) (hclaimed : r.claimed = some (k, t))
    (hop : (w.sys.threads q).op cfg w.sys locked = some op) (hcall : a = .call q fresh locked)
    (hother : ∀ fresh locked, a ≠ .call i fresh locked) : op.claimToken ≠ some t := by
  intro htoken
  obtain ⟨r', hr', ht'⟩ := Thread.op_claimToken hop htoken
  have hsame := hi.apart i q r r' t hr hr' (RecoverPc.token_of_claimed hclaimed) ht'
  subst hsame
  exact hother fresh locked hcall

theorem held_after_step (hi : ClaimInv w) (h : Stepped cfg w a w') {i : Nat} {r' : RecoverPc} {k : String × Nat}
    {t : String} (hr' : (w'.sys.threads i).recovery = some r') (hclaimed : r'.claimed = some (k, t))
    (hnow : w'.sys.clock ≤ w'.claimedUntil i) : HeldBy k t (w'.claimedUntil i) w'.sys.db := by
  rcases claimed_after h hr' hclaimed with ⟨r, hr, hbefore, huntil, hother⟩ | hheld
  · rw [huntil] at hnow ⊢
    have hle := le_trans (Sys.step_clock h.sys_step) hnow
    have hheld := hi.held i r k t hr hbefore hle
    rcases Sys.step_db h.sys_step with hdb | ⟨q, fresh, locked, op, hact, hc⟩
    · rw [hdb]
      exact hheld
    · rw [hc.db_eq]
      exact held_through hheld hle (claimToken_other hi hr hbefore hc.is_op hact hother)
  · exact hheld

theorem expiry_after_step (hi : ClaimInv w) (h : Stepped cfg w a w') {i : Nat} {r' : RecoverPc} {k : String × Nat}
    {t : String} {row' : AttemptRow} (hr' : (w'.sys.threads i).recovery = some r') (hclaimed : r'.claimed = some (k, t))
    (hrow' : w'.sys.db.attempts.get k = some row') (ht : row'.recoveryToken = some t) :
    row'.recoveryExpiresAt = some (w'.claimedUntil i) := by
  rcases claimed_after h hr' hclaimed with ⟨r, hr, hbefore, huntil, hother⟩ | ⟨row, hrow, -, hexpires⟩
  · rw [huntil]
    rcases Sys.step_db h.sys_step with hdb | ⟨q, fresh, locked, op, hact, hc⟩
    · rw [hdb] at hrow'
      exact hi.expiry i r k t row' hr hbefore hrow' ht
    · rw [hc.db_eq] at hrow'
      obtain ⟨row, hrow, ht', hsame⟩ := expiry_after hrow' ht (claimToken_other hi hr hbefore hc.is_op hact hother)
      exact hsame.trans (hi.expiry i r k t row hr hbefore hrow ht')
  · rw [hrow] at hrow'
    cases hrow'
    exact hexpires

theorem claimInv_step (hi : ClaimInv w) (h : Stepped cfg w a w') : ClaimInv w' where
  drawn _ _ _ hr ht := drawn_step hi h hr ht
  apart _ _ _ _ _ hr hr' ht ht' := apart_step hi h hr hr' ht ht'
  held _ _ _ _ hr hclaimed hnow := held_after_step hi h hr hclaimed hnow
  expiry _ _ _ _ _ hr hclaimed hrow ht := expiry_after_step hi h hr hclaimed hrow ht

/-! ## Runs -/

/-- What every reachable state has. -/
structure RunInv (w : SameHost) : Prop where
  orphan : OrphanInv w.sys
  host : HostInv w
  claim : ClaimInv w

theorem runInv_init : RunInv init := ⟨orphanInv_init, hostInv_init, claimInv_init⟩

theorem runInv_step (hi : RunInv w) (h : step cfg w a = some w') (hd : w.LinesDiffer cfg a) (hl : w.LooksAtChild a) :
    RunInv w' := by
  have hs := step_some h
  exact ⟨orphanInv_step hi.orphan hs.sys_step, hostInv_step hi.orphan hi.host hs hd hl, claimInv_step hi.claim hs⟩

/-- **Where a line is on record**, the process that `ps` was asked about is the recorded child. -/
theorem shown_iff (hi : RunInv w) {g : Signal} (hg : w.sys.signal a = some g) {id : String}
    (hid : g.attempt.processIdentity = some id) :
    (w.sys.processes g.pid).map (·.birth) = w.inspected g.thread ↔ w.ChildThere g := by
  obtain ⟨sc, k, fresh, -, hr⟩ := Sys.signal_cases hg
  obtain ⟨hlast, -⟩ : g.run.last = some g.attempt ∧ g.attempt.orphaned w.sys.clock := hi.orphan.sees _ _ hr
  obtain ⟨hpid, -, hline⟩ := hi.host.knows _ _ hr
  obtain ⟨x, hx, hxid, hxbirth⟩ := hline id hid
  -- a child recorded with this line is the process that was shown
  have hshown : ∀ o, (g.key, o) ∈ w.recordings → g.attempt.process = o.columns → x.process.birth = o.child.birth := by
    intro o ho hcolumns
    obtain ⟨p, hp, hbirth, hpline, -⟩ := hi.host.recordings g.key o ho
    have hpid' := hpline id ((congrArg ProcessColumns.identity hcolumns).symm.trans hid)
    rw [hi.host.lines x hx _ hp id hxid hpid']
    exact hbirth
  rw [hxbirth]
  constructor
  · intro hthere
    obtain ⟨o, ho, hcolumns⟩ := hi.host.read _ _ g.run g.attempt hr List.mem_cons_self hlast g.pid hpid
    exact ⟨(g.key, o), ho, rfl, hcolumns, by rw [hthere, hshown o ho hcolumns]⟩
  · rintro ⟨⟨key, o⟩, ho, rfl, hcolumns, hthere⟩
    rw [hthere, hshown o ho hcolumns]

/-- **A signal reaches the Attempt's own child** exactly while the recovery lease runs and the child has its number. -/
theorem owns_iff (hi : RunInv w) {g : Signal} (hg : w.sys.signal a = some g) :
    w.Owns g ↔ w.sys.clock ≤ w.claimedUntil g.thread ∧ w.ChildThere g := by
  obtain ⟨sc, k, fresh, -, hr⟩ := Sys.signal_cases hg
  obtain ⟨hpid, hleads, -⟩ := hi.host.knows _ _ hr
  constructor
  · rintro ⟨⟨until_, ⟨row, hrow, htoken, hexpires⟩, hnow⟩, -, group, p, o, hgroup, hp, -, -, ho, hchild, hcolumns⟩
    have huntil := hi.claim.expiry g.thread _ g.key g.token row hr rfl hrow htoken
    rw [hexpires] at huntil
    cases huntil
    rw [hleads] at hgroup
    cases hgroup
    refine ⟨hnow, (g.key, o), ho, rfl, hcolumns, ?_⟩
    rw [hp, hchild]
    rfl
  · rintro ⟨hnow, ⟨key, o⟩, ho, rfl, hcolumns, hthere⟩
    obtain ⟨-, horphaned⟩ : g.run.last = some g.attempt ∧ g.attempt.orphaned w.sys.clock := hi.orphan.sees _ _ hr
    obtain ⟨p, hp, hbirth, -, hgroup⟩ := hi.host.recordings g.key o ho
    -- what has the number now is the process that was started
    obtain ⟨p', hp', hbirth'⟩ := Option.map_eq_some_iff.1 hthere
    obtain ⟨k', hk'⟩ := hi.host.running g.pid p' hp'
    have hstill : p' = p := congrArg HostProcess.process (hi.host.born_once _ hk' _ hp (hbirth'.trans hbirth.symm))
    subst hstill
    have hnumber : o.child.pid = g.pid := Option.some.inj ((congrArg ProcessColumns.pid hcolumns).symm.trans hpid)
    refine ⟨⟨_, hi.claim.held g.thread _ g.key g.token hr rfl hnow, hnow⟩, horphaned, g.pid, p', o, hleads, hp', ?_, hp,
      ho, ?_, hcolumns⟩
    · exact hgroup g.pid ((congrArg ProcessColumns.groupId hcolumns).symm.trans hleads)
    · rw [← hnumber, hbirth]

theorem signalsOwnChild_iff (hi : RunInv w) : w.SignalsOwnChild a ↔ w.SignalsKnown a := by
  refine forall₂_congr (fun g hg => ?_)
  rw [owns_iff hi hg]
  refine and_congr_right (fun _ => ?_)
  cases hid : g.attempt.processIdentity with
  | none => simp
  | some id =>
    rw [shown_iff hi hg hid]
    simp

theorem SureSignal.known (h : w.SureSignal a) : w.SignalsKnown a := by
  intro g hg
  obtain ⟨hidentity, hnow, hinspected⟩ := h g hg
  refine ⟨hnow, fun _ => hinspected, fun hnone => ?_⟩
  rw [hnone] at hidentity
  cases hidentity

end SameHost

/-- **Recovery signals only its own child, under its claim, in exactly the runs in which each signal is a known one**: it is
sent within the recovery lease, the process that `ps` has shown is still there where a line is on record, and where none is,
no other process has got the number. -/
theorem signals_own_child_iff (cfg : Config) (acts : List Act)
    (h : Trace.Every (SameHost.step cfg) (fun w a => w.LinesDiffer cfg a ∧ w.LooksAtChild a) SameHost.init acts) :
    Trace.Every (SameHost.step cfg) SameHost.SignalsOwnChild SameHost.init acts ↔
      Trace.Every (SameHost.step cfg) SameHost.SignalsKnown SameHost.init acts := by
  have hstep : ∀ {C : SameHost → Act → Prop} (w : SameHost) (a : Act) (w' : SameHost), SameHost.RunInv w →
      (w.LinesDiffer cfg a ∧ w.LooksAtChild a) ∧ C w a → SameHost.step cfg w a = some w' → SameHost.RunInv w' :=
    fun _ _ _ hi hc hs => SameHost.runInv_step hi hs hc.1.1 hc.1.2
  constructor
  · intro hown
    exact Trace.every_of_inv hstep (fun _ _ hi hc => (SameHost.signalsOwnChild_iff hi).1 hc.2) SameHost.runInv_init
      (Trace.every_and h hown)
  · intro hknown
    exact Trace.every_of_inv hstep (fun _ _ hi hc => (SameHost.signalsOwnChild_iff hi).2 hc.2) SameHost.runInv_init
      (Trace.every_and h hknown)

/-- **Recovery signals only its own child**, in every run of workers, scans and any other parties on one host in which
each signal is a sure one: the claim stands, the orphan deadline has passed, and the group is led by the process that the
execution of the Attempt started and put on record. -/
theorem recovery_signals_own_child (cfg : Config) (acts : List Act)
    (h : Trace.Every (SameHost.step cfg) (fun w a => w.LinesDiffer cfg a ∧ w.LooksAtChild a ∧ w.SureSignal a)
      SameHost.init acts) :
    Trace.Every (SameHost.step cfg) SameHost.SignalsOwnChild SameHost.init acts :=
  Trace.every_of_inv (P := SameHost.RunInv) (fun _ _ _ hi hc hstep => SameHost.runInv_step hi hstep hc.1 hc.2.1)
    (fun _ _ hi hc => (SameHost.signalsOwnChild_iff hi).2 hc.2.2.known) SameHost.runInv_init h

/-- The worker asks `ps` about its child and records it; the scan comes when the orphan deadline has passed, claims the
Attempt and asks `ps` about the child on record. -/
def orphanActs (answered : Bool) (between : List Act) : List Act :=
  claimActs ++
  [.call 2 "c3" [], .call 2 "c4" [], .advance 2 4 "c5" .go, .advance 2 0 "c6" (.child 7 7 (some "start")),
   .advance 2 0 "c7" (.ps answered), .call 2 "c8" []] ++ between ++
  [.tick 100, .start 3 (.recover 2 (.enter 0)), .advance 3 0 "d1" .go, .call 3 "d2" [], .call 3 "d3" [],
   .call 3 "d4" [], .advance 3 0 "d5" .go, .advance 3 0 "d6" .go, .advance 3 0 "d7" .go, .call 3 "d8" [],
   .advance 3 0 "d9" (.signal true), .advance 3 0 "d10" (.ps true)]

def sigterm : Act := .advance 3 0 "d11" (.signal true)

theorem orphan_signalled :
    (∃ w, Trace.run (SameHost.step workerConfig) SameHost.init (orphanActs true []) = some w ∧
      (w.sys.signal sigterm).map (fun g => (g.key, g.attempt.processGroupId)) = some (("job", 1), some 7) ∧
      (SameHost.step workerConfig w sigterm).isSome = true) ∧
    Trace.Every (SameHost.step workerConfig) SameHost.SignalsOwnChild SameHost.init (orphanActs true [] ++ [sigterm]) := by
  have hreached : (Trace.run (SameHost.step workerConfig) SameHost.init (orphanActs true [])).map (fun w =>
      ((w.sys.signal sigterm).map (fun g => (g.key, g.attempt.processGroupId)),
        (SameHost.step workerConfig w sigterm).isSome)) = some (some (("job", 1), some 7), true) := by
    decide +kernel
  have htest : Trace.Every (SameHost.step workerConfig)
      (fun w a => w.LinesDiffer workerConfig a ∧ w.LooksAtChild a ∧ w.SureSignal a) SameHost.init
      (orphanActs true [] ++ [sigterm]) := by
    decide +kernel
  obtain ⟨w, hw, hsignal⟩ := Option.map_eq_some_iff.1 hreached
  obtain ⟨hsent, hstep⟩ := Prod.mk.inj hsignal
  exact ⟨⟨w, hw, hsent, hstep⟩, recovery_signals_own_child workerConfig _ htest⟩

/-- A child without a line on record is signalled while it has its number. -/
theorem unrecorded_signalled :
    (∃ w, Trace.run (SameHost.step workerConfig) SameHost.init (orphanActs false []) = some w ∧
      (w.sys.signal sigterm).map (fun g => (g.key, g.attempt.processIdentity)) = some (("job", 1), none)) ∧
    Trace.Every (SameHost.step workerConfig) SameHost.SignalsOwnChild SameHost.init (orphanActs false [] ++ [sigterm]) := by
  have hreached : (Trace.run (SameHost.step workerConfig) SameHost.init (orphanActs false [])).map (fun w =>
      (w.sys.signal sigterm).map (fun g => (g.key, g.attempt.processIdentity))) = some (some (("job", 1), none)) := by
    decide +kernel
  have hhost : Trace.Every (SameHost.step workerConfig) (fun w a => w.LinesDiffer workerConfig a ∧ w.LooksAtChild a)
      SameHost.init (orphanActs false [] ++ [sigterm]) := by
    decide +kernel
  have hknown : Trace.Every (SameHost.step workerConfig) SameHost.SignalsKnown SameHost.init
      (orphanActs false [] ++ [sigterm]) := by
    decide +kernel
  obtain ⟨w, hw, hsignal⟩ := Option.map_eq_some_iff.1 hreached
  exact ⟨⟨w, hw, hsignal⟩, (signals_own_child_iff workerConfig _ hhost).2 hknown⟩

/-- **An unrecorded line matches any process**: the worker's `ps` fails, the child is gone and its number another
process's, and the scan signals that one. -/
theorem recovery_signals_stranger :
    Trace.Every (SameHost.step workerConfig) (fun w a => w.LinesDiffer workerConfig a ∧ w.LooksAtChild a) SameHost.init
      (orphanActs false [.exit 7, .spawn 7 7 (some "other")] ++ [sigterm]) ∧
    ¬ Trace.Every (SameHost.step workerConfig) SameHost.SignalsOwnChild SameHost.init
      (orphanActs false [.exit 7, .spawn 7 7 (some "other")] ++ [sigterm]) := by
  refine ⟨by decide +kernel, fun h => ?_⟩
  have hrun : (Trace.run (SameHost.step workerConfig) SameHost.init
      (orphanActs false [.exit 7, .spawn 7 7 (some "other")])).map (fun w =>
        (w.sys.signal sigterm).any (fun g => decide (g.attempt.processGroupId = some 7)) &&
          decide (w.sys.processes 7 = some ⟨1, 7, some "other"⟩) &&
          w.started.all (fun x => decide (x.process.birth = 1 → x.attempt = none))) = some true := by
    decide +kernel
  obtain ⟨w, hw, hfacts⟩ := Option.map_eq_some_iff.1 hrun
  simp only [Bool.and_eq_true, Option.any_eq_true, List.all_eq_true, decide_eq_true_eq] at hfacts
  obtain ⟨⟨⟨g, hg, hgroup⟩, hproc⟩, hstarted⟩ := hfacts
  have howns := Trace.every_iff_forall_split.1 h _ sigterm [] w rfl hw g hg
  obtain ⟨group, p, o, hgroup', hp, -, hmem, -⟩ := howns.leads
  rw [hgroup] at hgroup'
  cases hgroup'
  rw [hproc] at hp
  cases hp
  cases hstarted _ hmem rfl

end EdaLab
