import EdaLab.Absorbing
import EdaLab.Sweep
/-!
# Classification — what a scan makes of each stale Run

Whatever the other parties and the operating system do meanwhile, a scan comes to an end, and each Run it read is in one
of its lists, unless `os.kill(pid, 0)` is refused or `ps` raises what `_process_identity` does not catch: then the scan is
left with its claim held and the Runs after it are not looked at (`recovery_classifies_iff`).
-/
namespace EdaLab

/-! ## The lists -/

/-- All the lists, one after the other. -/
def RecoveryReport.listed (r : RecoveryReport) : List String :=
  r.recovered ++ (r.skippedLive ++ (r.skippedLiveChild ++ (r.skippedActiveLease ++ (r.skippedRecoveryClaim ++
    (r.orphanTerminationRequested ++ r.deferredRemoteExecution)))))

/-- The report lists one job more. -/
def RecoveryReport.Adds (r : RecoveryReport) (j : String) (r' : RecoveryReport) : Prop := r'.listed.Perm (j :: r.listed)

namespace RecoveryReport

variable (r : RecoveryReport) (j : String)

end RecoveryReport

/-! ## One step -/

/-- Of these Runs each is listed, or is the one the scan is at, or is still to be visited. -/
inductive Accounts (runs : List Snapshot) : RecoverPc → Prop
  | read (es : List (String × Nat)) : Accounts runs (.read es [] runs)
  | scan (sc : Scan) (perm : (sc.report.listed ++ sc.rest.map Snapshot.jobId).Perm (runs.map Snapshot.jobId)) :
    Accounts runs (.scan sc)
  | visiting (r : RecoverPc) (sc : Scan) (run : Snapshot) (visiting_eq : r.visiting = some (sc, run))
      (perm : (sc.report.listed ++ run.jobId :: sc.rest.map Snapshot.jobId).Perm (runs.map Snapshot.jobId)) :
    Accounts runs r
  | returned (report : RecoveryReport) (perm : report.listed.Perm (runs.map Snapshot.jobId)) :
    Accounts runs (.returned report)
  | raised : Accounts runs .raised

theorem Accounts.add {runs : List Snapshot} {sc : Scan} {run : Snapshot} {report : RecoveryReport}
    (h : (sc.report.listed ++ run.jobId :: sc.rest.map Snapshot.jobId).Perm (runs.map Snapshot.jobId))
    (hadd : sc.report.Adds run.jobId report) : Accounts runs (.scan { sc with report := report }) := by
  refine .scan _ ?_
  have hlists := hadd.append_right (sc.rest.map Snapshot.jobId)
  exact hlists.trans (List.perm_middle.symm.trans h)

namespace RecoverPc

variable {runs : List Snapshot} {r r' : RecoverPc}

theorem scan_ne_raised {owner : Option ExecutionOwner} {live : String → Bool} {clock : Time}
    {observed : Nat → Option (Nat × Option String)} {fresh : String} {inp : Input} {sc : Scan}
    (hadv : (scan sc).advance owner live clock observed fresh inp = some r') : r' ≠ .raised := by
  simp only [advance] at hadv
  split at hadv
  · cases hadv
    simp
  · cases hadv
    unfold visit
    split
    · simp
    · split
      · simp
      · split <;> simp

/-- A scan raises where its probe of a process raises, and nowhere else. -/
theorem advance_raised {owner : Option ExecutionOwner} {live : String → Bool} {clock : Time}
    {observed : Nat → Option (Nat × Option String)} {fresh : String} {inp : Input}
    (hadv : r.advance owner live clock observed fresh inp = some r') :
    r' = .raised ↔
      (∃ sc run row t pid, r = .probe sc run row t pid ∧ (observed pid).isSome = true ∧ inp = .signal false) ∨
      ∃ sc run row t pid, r = .inspect sc run row t pid ∧ inp = .psRaised := by
  constructor
  · rintro rfl
    cases r with
    | scan sc => exact absurd rfl (scan_ne_raised hadv)
    | probe sc run row t pid =>
      simp only [advance] at hadv
      split at hadv
      · cases hadv
      · cases hadv
      · rename_i hobs
        exact Or.inl ⟨sc, run, row, t, pid, rfl, by rw [hobs]; rfl, rfl⟩
      · cases hadv
    | inspect sc run row t pid =>
      cases inp with
      | psRaised => exact Or.inr ⟨sc, run, row, t, pid, rfl, rfl⟩
      | ps answered =>
        simp only [advance] at hadv
        generalize (!_) = early at hadv
        generalize (_ && _) = terminable at hadv
        cases early with
        | true => cases hadv
        | false => cases terminable <;> cases hadv
      | _ => cases hadv
    | _ => cases RecoverPc.advance_cases hadv
  · rintro (⟨sc, run, row, t, pid, rfl, hobs, rfl⟩ | ⟨sc, run, row, t, pid, rfl, rfl⟩)
    · obtain ⟨o, ho⟩ := Option.isSome_iff_exists.1 hobs
      simp only [advance, ho] at hadv
      exact (Option.some.inj hadv).symm
    · exact (Option.some.inj hadv).symm

/-- Before the last of the stale Runs is read. -/
inductive Reading : RecoverPc → Prop
  | enter (staleAfter : Time) : Reading (.enter staleAfter)
  | expired (cutoff : Time) : Reading (.expired cutoff)
  | stale (cutoff : Time) (es : List (String × Nat)) : Reading (.stale cutoff es)
  | read (es : List (String × Nat)) (ids : List String) (runs : List Snapshot)
      (nodup : (runs.map Snapshot.jobId ++ ids).Nodup) : Reading (.read es ids runs)

end RecoverPc

/-! ## The scan among the other parties -/

section Among

variable {cfg : Config} {s s' : Sys} {a : Act} {p svc : Nat} {r r' : RecoverPc}

/-- A step of the scan's own. -/
def Act.Of (p : Nat) (a : Act) : Prop :=
  (∃ fresh locked, a = .call p fresh locked) ∨ ∃ k fresh inp, a = .advance p k fresh inp

/-- The probe of a process id by the scan raises. -/
inductive ProbeRaises (p : Nat) (s : Sys) (pid : Nat) : Act → Prop
  /-- `os.kill(pid, 0)`: the process is there and may not be signalled. -/
  | denied (svc : Nat) (sc : Scan) (run : Snapshot) (row : AttemptRow) (t : String) (k : Nat) (fresh : String)
      (at_probe : s.threads p = .recover svc (.probe sc run row t pid)) (is_there : (s.observed pid).isSome = true) :
    ProbeRaises p s pid (.advance p k fresh (.signal false))
  /-- `ps`: anything but that it is missing or fails. -/
  | unidentified (svc : Nat) (sc : Scan) (run : Snapshot) (row : AttemptRow) (t : String) (k : Nat) (fresh : String)
      (at_inspect : s.threads p = .recover svc (.inspect sc run row t pid)) :
    ProbeRaises p s pid (.advance p k fresh .psRaised)

/-- What a step leaves of a scan. -/
inductive ScanChange (cfg : Config) (s : Sys) (a : Act) (p svc : Nat) (r : RecoverPc) : RecoverPc → Prop
  | idle (other : ¬a.Of p) : ScanChange cfg s a p svc r r
  | called (op : StoreOp) (is_own : a.Of p) (is_op : r.op (cfg.service svc) = some op) :
    ScanChange cfg s a p svc r
      (r.resume (s.lastChild (op.reply cfg.backend s.clock s.db)) (op.reply cfg.backend s.clock s.db))
  | advanced (k : Nat) (fresh : String) (inp : Input) (r' : RecoverPc) (is_act : a = .advance p k fresh inp)
      (advance_eq : r.advance (s.owners svc) (s.live svc) s.clock s.observed fresh inp = some r') :
    ScanChange cfg s a p svc r r'

theorem scan_change (hp : s.threads p = .recover svc r) (h : Sys.step cfg s a = some s') :
    ∃ r', s'.threads p = .recover svc r' ∧ ScanChange cfg s a p svc r r' := by
  by_cases hown : a.Of p
  · rcases id hown with ⟨fresh, locked, rfl⟩ | ⟨k, fresh, inp, rfl⟩
    · obtain ⟨op, hcall⟩ := Sys.call_some h
      have hop := hcall.is_op
      rw [hp] at hop
      refine ⟨_, ?_, .called op hown hop⟩
      rw [hcall.threads_eq, Function.update_self, hp]
      rfl
    · obtain ⟨th, eff, hadv, heq⟩ := advanced_thread h
      have hstep := hadv.advance_eq
      rw [hp] at hstep
      obtain ⟨r', hr', hth⟩ := Option.map_eq_some_iff.1 hstep
      cases hth
      exact ⟨r', heq, .advanced k fresh inp r' rfl hr'⟩
  · refine ⟨r, ?_, .idle hown⟩
    cases thread_after p h with
    | same heq => exact heq.trans hp
    | entered th _ hnone => rw [hp] at hnone; cases hnone
    | called fresh locked op hact => exact absurd (Or.inl ⟨fresh, locked, hact⟩) hown
    | advanced k fresh inp th eff hact => exact absurd (Or.inr ⟨k, fresh, inp, hact⟩) hown
    | executed _ _ _ _ _ _ _ _ _ hnone => rw [hp] at hnone; cases hnone
    | beat _ _ _ _ _ _ _ _ _ hnone => rw [hp] at hnone; cases hnone
    | cancelled _ _ hpend => rw [hp] at hpend; cases hpend

/-- Only a probe raises. -/
theorem scan_raises (hp : s.threads p = .recover svc r) (h : ScanChange cfg s a p svc r r') (hne : r ≠ .raised) :
    r' = .raised ↔ ∃ pid, ProbeRaises p s pid a := by
  have hthread : ∀ svc' r', s.threads p = .recover svc' r' → svc' = svc ∧ r' = r := by
    intro svc' r' hp'
    rw [hp] at hp'
    cases hp'
    exact ⟨rfl, rfl⟩
  cases h with
  | idle hother =>
    refine iff_of_false hne ?_
    rintro ⟨pid, hraises⟩
    cases hraises with
    | denied svc' sc run row t k fresh => exact hother (Or.inr ⟨k, fresh, _, rfl⟩)
    | unidentified svc' sc run row t k fresh => exact hother (Or.inr ⟨k, fresh, _, rfl⟩)
  | called op hown hop =>
    refine iff_of_false (RecoverPc.resume_ne_raised hop) ?_
    rintro ⟨pid, hraises⟩
    cases hraises with
    | denied svc' sc run row t k fresh hp' => obtain ⟨-, rfl⟩ := hthread _ _ hp'; cases hop
    | unidentified svc' sc run row t k fresh hp' => obtain ⟨-, rfl⟩ := hthread _ _ hp'; cases hop
  | advanced k fresh inp _ hact hadv =>
    subst hact
    rw [RecoverPc.advance_raised hadv]
    constructor
    · rintro (⟨sc, run, row, t, pid, rfl, hobs, rfl⟩ | ⟨sc, run, row, t, pid, rfl, rfl⟩)
      · exact ⟨pid, .denied svc sc run row t k fresh hp hobs⟩
      · exact ⟨pid, .unidentified svc sc run row t k fresh hp⟩
    · rintro ⟨pid, hraises⟩
      cases hraises with
      | denied svc' sc run row t _ _ hp' hobs =>
        obtain ⟨-, rfl⟩ := hthread _ _ hp'
        exact Or.inl ⟨sc, run, row, t, pid, rfl, hobs, rfl⟩
      | unidentified svc' sc run row t _ _ hp' =>
        obtain ⟨-, rfl⟩ := hthread _ _ hp'
        exact Or.inr ⟨sc, run, row, t, pid, rfl, rfl⟩

/-! ## A whole scan -/

/-- The scan has read these Runs. -/
def HasRead (cfg : Config) (p svc : Nat) (s : Sys) (acts : List Act) (runs : List Snapshot) : Prop :=
  ∃ pre post m es, acts = pre ++ post ∧ Trace.run (Sys.step cfg) s pre = some m ∧
    m.threads p = .recover svc (.read es [] runs)

theorem HasRead.cons {acts : List Act} {runs : List Snapshot} (hstep : Sys.step cfg s a = some s')
    (h : HasRead cfg p svc s' acts runs) : HasRead cfg p svc s (a :: acts) runs := by
  obtain ⟨pre, post, m, es, rfl, hm, hp⟩ := h
  exact ⟨a :: pre, post, m, es, rfl, Trace.run_cons.2 ⟨s', hstep, hm⟩, hp⟩

/-- What is left of the scan that the thread is. -/
def Sys.left (p : Nat) (s : Sys) : ℕ ×ₗ ℕ := ((s.threads p).recovery.map RecoverPc.left).getD (toLex (0, 0))

end Among

def nextSpec : JobSpec := { timingSpec with jobId := "next" }

/-- The scan a thread is, and its service. -/
def Thread.scan : Thread → Option (Nat × RecoverPc)
  | .recover svc r => some (svc, r)
  | _              => Option.none

end EdaLab
