import EdaLab.Queue
/-!
# Holder — the Runs a party works on

An execution holds its job, and so does a worker between its claim and `execute_claimed`, and a local submitter between
its insert and its dispatch (`Thread.holds`).  A recovery scan keeps the jobs it has read (`RecoverPc.ids`,
`RecoverPc.snapshots`).  This module says where a thread has these from.
-/
namespace EdaLab

open Relational

/-! ## Recovery scans -/

/-- The ids the scan has still to read. -/
def RecoverPc.ids : RecoverPc → List String
  | .read _ ids _ => ids
  | _             => []

/-- The Runs the scan has read and not left. -/
def RecoverPc.snapshots : RecoverPc → List Snapshot
  | .read _ _ runs          => runs
  | .scan sc                => sc.rest
  | .failNoAttempt sc run   => run :: sc.rest
  | .gate sc run _          => run :: sc.rest
  | .lease sc run _         => run :: sc.rest
  | .claim sc run _ _       => run :: sc.rest
  | .probe sc run _ _ _     => run :: sc.rest
  | .inspect sc run _ _ _   => run :: sc.rest
  | .kill sc run _ _ _      => run :: sc.rest
  | .release sc run _ _ _   => run :: sc.rest
  | .witness sc run _ _     => run :: sc.rest
  | .finalize sc run _ _ _ _ => run :: sc.rest
  | _                       => []

theorem RecoverPc.resume_snapshots {child : Option Child} {reply : Reply} {r : RecoverPc} {x : Snapshot}
    (h : x ∈ (r.resume child reply).snapshots) :
    x ∈ r.snapshots ∨ ∃ es j ids runs v, r = .read es (j :: ids) runs ∧ reply = .run (some v) ∧ x = ⟨v, child⟩ := by
  cases r with
  | expired cutoff => simp only [resume] at h; split at h <;> cases h
  | stale cutoff es => simp only [resume] at h; split at h <;> cases h
  | read es ids runs =>
    cases ids with
    | nil => exact Or.inl h
    | cons j ids =>
      simp only [resume] at h
      split at h
      · rename_i v
        rcases List.mem_append.1 h with h | h
        · exact Or.inl h
        · exact Or.inr ⟨es, j, ids, runs, v, rfl, rfl, List.mem_singleton.1 h⟩
      · exact Or.inl h
  | failNoAttempt sc run => exact Or.inl (List.mem_cons_of_mem _ h)
  | gate sc run a =>
    simp only [resume] at h
    split at h
    · exact Or.inl h
    · exact Or.inl (List.mem_cons_of_mem _ h)
  | claim sc run a t =>
    simp only [resume] at h
    split at h
    · split at h <;> exact Or.inl h
    · exact Or.inl (List.mem_cons_of_mem _ h)
  | release sc run a t why => cases why <;> exact Or.inl (List.mem_cons_of_mem _ h)
  | witness sc run a t => simp only [resume] at h; split at h <;> exact Or.inl h
  | finalize sc run a t k m => simp only [resume] at h; split at h <;> exact Or.inl (List.mem_cons_of_mem _ h)
  | _ => exact Or.inl h

theorem RecoverPc.resume_ids {child : Option Child} {reply : Reply} {r : RecoverPc} {j : String}
    (h : j ∈ (r.resume child reply).ids) :
    j ∈ r.ids ∨ ∃ cutoff es js, r = .stale cutoff es ∧ reply = .jobIds js ∧ j ∈ js := by
  cases r with
  | stale cutoff es =>
    simp only [resume] at h
    split at h
    · rename_i js
      exact Or.inr ⟨cutoff, es, js, rfl, rfl, h⟩
    · cases h
  | expired cutoff => simp only [resume] at h; split at h <;> cases h
  | read es ids runs =>
    cases ids with
    | nil => cases h
    | cons i ids => simp only [resume] at h; split at h <;> exact Or.inl (List.mem_cons_of_mem _ h)
  | gate sc run a => simp only [resume] at h; split at h <;> cases h
  | claim sc run a t =>
    simp only [resume] at h
    split at h
    · split at h <;> cases h
    · cases h
  | release sc run a t why => cases why <;> cases h
  | witness sc run a t => simp only [resume] at h; split at h <;> cases h
  | finalize sc run a t k m => simp only [resume] at h; split at h <;> cases h
  | _ => cases h

theorem RecoverPc.visit_snapshots {owner : Option ExecutionOwner} {live : String → Bool} {sc : Scan} {run x : Snapshot}
    (h : x ∈ (visit owner live sc run).snapshots) : x = run ∨ x ∈ sc.rest := by
  unfold visit at h
  split at h
  · exact Or.inr h
  · split at h
    · exact List.mem_cons.1 h
    · split at h <;> exact List.mem_cons.1 h

theorem RecoverPc.visit_ids {owner : Option ExecutionOwner} {live : String → Bool} {sc : Scan} {run : Snapshot} :
    (visit owner live sc run).ids = [] := by
  unfold visit
  split
  · rfl
  · split
    · rfl
    · split <;> rfl

/-- The `orphan_deadline` the scan read is over. -/
def AttemptRow.orphaned (a : AttemptRow) (clock : Time) : Prop := ∃ d, a.orphanDeadline = some d ∧ d ≤ clock

/-- The steps of the scan that call no store. -/
inductive RecoverPc.Advance (owner : Option ExecutionOwner) (live : String → Bool) (clock : Time)
    (observed : Nat → Option (Nat × Option String)) (fresh : String) : RecoverPc → RecoverPc → Prop
  | enter (staleAfter : Time) : Advance owner live clock observed fresh (.enter staleAfter) (.expired (clock - staleAfter))
  | scanned (es : List (String × Nat)) (runs : List Snapshot) :
    Advance owner live clock observed fresh (.read es [] runs) (.scan { expired := es, rest := runs })
  | returned (sc : Scan) (rest_eq : sc.rest = []) : Advance owner live clock observed fresh (.scan sc) (.returned sc.report)
  | visited (sc : Scan) (run : Snapshot) (rest : List Snapshot) (rest_eq : sc.rest = run :: rest) :
    Advance owner live clock observed fresh (.scan sc) (visit owner live { sc with rest := rest } run)
  | leased (sc : Scan) (run : Snapshot) (a : AttemptRow) (report : RecoveryReport)
      (held : truthy a.leaseToken = true ∧ (run.jobId, a.attemptNo) ∉ sc.expired) :
    Advance owner live clock observed fresh (.lease sc run a) (.scan { sc with report := report })
  | claim (sc : Scan) (run : Snapshot) (a : AttemptRow)
      (free : truthy a.leaseToken = true → (run.jobId, a.attemptNo) ∈ sc.expired) :
    Advance owner live clock observed fresh (.lease sc run a) (.claim sc run a fresh)
  | gone (sc : Scan) (run : Snapshot) (a : AttemptRow) (t : String) (pid : Nat) (unobserved : observed pid = none) :
    Advance owner live clock observed fresh (.probe sc run a t pid) (.witness sc run a t)
  | there (sc : Scan) (run : Snapshot) (a : AttemptRow) (t : String) (pid : Nat) (found : (observed pid).isSome = true) :
    Advance owner live clock observed fresh (.probe sc run a t pid) (.inspect sc run a t pid)
  | denied (sc : Scan) (run : Snapshot) (a : AttemptRow) (t : String) (pid : Nat) (found : (observed pid).isSome = true) :
    Advance owner live clock observed fresh (.probe sc run a t pid) .raised
  | unidentified (sc : Scan) (run : Snapshot) (a : AttemptRow) (t : String) (pid : Nat) :
    Advance owner live clock observed fresh (.inspect sc run a t pid) .raised
  | young (sc : Scan) (run : Snapshot) (a : AttemptRow) (t : String) (pid : Nat) (early : ¬ a.orphaned clock) :
    Advance owner live clock observed fresh (.inspect sc run a t pid) (.release sc run a t .liveChild)
  | terminable (sc : Scan) (run : Snapshot) (a : AttemptRow) (t : String) (pid : Nat) (orphaned : a.orphaned clock)
      (identified : a.processIdentity = none ∨ a.processIdentity = (observed pid).bind (·.2))
      (leads : a.processGroupId = some pid) :
    Advance owner live clock observed fresh (.inspect sc run a t pid) (.kill sc run a t pid)
  | unknown (sc : Scan) (run : Snapshot) (a : AttemptRow) (t : String) (pid : Nat) (orphaned : a.orphaned clock) :
    Advance owner live clock observed fresh (.inspect sc run a t pid) (finalizeOrphan sc run a t)
  | killed (sc : Scan) (run : Snapshot) (a : AttemptRow) (t : String) (pid : Nat) :
    Advance owner live clock observed fresh (.kill sc run a t pid) (.release sc run a t .terminationRequested)
  | unkillable (sc : Scan) (run : Snapshot) (a : AttemptRow) (t : String) (pid : Nat) :
    Advance owner live clock observed fresh (.kill sc run a t pid) (finalizeOrphan sc run a t)

theorem RecoverPc.advance_cases {owner : Option ExecutionOwner} {live : String → Bool} {clock : Time}
    {observed : Nat → Option (Nat × Option String)} {fresh : String} {inp : Input} {r r' : RecoverPc}
    (h : r.advance owner live clock observed fresh inp = some r') : Advance owner live clock observed fresh r r' := by
  cases r with
  | enter staleAfter => cases h; exact .enter staleAfter
  | read es ids runs =>
    cases ids with
    | nil => cases h; exact .scanned es runs
    | cons j ids => cases h
  | scan sc =>
    simp only [advance] at h
    split at h
    · rename_i hrest
      cases h
      exact .returned sc hrest
    · rename_i run rest hrest
      cases h
      exact .visited sc run rest hrest
  | lease sc run a =>
    simp only [advance] at h
    split at h
    · rename_i hheld
      simp only [Bool.and_eq_true, decide_eq_true_eq] at hheld
      cases h
      exact .leased sc run a _ hheld
    · rename_i hfree
      simp only [Bool.and_eq_true, decide_eq_true_eq, not_and, not_not] at hfree
      cases h
      exact .claim sc run a hfree
  | probe sc run a t pid =>
    simp only [advance] at h
    split at h
    · rename_i hnone
      cases h
      exact .gone sc run a t pid hnone
    · rename_i hsome
      cases h
      exact .there sc run a t pid (by rw [hsome]; rfl)
    · rename_i hsome
      cases h
      exact .denied sc run a t pid (by rw [hsome]; rfl)
    · cases h
  | inspect sc run a t pid =>
    cases inp with
    | ps answered =>
      have horphaned : a.orphanDeadline.any (fun d => decide (d ≤ clock)) = true ↔ a.orphaned clock := by
        rw [Option.any_eq_true]
        exact exists_congr fun d => and_congr_right fun _ => decide_eq_true_iff
      simp only [advance] at h
      split at h
      · rename_i hd
        cases h
        exact .young sc run a t pid (fun ho => by rw [horphaned.2 ho] at hd; cases hd)
      · rename_i hd
        have ho := horphaned.1 (by simpa using hd)
        generalize hm : (_ && _) = terminable at h
        cases terminable with
        | true =>
          cases h
          simp only [Bool.and_eq_true, decide_eq_true_eq] at hm
          refine .terminable sc run a t pid ho ?_ hm.2
          rcases hm.1 with hnone | hident
          · exact Or.inl hnone
          · cases answered with
            | true => exact Or.inr hident
            | false => exact Or.inl hident
        | false =>
          cases h
          exact .unknown sc run a t pid ho
    | psRaised => cases h; exact .unidentified sc run a t pid
    | _ => cases h
  | kill sc run a t pid =>
    cases inp with
    | signal permitted =>
      cases permitted with
      | true => cases h; exact .killed sc run a t pid
      | false => cases h; exact .unkillable sc run a t pid
    | _ => cases h
  | _ => cases h

/-- A step of the scan that calls no store reads nothing new. -/
theorem RecoverPc.Advance.keeps {owner : Option ExecutionOwner} {live : String → Bool} {clock : Time}
    {observed : Nat → Option (Nat × Option String)} {fresh : String} {r r' : RecoverPc}
    (h : Advance owner live clock observed fresh r r') : (∀ x ∈ r'.snapshots, x ∈ r.snapshots) ∧ r'.ids = [] := by
  cases h with
  | enter staleAfter => exact ⟨(fun x hx => by cases hx), rfl⟩
  | returned sc hrest => exact ⟨(fun x hx => by cases hx), rfl⟩
  | visited sc run rest hrest =>
    refine ⟨fun x hx => ?_, visit_ids⟩
    show x ∈ sc.rest
    rw [hrest]
    exact List.mem_cons.2 (visit_snapshots hx)
  | leased sc run a report hheld => exact ⟨fun x hx => List.mem_cons_of_mem _ hx, rfl⟩
  | denied => exact ⟨(fun x hx => by cases hx), rfl⟩
  | unidentified => exact ⟨(fun x hx => by cases hx), rfl⟩
  | _ => exact ⟨fun x hx => hx, rfl⟩

/-! ## Where the scan of a thread comes from -/

theorem DrainPc.ofRecover_recovering {r r' : RecoverPc} (h : ofRecover r = .recovering r') : r' = r := by
  unfold ofRecover at h
  split at h <;> cases h
  rfl

theorem DrainPc.resume_recovering {svc : Service} {child : Option Child} {reply : Reply} {d : Drain} {pc : DrainPc}
    {r' : RecoverPc} (h : pc.resume svc child reply d = .recovering r') :
    ∃ r, pc = .recovering r ∧ r' = r.resume child reply := by
  cases pc with
  | recovering r => exact ⟨r, rfl, ofRecover_recovering h⟩
  | capacity =>
    simp only [resume] at h
    split at h
    · split at h <;> cases h
    · cases h
  | claim => simp only [resume] at h; split at h <;> cases h
  | _ => cases h

theorem Thread.resume_recovery {cfg : Config} {s : Sys} {fresh : String} {reply : Reply} {th : Thread} {r' : RecoverPc}
    (h : (th.resume cfg s fresh reply).recovery = some r') :
    ∃ r, th.recovery = some r ∧ r' = r.resume (s.lastChild reply) reply := by
  cases th with
  | recover svc r => cases h; exact ⟨r, rfl, rfl⟩
  | drain svc d pc =>
    simp only [Thread.resume] at h
    cases hpc : pc.resume (cfg.service svc) (s.lastChild reply) reply d with
    | recovering r =>
      rw [hpc] at h
      cases h
      obtain ⟨r₀, rfl, hr⟩ := DrainPc.resume_recovering hpc
      exact ⟨r₀, rfl, hr⟩
    | _ => rw [hpc] at h; cases h
  | agent svc self d pc =>
    cases pc with
    | drain pc =>
      simp only [Thread.resume, AgentPc.resume] at h
      cases hpc : pc.resume (cfg.service svc) (s.lastChild reply) reply d with
      | recovering r =>
        rw [hpc] at h
        cases h
        obtain ⟨r₀, rfl, hr⟩ := DrainPc.resume_recovering hpc
        exact ⟨r₀, rfl, hr⟩
      | _ => rw [hpc] at h; cases h
    | start => simp only [Thread.resume, AgentPc.resume] at h; split at h <;> cases h
    | session => simp only [Thread.resume, AgentPc.resume] at h; split at h <;> cases h
    | _ => cases h
  | _ => cases h

theorem DrainPc.advance_recovering {svc : Service} {owner : Option ExecutionOwner} {live : String → Bool} {clock : Time}
    {observed : Nat → Option (Nat × Option String)} {result : Nat → Option FutureResult} {child : Nat} {fresh : String}
    {inp : Input} {d d' : Drain} {pc : DrainPc} {r' : RecoverPc} {eff : Effect}
    (h : pc.advance svc owner live clock observed result child fresh inp d = some (d', .recovering r', eff)) :
    (pc = .enter ∧ r' = .enter svc.leaseSeconds) ∨
    ∃ r, pc = .recovering r ∧ r.advance owner live clock observed fresh inp = some r' := by
  cases pc with
  | enter =>
    simp only [advance, Option.some.injEq, Prod.mk.injEq] at h
    obtain ⟨-, h, -⟩ := h
    split at h <;> cases h
    exact Or.inl ⟨rfl, rfl⟩
  | recovering r =>
    obtain ⟨x, hx, hx'⟩ := Option.map_eq_some_iff.1 h
    simp only [Prod.mk.injEq] at hx'
    have hr := ofRecover_recovering hx'.2.1
    subst hr
    exact Or.inr ⟨r, rfl, hx⟩
  | loop =>
    simp only [advance] at h
    split at h
    · simp only [Option.some.injEq, Prod.mk.injEq] at h
      obtain ⟨-, h, -⟩ := h
      split at h <;> cases h
    · cases h
  | slots =>
    simp only [advance, Option.some.injEq, Prod.mk.injEq] at h
    obtain ⟨-, h, -⟩ := h
    split at h <;> cases h
  | wait => simp only [advance] at h; split at h <;> cases h
  | collect rest =>
    cases rest with
    | nil => cases h
    | cons f rest => simp only [advance] at h; split at h <;> cases h
  | _ => cases h

theorem Thread.advance_scan {cfg : Config} {s : Sys} {k : Nat} {fresh : String} {inp : Input} {th th' : Thread}
    {eff : Effect} {r' : RecoverPc} (h : th.advance cfg s k fresh inp = some (th', eff)) (hr : th'.recovery = some r') :
    (∃ staleAfter, r' = .enter staleAfter) ∨
    ∃ svc r, th.service = some svc ∧ th.recovery = some r ∧
      r.advance (s.owners svc) (s.live svc) s.clock s.observed fresh inp = some r' := by
  cases th with
  | none => cases h
  | recover svc r =>
    obtain ⟨x, hx, hx'⟩ := Option.map_eq_some_iff.1 h
    cases hx'
    cases hr
    exact Or.inr ⟨svc, r, rfl, rfl, hx⟩
  | drain svc d pc =>
    obtain ⟨⟨d', pc', eff'⟩, hx, hx'⟩ := Option.map_eq_some_iff.1 h
    cases hx'
    cases pc' with
    | recovering r =>
      cases hr
      rcases DrainPc.advance_recovering hx with ⟨-, he⟩ | ⟨r₀, rfl, hr⟩
      · exact Or.inl ⟨_, he⟩
      · exact Or.inr ⟨svc, r₀, rfl, rfl, hr⟩
    | _ => cases hr
  | agent svc self d pc =>
    obtain ⟨⟨d', pc', eff'⟩, hx, hx'⟩ := Option.map_eq_some_iff.1 h
    cases hx'
    cases pc with
    | drain pc =>
      obtain ⟨⟨d₁, pc₁, eff₁⟩, hy, hy'⟩ := Option.map_eq_some_iff.1 hx
      cases hy'
      cases pc₁ with
      | recovering r =>
        cases hr
        rcases DrainPc.advance_recovering hy with ⟨-, he⟩ | ⟨r₀, rfl, hr⟩
        · exact Or.inl ⟨_, he⟩
        · exact Or.inr ⟨svc, r₀, rfl, rfl, hr⟩
      | _ => cases hr
    | enter =>
      obtain ⟨-, rfl, -⟩ : d = d' ∧ (if s.owners svc = some self then AgentPc.session else .start) = pc' ∧
          Effect.none = eff' := by simpa [AgentPc.advance] using hx
      by_cases ho : s.owners svc = some self
      · rw [if_pos ho] at hr
        cases hr
      · rw [if_neg ho] at hr
        cases hr
    | own => simp only [AgentPc.advance] at hx; split at hx <;> cases hx <;> cases hr
    | _ => cases hx
  | _ =>
    obtain ⟨x, hx, hx'⟩ := Option.map_eq_some_iff.1 h
    cases hx'
    cases hr

theorem Thread.advance_recovery {cfg : Config} {s : Sys} {k : Nat} {fresh : String} {inp : Input} {th th' : Thread}
    {eff : Effect} {r' : RecoverPc} (h : th.advance cfg s k fresh inp = some (th', eff)) (hr : th'.recovery = some r') :
    (∃ staleAfter, r' = .enter staleAfter) ∨
    ∃ svc r, th.service = some svc ∧ th.recovery = some r ∧
      RecoverPc.Advance (s.owners svc) (s.live svc) s.clock s.observed fresh r r' := by
  rcases Thread.advance_scan h hr with henter | ⟨svc, r, hsvc, hscan, hadv⟩
  · exact Or.inl henter
  · exact Or.inr ⟨svc, r, hsvc, hscan, RecoverPc.advance_cases hadv⟩

/-! ## Holders -/

/-- The job a thread executes or is about to hand to an execution. -/
def Thread.holds : Thread → Option String
  | .submit _ spec .dispatch               => some spec.jobId
  | .exec _ spec _                         => some spec.jobId
  | .drain _ _ (.dispatch spec)            => some spec.jobId
  | .agent _ _ _ (.drain (.dispatch spec)) => some spec.jobId
  | _                                      => Option.none

theorem Thread.isEntry_holds {th : Thread} (h : th.isEntry = true) : th.holds = Option.none := by
  cases th with
  | submit svc spec pc =>
    cases pc with
    | dispatch => cases h
    | _ => rfl
  | exec svc spec pc => cases h
  | drain svc d pc =>
    cases pc with
    | dispatch spec => cases h
    | _ => rfl
  | agent svc self d pc =>
    cases pc with
    | enter => rfl
    | _ => cases h
  | _ => rfl

theorem Thread.isEntry_recovery {th : Thread} {r : RecoverPc} (h : th.isEntry = true) (hr : th.recovery = some r) :
    ∃ staleAfter, r = .enter staleAfter := by
  cases th with
  | recover svc r' =>
    cases hr
    cases r with
    | enter staleAfter => exact ⟨staleAfter, rfl⟩
    | _ => cases h
  | drain svc d pc =>
    cases pc with
    | recovering r' => cases h
    | _ => cases hr
  | agent svc self d pc =>
    cases pc with
    | enter => cases hr
    | _ => cases h
  | _ => cases hr

theorem Thread.resume_service (cfg : Config) (s : Sys) (fresh : String) (reply : Reply) (th : Thread) :
    (th.resume cfg s fresh reply).service = th.service := by
  cases th <;> rfl

theorem Thread.advance_service {cfg : Config} {s : Sys} {k : Nat} {fresh : String} {inp : Input} {th th' : Thread}
    {eff : Effect} (h : th.advance cfg s k fresh inp = some (th', eff)) : th'.service = th.service := by
  cases th with
  | none => cases h
  | _ =>
    obtain ⟨x, -, hx⟩ := Option.map_eq_some_iff.1 h
    cases hx
    rfl

theorem Thread.isClaim_op (cfg : Config) (s : Sys) (locked : List String) {th : Thread} (h : th.isClaim = true) :
    th.op cfg s locked = some (.claimNextRun locked) := by
  cases th with
  | drain svc d pc =>
    cases pc with
    | claim => rfl
    | _ => cases h
  | agent svc self d pc =>
    cases pc with
    | drain pc =>
      cases pc with
      | claim => rfl
      | _ => cases h
    | _ => cases h
  | _ => cases h

/-- Only a worker's claim is a `claim_next_run`. -/
theorem Thread.op_claim {cfg : Config} {s : Sys} {locked l : List String} {th : Thread}
    (h : th.op cfg s locked = some (.claimNextRun l)) : th.isClaim = true ∧ l = locked := by
  cases Thread.op_cases h with
  | claim _ hclaim => exact ⟨hclaim, rfl⟩
  | scan svc r _ _ _ hr => cases RecoverPc.op_cases hr
  | submit svc spec pc _ hpc => cases pc <;> cases hpc
  | exec svc spec pc _ hpc => cases pc <;> cases hpc
  | beat b pc _ hpc => cases pc <;> cases hpc
  | supervisor sup pc _ hpc => cases pc <;> cases hpc

theorem DrainPc.resume_dispatch {svc : Service} {child : Option Child} {reply : Reply} {d : Drain} {pc : DrainPc}
    {spec : JobSpec} (h : pc.resume svc child reply d = .dispatch spec) :
    pc = .dispatch spec ∨ (pc = .claim ∧ reply = .payload (some spec)) := by
  cases pc with
  | recovering r => simp only [resume, ofRecover] at h; split at h <;> cases h
  | capacity =>
    simp only [resume] at h
    split at h
    · split at h <;> cases h
    · cases h
  | claim => simp only [resume] at h; split at h <;> cases h; exact Or.inr ⟨rfl, rfl⟩
  | dispatch spec' => exact Or.inl h
  | _ => cases h

/-- How a reply makes a thread hold a job: it held it, it inserted the Run as a local submitter, or it claimed it. -/
theorem Thread.resume_holds {cfg : Config} {s : Sys} {fresh : String} {reply : Reply} {th : Thread} {j : String}
    (h : (th.resume cfg s fresh reply).holds = some j) :
    th.holds = some j ∨
    (∃ svc spec, th = .submit svc spec .create ∧ reply = .flag true ∧ (cfg.service svc).executionMode = .local ∧
      spec.jobId = j) ∨
    (th.isClaim = true ∧ ∃ spec, reply = .payload (some spec) ∧ spec.jobId = j) := by
  cases th with
  | submit svc spec pc =>
    cases pc with
    | lookup =>
      simp only [Thread.resume, SubmitPc.resume, SubmitPc.existing] at h
      split at h
      · split at h <;> cases h
      · cases h
    | create =>
      simp only [Thread.resume, SubmitPc.resume] at h
      split at h
      · split at h
        · rename_i hlocal
          cases h
          exact Or.inr (Or.inl ⟨svc, spec, rfl, rfl, hlocal, rfl⟩)
        · cases h
      · cases h
      · cases h
    | reread =>
      simp only [Thread.resume, SubmitPc.resume, SubmitPc.existing] at h
      split at h
      · split at h <;> cases h
      · cases h
    | readback => simp only [Thread.resume, SubmitPc.resume] at h; split at h <;> cases h
    | dispatch => exact Or.inl h
    | _ => cases h
  | exec svc spec pc => exact Or.inl h
  | drain svc d pc =>
    simp only [Thread.resume] at h
    cases hpc : pc.resume (cfg.service svc) (s.lastChild reply) reply d with
    | dispatch spec =>
      rw [hpc] at h
      rcases DrainPc.resume_dispatch hpc with rfl | ⟨rfl, hrep⟩
      · exact Or.inl h
      · exact Or.inr (Or.inr ⟨rfl, spec, hrep, Option.some.inj h⟩)
    | _ => rw [hpc] at h; cases h
  | agent svc self d pc =>
    cases pc with
    | drain pc =>
      simp only [Thread.resume, AgentPc.resume] at h
      cases hpc : pc.resume (cfg.service svc) (s.lastChild reply) reply d with
      | dispatch spec =>
        rw [hpc] at h
        rcases DrainPc.resume_dispatch hpc with rfl | ⟨rfl, hrep⟩
        · exact Or.inl h
        · exact Or.inr (Or.inr ⟨rfl, spec, hrep, Option.some.inj h⟩)
      | _ => rw [hpc] at h; cases h
    | start => simp only [Thread.resume, AgentPc.resume] at h; split at h <;> cases h
    | session => simp only [Thread.resume, AgentPc.resume] at h; split at h <;> cases h
    | _ => cases h
  | _ => cases h

theorem DrainPc.advance_dispatch {svc : Service} {owner : Option ExecutionOwner} {live : String → Bool} {clock : Time}
    {observed : Nat → Option (Nat × Option String)} {result : Nat → Option FutureResult} {child : Nat} {fresh : String}
    {inp : Input} {d d' : Drain} {pc : DrainPc} {spec : JobSpec} {eff : Effect} :
    pc.advance svc owner live clock observed result child fresh inp d ≠ some (d', .dispatch spec, eff) := by
  intro h
  cases pc with
  | enter =>
    simp only [advance, Option.some.injEq, Prod.mk.injEq] at h
    obtain ⟨-, h, -⟩ := h
    split at h <;> cases h
  | recovering r =>
    obtain ⟨x, -, hx⟩ := Option.map_eq_some_iff.1 h
    simp only [Prod.mk.injEq] at hx
    obtain ⟨-, hx, -⟩ := hx
    unfold ofRecover at hx
    split at hx <;> cases hx
  | loop =>
    simp only [advance] at h
    split at h
    · simp only [Option.some.injEq, Prod.mk.injEq] at h
      obtain ⟨-, h, -⟩ := h
      split at h <;> cases h
    · cases h
  | slots =>
    simp only [advance, Option.some.injEq, Prod.mk.injEq] at h
    obtain ⟨-, h, -⟩ := h
    split at h <;> cases h
  | wait => simp only [advance] at h; split at h <;> cases h
  | collect rest =>
    cases rest with
    | nil => cases h
    | cons f rest => simp only [advance] at h; split at h <;> cases h
  | _ => cases h

theorem AgentPc.advance_dispatch {svc : Service} {self : ExecutionOwner} {owner : Option ExecutionOwner}
    {live : String → Bool} {clock : Time} {observed : Nat → Option (Nat × Option String)}
    {result : Nat → Option FutureResult} {child : Nat} {fresh : String} {inp : Input} {d d' : Drain} {pc : AgentPc}
    {spec : JobSpec} {eff : Effect} :
    pc.advance svc self owner live clock observed result child fresh inp d ≠ some (d', .drain (.dispatch spec), eff) := by
  intro h
  cases pc with
  | enter =>
    simp only [advance, Option.some.injEq, Prod.mk.injEq] at h
    obtain ⟨-, h, -⟩ := h
    split at h <;> cases h
  | own => simp only [advance] at h; split at h <;> cases h
  | drain pc =>
    obtain ⟨⟨d₁, pc₁, eff₁⟩, hx, hx'⟩ := Option.map_eq_some_iff.1 h
    simp only [Prod.mk.injEq, AgentPc.drain.injEq] at hx'
    rw [hx'.2.1] at hx
    exact DrainPc.advance_dispatch hx
  | _ => cases h

/-- A step that calls no store starts to hold nothing. -/
theorem Thread.advance_holds {cfg : Config} {s : Sys} {k : Nat} {fresh : String} {inp : Input} {th th' : Thread}
    {eff : Effect} {j : String} (h : th.advance cfg s k fresh inp = some (th', eff)) (hj : th'.holds = some j) :
    th.holds = some j := by
  cases th with
  | none => cases h
  | exec svc spec pc =>
    obtain ⟨⟨pc', eff'⟩, hx, hx'⟩ := Option.map_eq_some_iff.1 h
    cases hx'
    exact hj
  | submit svc spec pc =>
    obtain ⟨⟨pc', eff'⟩, hx, hx'⟩ := Option.map_eq_some_iff.1 h
    cases hx'
    cases pc with
    | limit =>
      simp only [SubmitPc.advance] at hx
      split at hx
      · cases hx; cases hj
      · split at hx <;> cases hx <;> cases hj
    | dispatch => cases hx; cases hj
    | _ => cases hx
  | drain svc d pc =>
    obtain ⟨⟨d', pc', eff'⟩, hx, hx'⟩ := Option.map_eq_some_iff.1 h
    cases hx'
    cases pc' with
    | dispatch spec => exact absurd hx DrainPc.advance_dispatch
    | _ => cases hj
  | agent svc self d pc =>
    obtain ⟨⟨d', pc', eff'⟩, hx, hx'⟩ := Option.map_eq_some_iff.1 h
    cases hx'
    cases pc' with
    | drain pc' =>
      cases pc' with
      | dispatch spec => exact absurd hx AgentPc.advance_dispatch
      | _ => cases hj
    | _ => cases hj
  | _ =>
    obtain ⟨x, -, hx⟩ := Option.map_eq_some_iff.1 h
    cases hx
    cases hj

/-- A dispatch hands the job over. -/
theorem Thread.advance_execute {cfg : Config} {s : Sys} {k : Nat} {fresh : String} {inp : Input} {th th' : Thread}
    {spec : JobSpec} (h : th.advance cfg s k fresh inp = some (th', .execute spec)) :
    th.holds = some spec.jobId ∧ th'.holds = Option.none := by
  cases th with
  | none => cases h
  | submit svc spec' pc =>
    obtain ⟨⟨pc', eff'⟩, hx, hx'⟩ := Option.map_eq_some_iff.1 h
    cases hx'
    rcases SubmitPc.advance_effect hx with he | ⟨rfl, he⟩
    · cases he
    · cases he
      cases hx
      exact ⟨rfl, rfl⟩
  | exec svc spec' pc =>
    obtain ⟨⟨pc', eff'⟩, hx, hx'⟩ := Option.map_eq_some_iff.1 h
    cases hx'
    cases ExecPc.advance_cases hx
  | cancel svc j pc =>
    obtain ⟨⟨pc', eff'⟩, hx, hx'⟩ := Option.map_eq_some_iff.1 h
    cases hx'
    cases pc with
    | lookup =>
      simp only [CancelPc.advance] at hx
      split at hx <;> cases hx
    | _ => cases hx
  | supervisor sup pc =>
    obtain ⟨⟨pc', eff'⟩, hx, hx'⟩ := Option.map_eq_some_iff.1 h
    cases hx'
    cases SupervisorPc.advance_cases hx
  | drain svc d pc =>
    obtain ⟨⟨d', pc', eff'⟩, hx, hx'⟩ := Option.map_eq_some_iff.1 h
    cases hx'
    rcases DrainPc.advance_effect hx with he | ⟨spec', rfl, he⟩
    · cases he
    · cases he
      cases hx
      exact ⟨rfl, rfl⟩
  | agent svc self d pc =>
    obtain ⟨⟨d', pc', eff'⟩, hx, hx'⟩ := Option.map_eq_some_iff.1 h
    cases hx'
    rcases AgentPc.advance_effect hx with he | he | ⟨spec', rfl, he⟩
    · cases he
    · cases he
    · cases he
      cases hx
      exact ⟨rfl, rfl⟩
  | _ =>
    obtain ⟨x, -, hx⟩ := Option.map_eq_some_iff.1 h
    cases hx

end EdaLab
