import EdaLab.SystemSpec
import Mathlib.Tactic.NormNum
/-!
# Absorbing — when a terminal Run stays as it is

The finalizers ask for a `RUNNING` Run and `claim_next_run` for a `QUEUED` one.  Three writes ask for nothing: the first
`update_run` of `_execute`, that of `cancel`, and that of the recovery scan for a Run its snapshot has without an Attempt.
Terminal statuses are absorbing in exactly the runs where each of them finds its Run open, or with the status it writes.
-/
namespace EdaLab

/-- Every Run that is terminal before has its status after. -/
def KeepsTerminal (s s' : Sys) : Prop :=
  ∀ j r, s.db.runs.get j = some r → r.status.isTerminal = true →
    ∃ r', s'.db.runs.get j = some r' ∧ r'.status = r.status

/-- Between any two states of the run, terminal statuses are kept. -/
def TerminalAbsorbing (cfg : Config) (s : Sys) (acts : List Act) : Prop :=
  ∀ pre mid post m m', acts = pre ++ (mid ++ post) → Trace.run (Sys.step cfg) s pre = some m →
    Trace.run (Sys.step cfg) m mid = some m' → KeepsTerminal m m'

/-- An unfenced write finds its Run open, or with the status it writes. -/
def WritesOpenRun (s : Sys) (a : Act) : Prop :=
  ∀ i fresh locked j st r, a = .call i fresh locked → s.isFresh fresh = true →
    (s.threads i).unfencedWrite = some (j, st) → s.db.runs.get j = some r → r.status.isTerminal = true → r.status = st

theorem KeepsTerminal.refl (s : Sys) : KeepsTerminal s s := fun _ r hr _ => ⟨r, hr, rfl⟩

theorem KeepsTerminal.trans {s₁ s₂ s₃ : Sys} (h₁ : KeepsTerminal s₁ s₂) (h₂ : KeepsTerminal s₂ s₃) :
    KeepsTerminal s₁ s₃ := by
  intro j r hr ht
  obtain ⟨r', hr', hst⟩ := h₁ j r hr ht
  obtain ⟨r'', hr'', hst'⟩ := h₂ j r' hr' (by rw [hst, ht])
  exact ⟨r'', hr'', hst'.trans hst⟩

/-- An unfenced write of a thread is a store call of its. -/
theorem RecoverPc.unfencedWrite_op {svc : Service} {r : RecoverPc} {j : String} {st : RunStatus}
    (h : r.unfencedWrite = some (j, st)) :
    ∃ f, r.op svc = some (.updateRun j f) ∧ f.status = some st ∧ f ≠ {} := by
  cases r with
  | failNoAttempt sc run => cases h; exact ⟨_, rfl, rfl, by intro h; cases h⟩
  | _ => cases h

theorem Thread.unfencedWrite_op (cfg : Config) (s : Sys) (locked : List String) {th : Thread} {j : String}
    {st : RunStatus} (h : th.unfencedWrite = some (j, st)) :
    ∃ f, th.op cfg s locked = some (.updateRun j f) ∧ f.status = some st ∧ f ≠ {} := by
  cases th with
  | cancel svc j' pc =>
    cases pc with
    | write => cases h; exact ⟨_, rfl, rfl, by intro h; cases h⟩
    | _ => cases h
  | exec svc spec pc =>
    cases pc with
    | start => cases h; exact ⟨_, rfl, rfl, by intro h; cases h⟩
    | _ => cases h
  | recover svc pc => exact RecoverPc.unfencedWrite_op h
  | drain svc d pc =>
    cases pc with
    | recovering r => exact RecoverPc.unfencedWrite_op h
    | _ => cases h
  | agent svc self d pc =>
    cases pc with
    | drain pc =>
      cases pc with
      | recovering r => exact RecoverPc.unfencedWrite_op h
      | _ => cases h
    | _ => cases h
  | _ => cases h

/-- **One step**: it keeps the terminal Runs exactly where its unfenced write, if it is one, finds its Run open. -/
theorem step_keepsTerminal_iff (cfg : Config) (s : Sys) (a : Act) :
    (∀ s', Sys.step cfg s a = some s' → KeepsTerminal s s') ↔ WritesOpenRun s a := by
  constructor
  · rintro hkeep i fresh locked j st r rfl hfresh hw hr hterm
    obtain ⟨f, hop, hst, hne⟩ := Thread.unfencedWrite_op cfg s locked hw
    obtain ⟨s', hstep⟩ := Option.isSome_iff_exists.1 (Sys.call_isSome_iff.2 ⟨⟨_, hop⟩, hfresh⟩)
    obtain ⟨op, hc⟩ := Sys.call_some hstep
    have heq := hc.is_op
    rw [hop] at heq
    cases heq
    obtain ⟨r', hr', hsame⟩ := hkeep s' hstep j r hr hterm
    have hget := Db.get_updateRuns s.db s.clock j (fun _ => true) f j
    rw [hr, Option.map_some, if_pos ⟨rfl, rfl⟩] at hget
    rw [hc.db_eq] at hr'
    simp only [StoreOp.after, StoreOp.exec, Store.updateRun, if_neg hne] at hr'
    rw [hget] at hr'
    cases hr'
    rw [← hsame]
    simp [RunFields.write, hst]
  · intro hopen s' hstep j r hr hterm
    rcases Sys.step_db hstep with hdb | ⟨i, fresh, locked, op, rfl, hc⟩
    · exact ⟨r, by rw [hdb, hr], rfl⟩
    rw [hc.db_eq]
    cases runs_after cfg.backend s.clock s.db op j with
    | same h => exact ⟨r, by rw [h, hr], rfl⟩
    | created _ _ _ _ _ _ _ hn =>
      rw [hn] at hr
      cases hr
    | updated fields r' hop hr' hget =>
      rw [hr] at hr'
      cases hr'
      have hcall := hc.is_op
      rw [hop] at hcall
      obtain ⟨st, hw, hst⟩ := Thread.op_updateRun hcall
      have hsame := hopen i fresh locked j st r rfl hc.is_fresh hw hr hterm
      exact ⟨_, hget, by simp [RunFields.write, hst, hsame]⟩
    | claimed locked' r' _ _ hr' hq =>
      rw [hr] at hr'
      cases hr'
      rw [hq] at hterm
      cases hterm
    | closed c r' _ _ _ hr' hrun =>
      rw [hr] at hr'
      cases hr'
      rw [hrun] at hterm
      cases hterm

/-- **Terminal Run states are absorbing in exactly the runs whose unfenced writes find their Runs open.** -/
theorem terminal_absorbing_iff (cfg : Config) (s : Sys) (acts : List Act) :
    TerminalAbsorbing cfg s acts ↔ Trace.Every (Sys.step cfg) WritesOpenRun s acts := by
  constructor
  · intro h
    rw [Trace.every_iff_forall_split]
    intro pre a post m hs hm
    refine (step_keepsTerminal_iff cfg m a).1 (fun m' hstep => ?_)
    have hmid : Trace.run (Sys.step cfg) m [a] = some m' := Trace.run_cons.2 ⟨m', hstep, rfl⟩
    exact h pre [a] post m m' (by rw [hs]; rfl) hm hmid
  · rintro h pre mid post m m' rfl hm hmid
    have hafter := (Trace.every_append.1 h).2 m hm
    have hmidle := (Trace.every_append.1 hafter).1
    refine Trace.run_relates KeepsTerminal.refl (fun h₁ h₂ => h₁.trans h₂) ?_ hmidle hmid
    intro s₁ a s₂ hopen hstep
    exact (step_keepsTerminal_iff cfg s₁ a).2 hopen s₂ hstep

/-! ### A recovery that read the Run before its first Attempt -/

def workerService : Service where
  workerId := "worker"
  executionMode := .external
  maxAttempts := 2
  leaseSeconds := 30
  recoveryLeaseSeconds := 30
  orphanGraceSeconds := 60
  maxInFlight := none
  recoveryLeaseSeconds_pos := by norm_num
  orphanGraceSeconds_pos := by norm_num

def workerConfig : Config := ⟨.postgres, fun _ => workerService, fun spec => spec.jobId⟩

def timingSpec : JobSpec := ⟨"job", "design", "ip", "flow", "tt", .int 1, "ns", .float (1 / 50)⟩

def timingReturn : AdapterReturn :=
  ⟨.result ⟨"timing.report", some 0, none⟩,
   .ok { parseStatus := .ok, checkStatus := .pass, metrics := [], errors := [], completeness := .complete,
         semanticStatus := .valid, provenanceStatus := .valid }⟩

/-- Service 0 submits the job, service 1 claims it and starts its execution as thread 2. -/
def claimActs : List Act :=
  [.start 0 (.submit 0 timingSpec .lookup), .call 0 "a1" [], .advance 0 0 "a2" .go, .call 0 "a3" [], .call 0 "a4" [],
   .start 1 (.drain 1 ⟨none, 1, [], []⟩ .enter), .advance 1 0 "b1" .go, .advance 1 0 "b2" .go, .call 1 "b3" [],
   .call 1 "b4" [], .advance 1 0 "b5" .go, .advance 1 0 "b6" .go, .call 1 "b7" [], .advance 1 0 "b8" .go,
   .advance 1 0 "b9" .go, .call 1 "b10" [], .advance 1 2 "b11" .go, .advance 2 0 "c1" .go, .call 2 "c2" []]

/-- Service 2 scans and reads the Run; the execution then records its Attempt and completes it. -/
def overtakenActs : List Act :=
  claimActs ++
  [.start 3 (.recover 2 (.enter 0)), .advance 3 0 "d1" .go, .call 3 "d2" [], .call 3 "d3" [], .call 3 "d4" [],
   .advance 3 0 "d5" .go, .advance 3 0 "d6" .go,
   .call 2 "c3" [], .call 2 "c4" [], .advance 2 4 "c5" .go, .advance 2 0 "c6" (.returned timingReturn), .call 2 "c7" [],
   .call 2 "c8" []]

def runStatusAfter (acts : List Act) : Option RunStatus :=
  (Trace.run (Sys.step workerConfig) Sys.init acts).bind (fun s => (s.db.runs.get "job").map (·.status))

/-- **Recovery turns the succeeded Run into a failed one.** -/
theorem recovery_fails_succeeded_run :
    ¬ TerminalAbsorbing workerConfig Sys.init (overtakenActs ++ [.call 3 "d7" []]) := by
  intro h
  have hbefore : runStatusAfter overtakenActs = some .succeeded := by decide +kernel
  have hafter : runStatusAfter (overtakenActs ++ [.call 3 "d7" []]) = some .failed := by decide +kernel
  obtain ⟨m, hm, hr⟩ := Option.bind_eq_some_iff.1 hbefore
  obtain ⟨m', hm', hr'⟩ := Option.bind_eq_some_iff.1 hafter
  obtain ⟨r, hget, hst⟩ := Option.map_eq_some_iff.1 hr
  obtain ⟨r', hget', hst'⟩ := Option.map_eq_some_iff.1 hr'
  obtain ⟨n, hn, hlast⟩ := Trace.run_append.1 hm'
  rw [hm] at hn
  cases hn
  obtain ⟨r'', hget'', hsame⟩ := h overtakenActs [.call 3 "d7" []] [] m m' (by simp) hm hlast "job" r hget
    (by rw [hst]; rfl)
  rw [hget'] at hget''
  cases hget''
  rw [hst, hst'] at hsame
  cases hsame

end EdaLab
