import EdaLab.AcceptedMetrics
import EdaLab.Dispatch
import EdaLab.Orphan
import EdaLab.Submission
/-!
# Remote — recovery of an Attempt of another host

The process id of another host's Attempt is neither evidence of life nor authorization to signal it, so the scan goes on with
such an Attempt only after the termination witness of its execution.  The witness is read once, before the lease is looked
at; it still stands at the finalization, since no witness is ever deleted and the service keeps its own session.  An Attempt
that is registered after it was read is recovered without one (`recovery_closes_unwitnessed`).
-/
namespace EdaLab

open Relational

/-! ## What the scan is allowed -/

/-- The Run and the Attempt the scan has decided to recover. -/
def RecoverPc.recovering : RecoverPc → Option (Snapshot × AttemptRow)
  | .lease _ x a          => some (x, a)
  | .claim _ x a _        => some (x, a)
  | .probe _ x a _ _      => some (x, a)
  | .inspect _ x a _ _    => some (x, a)
  | .kill _ x a _ _       => some (x, a)
  | .release _ x a _ _    => some (x, a)
  | .witness _ x a _      => some (x, a)
  | .finalize _ x a _ _ _ => some (x, a)
  | _                     => none

/-- The Attempt is not of another session, or its execution has its termination witness. -/
def Sys.Cleared (s : Sys) (svc : Nat) (a : AttemptRow) : Prop :=
  RecoverPc.foreign (s.owners svc) a = true → (Store.getTerminationWitness s.db a.executionId).isSome = true

/-- Where a scan claims, probes, signals, releases or closes an Attempt: the row is registered with the execution the scan
read, so no `record_attempt_execution` of the Attempt was accepted since. -/
def RegisteredAsRead (s : Sys) (act : Act) : Prop :=
  ∀ i r x a row, act.isOf i = true → (s.threads i).recovery = some r → r.recovering = some (x, a) →
    s.db.attempts.get (x.jobId, a.attemptNo) = some row →
    row.executionHostSession = a.executionHostSession ∧ row.executionId = a.executionId

/-- Where a scan claims, probes, signals, releases or closes an Attempt that another session executes: the termination
witness of that execution is on record. -/
def SparesRemote (s : Sys) (act : Act) : Prop :=
  ∀ i svc r x a row, act.isOf i = true → (s.threads i).service = some svc → (s.threads i).recovery = some r →
    r.recovering = some (x, a) → s.db.attempts.get (x.jobId, a.attemptNo) = some row →
    RecoverPc.foreign (s.owners svc) row = true → (Store.getTerminationWitness s.db row.executionId).isSome = true

/-! ## What one step keeps -/

theorem getTerminationWitness_isSome_after (b : Backend) (now : Time) {db : Db} (op : StoreOp) {e : Option String}
    (h : (Store.getTerminationWitness db e).isSome = true) :
    (Store.getTerminationWitness (op.after b now db) e).isSome = true := by
  cases e with
  | none => cases h
  | some e =>
    unfold Store.getTerminationWitness at h ⊢
    by_cases he : e = ""
    · simp [he] at h
    · simp only [he, if_false] at h ⊢
      exact witness_isSome_after b now op h

section Step

variable {cfg : Config} {s s' : Sys} {act : Act}

theorem getTerminationWitness_step (h : Sys.step cfg s act = some s') {e : Option String}
    (hw : (Store.getTerminationWitness s.db e).isSome = true) : (Store.getTerminationWitness s'.db e).isSome = true := by
  rcases Sys.step_db h with hdb | ⟨i, fresh, locked, op, -, hc⟩
  · rw [hdb]
    exact hw
  · rw [hc.db_eq]
    exact getTerminationWitness_isSome_after cfg.backend s.clock op hw

/-- A service keeps the session it has. -/
theorem owners_step (h : Sys.step cfg s act = some s') (v : Nat) : s'.owners v = s.owners v ∨ s.owners v = none := by
  cases act with
  | advance i k fresh inp =>
    obtain ⟨th, eff, hadv, happ⟩ := Sys.proceed_some h
    cases eff with
    | own owner =>
      obtain ⟨w, hw, rfl⟩ := Option.map_eq_some_iff.1 happ
      obtain ⟨svc, d, hth, hsvc⟩ := Thread.own_cases hadv.advance_eq
      rw [hsvc] at hw
      cases hw
      by_cases hv : v = w
      · subst hv
        have hadv' := hadv.advance_eq
        rw [hth] at hadv'
        obtain ⟨⟨d', pc', eff⟩, hx, hown⟩ := Option.map_eq_some_iff.1 hadv'
        simp only [AgentPc.advance] at hx
        split at hx
        · rename_i hchecked
          -- `set_execution_owner` has checked the session that is there
          cases howner : s.owners v with
          | none => exact Or.inr rfl
          | some o =>
            have hsame : o = owner := by
              simp only [howner, Option.all_some, Bool.and_eq_true, decide_eq_true_eq] at hchecked
              exact hchecked.1
            exact Or.inl ((Function.update_self ..).trans (congrArg some hsame.symm))
        · cases hx
          cases hown
      · exact Or.inl (Function.update_of_ne hv ..)
    | cancelFuture j =>
      obtain ⟨w, -, rfl⟩ := Option.map_eq_some_iff.1 happ
      obtain ⟨threads, heq⟩ := Sys.cancelFuture_eq (s := s.put i fresh th) w j
      rw [heq]
      exact Or.inl rfl
    | _ => cases Sys.apply_cases happ; exact Or.inl rfl
  | call i fresh locked =>
    obtain ⟨op, hc⟩ := Sys.call_some h
    exact Or.inl (by rw [hc.owners_eq])
  | _ => cases Sys.step_cases h; exact Or.inl rfl

/-- What is another session's for the owner of a service is another session's where the service has none. -/
theorem foreign_of_none {owner : Option ExecutionOwner} {a : AttemptRow} (h : RecoverPc.foreign owner a = true) :
    RecoverPc.foreign none a = true := by
  simp only [RecoverPc.foreign, Bool.and_eq_true] at h ⊢
  exact ⟨h.1, rfl⟩

/-- **What is cleared stays so**: the witness is kept, and no session of the service's own becomes another's. -/
theorem Sys.Cleared.step (h : Sys.step cfg s act = some s') {svc : Nat} {a : AttemptRow} (hc : s.Cleared svc a) :
    s'.Cleared svc a := by
  intro hforeign
  refine getTerminationWitness_step h (hc ?_)
  rcases owners_step h svc with heq | hnone
  · rw [← heq]
    exact hforeign
  · rw [hnone]
    exact foreign_of_none hforeign

end Step

/-! ## The scan -/

theorem RecoverPc.visit_recovering {owner : Option ExecutionOwner} {live : String → Bool} {sc : Scan} {run x : Snapshot}
    {a : AttemptRow} (h : (visit owner live sc run).recovering = some (x, a)) : foreign owner a = false := by
  unfold visit at h
  split at h
  · cases h
  · split at h
    · cases h
    · rename_i b _
      split at h
      · cases h
      · rename_i hf
        cases h
        simpa using hf

/-- A store call moves the scan on with the Attempt it has, and past the gate only with a witness. -/
theorem RecoverPc.resume_cleared {svc : Service} {r : RecoverPc} {op : StoreOp} {child : Option Child} {reply : Reply}
    {x : Snapshot} {a : AttemptRow} (hop : r.op svc = some op)
    (h : (r.resume child reply).recovering = some (x, a)) :
    r.recovering = some (x, a) ∨
      (op = .getTerminationWitness a.executionId ∧ ∃ w, reply = .witness (some w)) := by
  cases RecoverPc.op_cases hop with
  | expired cutoff => simp only [resume] at h; split at h <;> cases h
  | stale cutoff es => simp only [resume] at h; split at h <;> cases h
  | read es id ids runs => simp only [resume] at h; split at h <;> cases h
  | failNoAttempt sc run => cases h
  | gate sc run b =>
    simp only [resume] at h
    split at h
    · rename_i w
      cases h
      exact Or.inr ⟨rfl, w, rfl⟩
    · cases h
  | claim sc run b t =>
    simp only [resume] at h
    split at h
    · split at h
      · cases h; exact Or.inl rfl
      · cases h; exact Or.inl rfl
    · cases h
  | release sc run b t why => cases why <;> cases h
  | witness sc run b t =>
    simp only [resume] at h
    split at h
    · cases h; exact Or.inl rfl
    · cases h; exact Or.inl rfl
  | finalize sc run b t et e => simp only [resume] at h; split at h <;> cases h

theorem RecoverPc.Advance.cleared {owner : Option ExecutionOwner} {live : String → Bool} {clock : Time}
    {observed : Nat → Option (Nat × Option String)} {fresh : String} {r r' : RecoverPc} {x : Snapshot} {a : AttemptRow}
    (hadv : RecoverPc.Advance owner live clock observed fresh r r') (h : r'.recovering = some (x, a)) :
    r.recovering = some (x, a) ∨ foreign owner a = false := by
  cases hadv with
  | visited sc run rest hrest => exact Or.inr (visit_recovering h)
  | enter staleAfter => cases h
  | scanned es runs => cases h
  | returned sc hrest => cases h
  | leased sc run b report hheld => cases h
  | denied sc run b t pid hfound => cases h
  | unidentified sc run b t pid => cases h
  | _ => cases h; exact Or.inl rfl

/-- Every scan has cleared the Attempt it recovers. -/
def ClearedInv (s : Sys) : Prop :=
  ∀ i svc r x a, (s.threads i).service = some svc → (s.threads i).recovery = some r → r.recovering = some (x, a) →
    s.Cleared svc a

theorem clearedInv_init : ClearedInv Sys.init := fun _ _ _ _ _ _ hr => by cases hr

theorem clearedInv_step {cfg : Config} {s s' : Sys} {act : Act} (hi : ClearedInv s) (h : Sys.step cfg s act = some s') :
    ClearedInv s' := by
  intro i svc r' x a hsvc hr' hx
  refine Sys.Cleared.step h ?_
  cases thread_after i h with
  | same heq =>
    rw [heq] at hsvc hr'
    exact hi i svc r' x a hsvc hr' hx
  | entered th _ _ hentry heq =>
    rw [heq] at hr'
    obtain ⟨t, rfl⟩ := Thread.isEntry_recovery hentry hr'
    cases hx
  | called fresh locked op _ hc heq =>
    rw [heq] at hsvc hr'
    rw [Thread.resume_service] at hsvc
    obtain ⟨r, hr, rfl⟩ := Thread.resume_recovery hr'
    obtain ⟨v, -, hthop⟩ := Thread.recovery_op cfg s locked hr
    rcases RecoverPc.resume_cleared (hthop.symm.trans hc.is_op) hx with hold | ⟨rfl, w, hreply⟩
    · exact hi i svc r x a hsvc hr hold
    · -- the witness the gate has just read
      intro _
      have hread : Store.getTerminationWitness s.db a.executionId = some w := Reply.witness.inj hreply
      rw [hread]
      rfl
  | advanced k fresh inp th eff _ hadv heq =>
    rw [heq] at hsvc hr'
    rw [Thread.advance_service hadv.advance_eq] at hsvc
    rcases Thread.advance_recovery hadv.advance_eq hr' with ⟨t, rfl⟩ | ⟨v, r, hv, hr, hstep⟩
    · cases hx
    · rw [hsvc] at hv
      cases hv
      rcases hstep.cleared hx with hold | hown
      · exact hi i svc r x a hsvc hr hold
      · intro hforeign
        rw [hown] at hforeign
        cases hforeign
  | executed i' fresh inp th spec svc' _ _ _ _ heq _ => rw [heq] at hr'; cases hr'
  | beat i' fresh inp th b run _ _ _ _ heq => rw [heq] at hr'; cases hr'
  | cancelled svc' spec _ heq => rw [heq] at hr'; cases hr'

/-! ## Runs -/

theorem sparesRemote_of_asRead {s : Sys} {act : Act} (hi : ClearedInv s) (hread : RegisteredAsRead s act) :
    SparesRemote s act := by
  intro i svc r x a row hact hsvc hr hx hrow hforeign
  obtain ⟨hsession, hid⟩ := hread i r x a row hact hr hx hrow
  rw [hid]
  refine hi i svc r x a hsvc hr hx ?_
  simp only [RecoverPc.foreign, hsession] at hforeign ⊢
  exact hforeign

/-- **In a run in which no Attempt is registered between a scan's read and what the scan does to it, recovery claims, probes,
signals and closes an Attempt of another session only after the termination witness of its execution.** -/
theorem remote_recovered_after_witness (cfg : Config) (acts : List Act)
    (h : Trace.Every (Sys.step cfg) RegisteredAsRead Sys.init acts) :
    Trace.Every (Sys.step cfg) SparesRemote Sys.init acts :=
  Trace.every_of_inv (P := ClearedInv) (fun _ _ _ hi _ hstep => clearedInv_step hi hstep)
    (fun _ _ hi hc => sparesRemote_of_asRead hi hc) clearedInv_init h

/-- The row of the Attempt thread `i` recovers is registered as read. -/
def Sys.asRead (s : Sys) (i : Nat) : Bool :=
  (((s.threads i).recovery.bind RecoverPc.recovering).bind (fun x =>
    (s.db.attempts.get (x.1.jobId, x.2.attemptNo)).map (fun row =>
      decide (row.executionHostSession = x.2.executionHostSession) && decide (row.executionId = x.2.executionId)))).getD true

/-- `RegisteredAsRead` as a test. -/
def registeredAsRead (s : Sys) : Act → Bool
  | .call i _ _      => s.asRead i
  | .advance i _ _ _ => s.asRead i
  | _                => true

theorem registeredAsRead_of_test {s : Sys} {act : Act} (h : registeredAsRead s act = true) : RegisteredAsRead s act := by
  intro i r x a row hact hr hx hrow
  have htest : s.asRead i = true := by
    cases act with
    | call q fresh locked =>
      obtain rfl : q = i := by simpa [Act.isOf] using hact
      exact h
    | advance q k fresh inp =>
      obtain rfl : q = i := by simpa [Act.isOf] using hact
      exact h
    | _ => cases hact
  simp only [Sys.asRead, hr, hx, hrow, Option.bind_some, Option.map_some, Option.getD_some, Bool.and_eq_true,
    decide_eq_true_eq] at htest
  exact htest

/-- The supervisor of the Host Agent witnesses the failure of its adapter; when the lease is over, service 2 closes the
Run. -/
def witnessedActs : List Act :=
  Reported.deliveredActs.take 32 ++
  [.advance 3 0 "d3" (.raised (.other "no license")), .call 3 "d4" [], .tick 40, .start 5 (.recover 2 (.enter 0)),
   .advance 5 0 "e1" .go, .call 5 "e2" [], .call 5 "e3" [], .call 5 "e4" [], .advance 5 0 "e5" .go, .advance 5 0 "e6" .go,
   .call 5 "e7" [], .advance 5 0 "e8" .go, .call 5 "e9" [], .call 5 "e10" [], .call 5 "e11" []]

theorem witnessed_spared :
    ((Trace.run (Sys.step supervisedConfig) Sys.init witnessedActs).bind (fun s => s.db.runs.get "job")).any
        (fun r => r.status = .failed) = true ∧
    Trace.Every (Sys.step supervisedConfig) SparesRemote Sys.init witnessedActs := by
  have htest : Trace.Every (Sys.step supervisedConfig) (fun s act => registeredAsRead s act =
    true) Sys.init witnessedActs := by
    decide +kernel
  exact ⟨by decide +kernel, remote_recovered_after_witness supervisedConfig witnessedActs
    (htest.mono (fun s act h => registeredAsRead_of_test h))⟩

/-- The agent keeps its session and the execution pauses past its lease; a scan reads the Run, the execution registers and
enqueues, the supervisor starts it, and the scan goes on up to its finalization. -/
def lateRegistrationActs : List Act :=
  Reported.deliveredActs.take 27 ++
  [.tick 20, .start 6 (.agent 1 ⟨"host", "epoch", "session"⟩ ⟨none, 1, [], []⟩ .enter), .advance 6 0 "f1" .go,
    .call 6 "f2" [],
   .tick 40, .start 5 (.recover 2 (.enter 0)), .advance 5 0 "e1" .go, .call 5 "e2" [], .call 5 "e3" [], .call 5 "e4" [],
   .call 2 "c5" [], .call 2 "c6" [], .start 3 (.supervisor ⟨"host", "supervisor", 30⟩ .claim), .call 3 "d1" [],
   .advance 3 4 "d2" .go, .advance 5 0 "e5" .go, .advance 5 0 "e6" .go, .advance 5 0 "e7" .go, .call 5 "e8" [],
   .call 5 "e9" []]

/-- **The Run is closed while the supervisor executes it**: `record_attempt_execution` asks for the session, not the
lease. -/
theorem recovery_closes_unwitnessed :
    ¬ Trace.Every (Sys.step supervisedConfig) SparesRemote Sys.init (lateRegistrationActs ++ [.call 5 "e10" []]) := by
  intro h
  have hrun : ((Trace.run (Sys.step supervisedConfig) Sys.init lateRegistrationActs).bind (fun s =>
      ((s.threads 5).recovery.bind RecoverPc.recovering).bind (fun x =>
        (s.db.attempts.get (x.1.jobId, x.2.attemptNo)).map (fun row =>
          decide ((s.threads 5).service = some 2) && RecoverPc.foreign (s.owners 2) row &&
            (Store.getTerminationWitness s.db row.executionId).isNone)))) = some true := by
    decide +kernel
  obtain ⟨s, hs, hfacts⟩ := Option.bind_eq_some_iff.1 hrun
  obtain ⟨⟨x, a⟩, hx, hrow⟩ := Option.bind_eq_some_iff.1 hfacts
  obtain ⟨r, hr, hx⟩ := Option.bind_eq_some_iff.1 hx
  obtain ⟨row, hrow, hfacts⟩ := Option.map_eq_some_iff.1 hrow
  simp only [Bool.and_eq_true, decide_eq_true_eq] at hfacts
  obtain ⟨⟨hsvc, hforeign⟩, hnone⟩ := hfacts
  have hw := Trace.every_iff_forall_split.1 h lateRegistrationActs (.call 5 "e10" []) [] s rfl hs
    5 2 r x a row rfl hsvc hr hx hrow hforeign
  rw [Option.isNone_iff_eq_none.1 hnone] at hw
  cases hw

end EdaLab
