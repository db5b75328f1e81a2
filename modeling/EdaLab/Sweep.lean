import EdaLab.Abandoned
import EdaLab.Scan
/-!
# Sweep — what one scan makes of a Run that was left `RUNNING`

The scan closes the Run of a job where its last Attempt can be claimed and nothing has its process id (`Course`), and
leaves it `RUNNING` where the last Attempt cannot be claimed or a process shields it (`Stuck`).
-/
namespace EdaLab

open Relational

/-- The Run is `FAILED` and none of its Attempts is `RUNNING`. -/
def Db.reconciled (db : Db) (j : String) : Prop :=
  (∃ r, db.runs.get j = some r ∧ r.status = .failed) ∧
    ∀ m a, db.attempts.get (j, m) = some a → a.status ≠ .running

/-- A process has the recorded process id, and the scan will release its claim over it. -/
def Sys.shielded (s : Sys) (a : AttemptRow) : Prop :=
  ∃ pid pr, a.processPid = some pid ∧ s.processes pid = some pr ∧
    (¬ a.orphaned s.clock ∨
      ((a.processIdentity = none ∨ a.processIdentity = pr.identity) ∧ a.processGroupId = some pid))

/-- The Attempt can be claimed for recovery, and finalized once it is. -/
structure Sys.Claimable (s : Sys) (a : AttemptRow) : Prop where
  running : a.status = .running
  token : a.leaseToken.isSome = true
  expired : a.leaseExpired s.clock = true
  free : a.recoveryFree s.clock = true
  no_session : a.executionHostSession = none
  not_shielded : ¬ s.shielded a

/-- What the scan finds: a `RUNNING` Run with `k` Attempts, the last of which is `last`. -/
structure Sys.Left (s : Sys) (j : String) (k : Nat) (last : Option AttemptRow) : Prop where
  run : ∃ r, s.db.runs.get j = some r ∧ r.status = .running ∧ r.updatedAt ≤ s.clock
  numbered : s.db.numbered j k
  last_eq : s.db.attempts.get (j, k) = last

theorem Sys.Left.frame {s s' : Sys} {j : String} {k : Nat} {last : Option AttemptRow} (h : s.Left j k last)
    (hle : s.clock ≤ s'.clock) (ha : ∀ m, s'.db.attempts.get (j, m) = s.db.attempts.get (j, m))
    (hr : s'.db.runs.get j = s.db.runs.get j) : s'.Left j k last where
  run := by
    obtain ⟨r, hget, hst, hup⟩ := h.run
    exact ⟨r, by rw [hr]; exact hget, hst, le_trans hup hle⟩
  numbered := ⟨fun m => by rw [ha]; exact h.numbered.isSome_iff m, fun m a hm => by rw [ha]; exact h.numbered.retried m a hm⟩
  last_eq := by rw [ha]; exact h.last_eq

theorem Sys.Left.attemptNo {s : Sys} {j : String} {k : Nat} {a : AttemptRow} (h : s.Left j k (some a)) :
    a.attemptNo = k := by
  have hkey : a.key = (j, k) := Table.key_of_get h.last_eq
  exact congrArg Prod.snd hkey

/-- The last Attempt is among the expired leases. -/
def Listed (j : String) (last : Option AttemptRow) (es : List (String × Nat)) : Prop :=
  ∀ a, last = some a → (j, a.attemptNo) ∈ es

/-- The snapshots of the job show the last Attempt. -/
def Shown (j : String) (last : Option AttemptRow) (runs : List Snapshot) : Prop :=
  ∀ x ∈ runs, x.jobId = j → x.view.attempts.getLast? = last

/-- Claimed for recovery. -/
structure Db.Claimed (db : Db) (j : String) (k : Nat) (t : String) : Prop where
  run : db.runningRun j
  numbered : db.numbered j k
  row : ∃ a, db.attempts.get (j, k) = some a ∧ a.status = .running ∧ a.recoveryToken = some t

/-- How a scan gets to the job and through it. -/
inductive Course (j : String) (k : Nat) (last : Option AttemptRow) (s : Sys) : RecoverPc → Prop
  | reconciled (r : RecoverPc) (done : s.db.reconciled j) : Course j k last s r
  | raised : Course j k last s .raised
  | entered (found : s.Left j k last) : Course j k last s (.enter 0)
  | expired (cutoff : Time) (found : s.Left j k last) (old : ∀ r, s.db.runs.get j = some r → r.updatedAt ≤ cutoff) :
    Course j k last s (.expired cutoff)
  | stale (cutoff : Time) (es : List (String × Nat)) (found : s.Left j k last)
      (old : ∀ r, s.db.runs.get j = some r → r.updatedAt ≤ cutoff) (listed : Listed j last es) :
    Course j k last s (.stale cutoff es)
  | reading (es : List (String × Nat)) (ids : List String) (runs : List Snapshot) (found : s.Left j k last)
      (listed : Listed j last es) (shown : Shown j last runs) (waits : j ∈ ids ∨ ∃ x ∈ runs, x.jobId = j) :
    Course j k last s (.read es ids runs)
  | scanning (sc : Scan) (found : s.Left j k last) (listed : Listed j last sc.expired) (shown : Shown j last sc.rest)
      (waits : ∃ x ∈ sc.rest, x.jobId = j) : Course j k last s (.scan sc)
  | elsewhere (r : RecoverPc) (sc : Scan) (run : Snapshot) (visits : r.visiting = some (sc, run)) (ne : run.jobId ≠ j)
      (found : s.Left j k last) (listed : Listed j last sc.expired) (shown : Shown j last sc.rest)
      (waits : ∃ x ∈ sc.rest, x.jobId = j) : Course j k last s r
  | untried (sc : Scan) (run : Snapshot) (job : run.jobId = j) (found : s.Left j k last) (none_left : last = none) :
    Course j k last s (.failNoAttempt sc run)
  | leasing (sc : Scan) (run : Snapshot) (a : AttemptRow) (job : run.jobId = j) (found : s.Left j k last)
      (listed : Listed j last sc.expired) (is_last : last = some a) : Course j k last s (.lease sc run a)
  | claiming (sc : Scan) (run : Snapshot) (a : AttemptRow) (t : String) (job : run.jobId = j) (found : s.Left j k last)
      (is_last : last = some a) : Course j k last s (.claim sc run a t)
  | probing (sc : Scan) (run : Snapshot) (a : AttemptRow) (t : String) (pid : Nat) (job : run.jobId = j)
      (no : a.attemptNo = k) (is_last : last = some a) (claimed : s.db.Claimed j k t) (pid_eq : a.processPid = some pid) :
    Course j k last s (.probe sc run a t pid)
  | inspecting (sc : Scan) (run : Snapshot) (a : AttemptRow) (t : String) (pid : Nat) (pr : Process) (job : run.jobId = j)
      (no : a.attemptNo = k) (claimed : s.db.Claimed j k t) (orphaned : a.orphaned s.clock)
      (unmatched : ¬ ((a.processIdentity = none ∨ a.processIdentity = pr.identity) ∧ a.processGroupId = some pid))
      (only : ∀ pr', s.processes pid = some pr' → pr' = pr) : Course j k last s (.inspect sc run a t pid)
  | witnessing (sc : Scan) (run : Snapshot) (a : AttemptRow) (t : String) (job : run.jobId = j)
      (no : a.attemptNo = k) (claimed : s.db.Claimed j k t) : Course j k last s (.witness sc run a t)
  | finalizing (sc : Scan) (run : Snapshot) (a : AttemptRow) (t et e : String) (job : run.jobId = j)
      (no : a.attemptNo = k) (claimed : s.db.Claimed j k t) : Course j k last s (.finalize sc run a t et e)

theorem AttemptRow.orphaned_mono {a : AttemptRow} {now later : Time} (h : a.orphaned now) (hle : now ≤ later) :
    a.orphaned later := by
  obtain ⟨d, hd, hdue⟩ := h
  exact ⟨d, hd, le_trans hdue hle⟩

section Frame

variable {s s' : Sys} {j : String} {k : Nat} {last : Option AttemptRow} {r : RecoverPc}

/-- What no party has undone: the clock went on and processes ended. -/
structure Sys.Later (s s' : Sys) : Prop where
  clock : s.clock ≤ s'.clock
  processes : ∀ pid pr, s'.processes pid = some pr → s.processes pid = some pr

theorem Sys.Claimable.later {a : AttemptRow} (h : s.Claimable a) (hl : s.Later s') : s'.Claimable a where
  running := h.running
  token := h.token
  expired := by
    obtain ⟨e, he, hlt⟩ := (Option.any_eq_true _ _).1 h.expired
    exact (Option.any_eq_true _ _).2 ⟨e, he, decide_eq_true (lt_of_lt_of_le (of_decide_eq_true hlt) hl.clock)⟩
  free := by
    have hfree := h.free
    unfold AttemptRow.recoveryFree at hfree ⊢
    rw [Bool.or_eq_true] at hfree ⊢
    rcases hfree with hnone | hover
    · exact Or.inl hnone
    · obtain ⟨e, he, hlt⟩ := (Option.any_eq_true _ _).1 hover
      exact Or.inr ((Option.any_eq_true _ _).2 ⟨e, he, decide_eq_true (lt_of_lt_of_le (of_decide_eq_true hlt) hl.clock)⟩)
  no_session := h.no_session
  not_shielded := by
    rintro ⟨pid, pr, hpid, hpr, hshield⟩
    refine h.not_shielded ⟨pid, pr, hpid, hl.processes pid pr hpr, ?_⟩
    rcases hshield with hyoung | hmatch
    · exact Or.inl fun ho => hyoung (AttemptRow.orphaned_mono ho hl.clock)
    · exact Or.inr hmatch

/-- The clock and the ends of processes change nothing of where the scan is. -/
theorem Course.later (h : Course j k last s r) (hl : s.Later s') (hdb : s'.db = s.db) : Course j k last s' r := by
  have hfound : s.Left j k last → s'.Left j k last := fun hf =>
    hf.frame hl.clock (fun m => by rw [hdb]) (by rw [hdb])
  cases h with
  | reconciled r hdone => exact .reconciled r (by rw [hdb]; exact hdone)
  | raised => exact .raised
  | entered hf => exact .entered (hfound hf)
  | expired cutoff hf hold => exact .expired cutoff (hfound hf) (by rw [hdb]; exact hold)
  | stale cutoff es hf hold hes => exact .stale cutoff es (hfound hf) (by rw [hdb]; exact hold) hes
  | reading es ids runs hf hes hsh hw => exact .reading es ids runs (hfound hf) hes hsh hw
  | scanning sc hf hes hsh hw => exact .scanning sc (hfound hf) hes hsh hw
  | elsewhere r sc run hv hne hf hes hsh hw => exact .elsewhere r sc run hv hne (hfound hf) hes hsh hw
  | untried sc run hj hf hnone => exact .untried sc run hj (hfound hf) hnone
  | leasing sc run a hj hf hes hlast => exact .leasing sc run a hj (hfound hf) hes hlast
  | claiming sc run a t hj hf hlast => exact .claiming sc run a t hj (hfound hf) hlast
  | probing sc run a t pid hj hno hlast hc hpid =>
    exact .probing sc run a t pid hj hno hlast (by rw [hdb]; exact hc) hpid
  | inspecting sc run a t pid pr hj hno hc ho hun honly =>
    exact .inspecting sc run a t pid pr hj hno (by rw [hdb]; exact hc) (AttemptRow.orphaned_mono ho hl.clock) hun
      (fun pr' hpr => honly pr' (hl.processes pid pr' hpr))
  | witnessing sc run a t hj hno hc => exact .witnessing sc run a t hj hno (by rw [hdb]; exact hc)
  | finalizing sc run a t et e hj hno hc => exact .finalizing sc run a t et e hj hno (by rw [hdb]; exact hc)

end Frame

section Calls

variable {b : Backend} {now : Time} {db : Db} {svc : Service} {j : String}

/-- No call of a scan reopens a job. -/
theorem RecoverPc.op_reconciled {r : RecoverPc} {op : StoreOp} (hop : r.op svc = some op) (hd : db.reconciled j) :
    (op.after b now db).reconciled j := by
  obtain ⟨⟨row, hrow, hst⟩, hended⟩ := hd
  constructor
  · cases runs_after b now db op j with
    | same h => exact ⟨row, by rw [h]; exact hrow, hst⟩
    | created _ _ _ _ _ _ _ hn => rw [hrow] at hn; cases hn
    | claimed locked row' hcl _ hrow' hq =>
      rw [hrow] at hrow'
      cases hrow'
      rw [hst] at hq
      cases hq
    | closed c row' _ _ _ hrow' hrunning =>
      rw [hrow] at hrow'
      cases hrow'
      rw [hst] at hrunning
      cases hrunning
    | updated fields row' hup _ hget =>
      refine ⟨_, hget, ?_⟩
      subst hup
      cases RecoverPc.op_cases hop with
      | failNoAttempt sc run => rfl
  · intro m a' ha'
    cases attempts_after b now db op (j, m) with
    | same h => rw [h] at ha'; exact hended m a' ha'
    | recorded st et e ap rc hrec =>
      subst hrec
      have hforeign := RecoverPc.op_foreign (j := j) hop
      exact absurd rfl hforeign
    | renewed session ttl a hren =>
      subst hren
      cases RecoverPc.op_cases hop
    | updated u a hu _ ha hg _ _ => exact absurd (attemptUpdate_running hu hg) (hended m a ha)

/-- The claim of an Attempt that is left for recovery is accepted. -/
theorem claim_accepted (b : Backend) {k : Nat} {a : AttemptRow} {owner t : String} {ttl : Time} (hn : db.numbered j k)
    (hrun : db.runningRun j) (ha : db.attempts.get (j, k) = some a)
    (hg : (Store.claimRecovery now j k owner t ttl).guard a = true) :
    (StoreOp.claimRecovery j k owner t ttl).reply b now db = .flag true ∧
      ((StoreOp.claimRecovery j k owner t ttl).after b now db).Claimed j k t := by
  have hen : ((Store.claimRecovery now j k owner t ttl).exec db).2 = true :=
    (AttemptUpdate.exec_true_iff _ _).2 ⟨a, ha, hg⟩
  have hst : a.status = .running := by
    simp only [Store.claimRecovery, Bool.and_eq_true, AttemptRow.isRunning, decide_eq_true_eq] at hg
    exact hg.1.1
  refine ⟨?_, hrun, numbered_exec rfl hn, _, AttemptUpdate.get_exec_key _ db ha hg, hst, rfl⟩
  simp only [StoreOp.reply, StoreOp.exec, Reply.ofFlag, hen]

/-- The finalization of a claimed Attempt is accepted, and leaves nothing open. -/
theorem finalize_accepted (b : Backend) {k : Nat} {t et e : String} (hc : db.Claimed j k t) :
    ((StoreOp.finalizeRecovery j k t et e).after b now db).reconciled j := by
  obtain ⟨a, ha, hst, htok⟩ := hc.row
  have hg : (Store.abandonAttempt now j k t et e).guard a = true := by
    simp [Store.abandonAttempt, AttemptRow.isRunning, AttemptRow.holdsRecovery, hst, htok]
  have hop : (StoreOp.finalizeRecovery j k t et e).finalizer now db =
      some ⟨Store.abandonAttempt now j k t et e, j, { status := some .failed, error := some (some e) }⟩ := rfl
  cases finalizer_cases b hop with
  | noAttempt hno _ _ => exact absurd ⟨a, ha, hg⟩ hno
  | noRun _ hno _ _ => exact absurd hc.run hno
  | accepted _ hrun _ rest _ hafter =>
    rw [hafter]
    constructor
    · obtain ⟨r, hr, hrst⟩ := hrun
      refine ⟨({ status := some .failed, error := some (some e) } : RunFields).write now r, ?_, rfl⟩
      show (((Store.abandonAttempt now j k t et e).exec db).1.updateRuns now j Store.runIsRunning _).1.runs.get j = _
      rw [Db.get_updateRuns, AttemptUpdate.exec_runs, hr, Option.map_some, if_pos ⟨rfl, by simp [Store.runIsRunning, hrst]⟩]
    · intro m a' ha'
      have hget := (Store.abandonAttempt now j k t et e).get_exec db (j, m)
      have ha'' := hget.symm.trans ha'
      obtain ⟨a₀, ha₀, heq⟩ := Option.map_eq_some_iff.1 ha''
      by_cases hm : m = k
      · subst hm
        rw [ha] at ha₀
        cases ha₀
        rw [if_pos ⟨rfl, hg⟩] at heq
        rw [← heq]
        simp [Store.abandonAttempt]
      · have hkey : ¬ (Store.abandonAttempt now j k t et e).key = (j, m) := by
          intro h
          exact hm (congrArg Prod.snd h).symm
        rw [if_neg (fun h => hkey h.1)] at heq
        subst heq
        have hin := (hc.numbered.isSome_iff m).1 (by rw [ha₀]; rfl)
        rw [hc.numbered.retried m a₀ (by omega) ha₀]
        decide

end Calls

theorem RecoverPc.visit_visiting (owner : Option ExecutionOwner) (live : String → Bool) (sc : Scan) (run : Snapshot) :
    (visit owner live sc run).visiting = some (sc, run) ∨
    ∃ report, visit owner live sc run = .scan { sc with report := report } := by
  unfold visit
  split
  · exact Or.inr ⟨_, rfl⟩
  · split
    · exact Or.inl rfl
    · split <;> exact Or.inl rfl

theorem Sys.Left.isRunning {s : Sys} {j : String} {k : Nat} {last : Option AttemptRow} (h : s.Left j k last) :
    s.db.runningRun j := by
  obtain ⟨r, hr, hst, -⟩ := h.run
  exact ⟨r, hr, hst⟩

theorem RecoverPc.visit_lease {owner : Option ExecutionOwner} {live : String → Bool} {sc : Scan} {run : Snapshot}
    {a : AttemptRow} (hlive : live run.jobId = false) (hlast : run.view.attempts.getLast? = some a)
    (hsession : a.executionHostSession = none) : visit owner live sc run = .lease sc run a := by
  have hforeign : foreign owner a = false := by simp [foreign, hsession, truthy]
  simp only [visit, hlive, hlast, hforeign, Bool.false_eq_true, if_false]

/-! ## What the scan reads of the job -/

section Reads

variable {s : Sys} {j : String} {k : Nat} {last : Option AttemptRow}

theorem Sys.Left.listed (h : s.Left j k last) (hcl : ∀ a, last = some a → s.Claimable a) :
    Listed j last (Store.listExpiredLeasedAttempts s.db s.clock) := by
  intro a ha
  have hget := h.last_eq
  rw [ha] at hget
  have hclaim := hcl a ha
  rw [Store.listExpiredLeasedAttempts, List.mem_insertionSort, List.mem_map]
  refine ⟨a, List.mem_filter.2 ⟨Table.mem_of_get hget, ?_⟩, ?_⟩
  · simp [AttemptRow.isRunning, hclaim.running, hclaim.token, hclaim.expired]
  · have hkey : a.key = (j, k) := Table.key_of_get hget
    rw [hkey, (ha ▸ h : s.Left j k (some a)).attemptNo]

theorem Sys.Left.stale (h : s.Left j k last) {cutoff : Time} (hold : ∀ r, s.db.runs.get j = some r → r.updatedAt ≤ cutoff) :
    j ∈ Store.staleRunning s.db cutoff := by
  obtain ⟨row, hrow, hst, -⟩ := h.run
  have hjob : row.jobId = j := Table.key_of_get hrow
  rw [Store.staleRunning, List.mem_map]
  refine ⟨row, List.mem_filter.2 ⟨Table.mem_of_get hrow, ?_⟩, hjob⟩
  simp [hst, hold row hrow]

/-- A Run the scan reads shows its last Attempt. -/
theorem Sys.Left.shown (h : s.Left j k last) (b : Backend) (child : Option Child) {svc : Service} {r : RecoverPc}
    {op : StoreOp} (hop : r.op svc = some op) (hsh : Shown j last r.snapshots) :
    Shown j last (r.resume child (op.reply b s.clock s.db)).snapshots := by
  intro x hx hxj
  rcases RecoverPc.resume_snapshots hx with hx | ⟨es, i, ids, runs, v, rfl, hrep, rfl⟩
  · exact hsh x hx hxj
  · cases hop
    simp only [StoreOp.reply, StoreOp.exec, Reply.run.injEq] at hrep
    obtain ⟨row, hrow, rfl⟩ := Option.map_eq_some_iff.1 hrep
    have hjob : row.jobId = i := Table.key_of_get hrow
    have hij : row.jobId = j := hxj
    obtain rfl : i = j := hjob.symm.trans hij
    rw [← h.last_eq]
    exact attemptsOf_getLast? h.numbered

end Reads

section Steps

variable {cfg : Config} {s s' : Sys} {p svc : Nat} {j : String} {k : Nat} {last : Option AttemptRow} {r : RecoverPc}

/-- The write on a Run without an Attempt leaves nothing open. -/
theorem untried_closes (b : Backend) (hf : s.Left j k none) {error : String} :
    ((StoreOp.updateRun j { status := some .failed, error := some (some error) }).after b s.clock s.db).reconciled j := by
  obtain ⟨row, hrow, -, -⟩ := hf.run
  constructor
  · refine ⟨({ status := some .failed, error := some (some error) } : RunFields).write s.clock row, ?_, rfl⟩
    simp [StoreOp.after, StoreOp.exec, Store.updateRun, Db.get_updateRuns, hrow]
  · intro m a ha
    rw [updateRun_attempts b s.clock _] at ha
    have hin := (hf.numbered.isSome_iff m).1 (by rw [ha]; rfl)
    have hk := (hf.numbered.isSome_iff k).2 ⟨by omega, le_refl k⟩
    rw [hf.last_eq] at hk
    cases hk

/-- **A call of the scan keeps its course.** -/
theorem Course.called {fresh : String} {locked : List String} {op : StoreOp} {child : Option Child}
    (h : Course j k last s r) (hcl : ∀ a, last = some a → s.Claimable a) (hop : r.op (cfg.service svc) = some op)
    (hc : Sys.Called cfg s p fresh locked op s') :
    Course j k last s' (r.resume child (op.reply cfg.backend s.clock s.db)) := by
  have hle : s.clock ≤ s'.clock := le_of_eq hc.clock_eq.symm
  -- where the call writes nothing, the job is as it was
  have hread : op.after cfg.backend s.clock s.db = s.db → s.Left j k last → s'.Left j k last := fun heq hf =>
    hf.frame hle (fun m => by rw [hc.db_eq, heq]) (by rw [hc.db_eq, heq])
  cases h with
  | reconciled r hdone => exact .reconciled _ (by rw [hc.db_eq]; exact RecoverPc.op_reconciled hop hdone)
  | raised => cases hop
  | entered => cases hop
  | expired cutoff hf hold =>
    cases hop
    exact .stale cutoff _ (hread rfl hf) (by rw [hc.db_eq]; exact hold) (hf.listed hcl)
  | stale cutoff es hf hold hes =>
    cases hop
    exact .reading es _ [] (hread rfl hf) hes (fun x hx => by cases hx) (Or.inl (hf.stale hold))
  | reading es ids runs hf hes hsh hw =>
    cases ids with
    | nil => cases hop
    | cons i ids =>
      have hshown := hf.shown cfg.backend child hop hsh
      cases hop
      have hf' : s'.Left j k last := hread rfl hf
      simp only [StoreOp.reply, StoreOp.exec, RecoverPc.resume, Store.getRun] at hshown ⊢
      cases hrow : s.db.runs.get i with
      | none =>
        refine .reading es ids runs hf' hes hsh ?_
        rcases hw with hj | hw
        · rcases List.mem_cons.1 hj with rfl | hj
          · obtain ⟨row, hrow', -⟩ := hf.run
            rw [hrow] at hrow'
            cases hrow'
          · exact Or.inl hj
        · exact Or.inr hw
      | some row =>
        have hjob : row.jobId = i := Table.key_of_get hrow
        rw [hrow] at hshown
        refine .reading es ids _ hf' hes hshown ?_
        rcases hw with hj | ⟨x, hx, hxj⟩
        · rcases List.mem_cons.1 hj with rfl | hj
          · exact Or.inr ⟨_, List.mem_append_right _ (List.mem_singleton_self _), hjob⟩
          · exact Or.inl hj
        · exact Or.inr ⟨x, List.mem_append_left _ hx, hxj⟩
  | scanning => cases hop
  | elsewhere r sc run hv hne hf hes hsh hw =>
    have hframe := RecoverPc.op_frame cfg.backend s.clock s.db (j := j) hop (fun sc' run' hv' => by
      rw [hv] at hv'
      cases hv'
      exact hne)
    have hf' : s'.Left j k last := hf.frame hle (fun m => by rw [hc.db_eq]; exact hframe.1 m)
      (by rw [hc.db_eq]; exact hframe.2)
    rcases RecoverPc.resume_visiting child (op.reply cfg.backend s.clock s.db) hv with hv' | ⟨report, heq⟩
    · exact .elsewhere _ sc run hv' hne hf' hes hsh hw
    · rw [heq]
      exact .scanning _ hf' hes hsh hw
  | untried sc run hj hf hnone =>
    cases hop
    refine .reconciled _ ?_
    rw [hc.db_eq, hj]
    rw [hnone] at hf
    exact untried_closes cfg.backend hf
  | leasing => cases hop
  | claiming sc run a t hj hf hlast =>
    cases hop
    subst hlast
    have hclaim := hcl a rfl
    have hno := hf.attemptNo
    have hg : (Store.claimRecovery s.clock j k (cfg.service svc).workerId t (cfg.service svc).recoveryLeaseSeconds).guard a =
        true := by
      simp [Store.claimRecovery, AttemptRow.isRunning, hclaim.running, hclaim.expired, hclaim.free]
    obtain ⟨hreply, hclaimed⟩ := claim_accepted cfg.backend hf.numbered hf.isRunning hf.last_eq hg
    rw [hj, hno] at hc ⊢
    rw [← hc.db_eq] at hclaimed
    rw [hreply]
    cases hpid : a.processPid with
    | none =>
      simp only [RecoverPc.resume, hpid, if_true]
      exact .witnessing sc run a t hj hno hclaimed
    | some pid =>
      simp only [RecoverPc.resume, hpid, if_true]
      exact .probing sc run a t pid hj hno rfl hclaimed hpid
  | probing => cases hop
  | inspecting => cases hop
  | witnessing sc run a t hj hno hcd =>
    cases hop
    have hcd' : s'.db.Claimed j k t := by rw [hc.db_eq]; exact hcd
    simp only [RecoverPc.resume]
    split
    · exact .finalizing sc run a t _ _ hj hno hcd'
    · exact .finalizing sc run a t _ _ hj hno hcd'
  | finalizing sc run a t et e hj hno hcd =>
    cases hop
    refine .reconciled _ ?_
    rw [hc.db_eq, hj, hno]
    exact finalize_accepted cfg.backend hcd

/-- **And so does a step that calls no store.** -/
theorem Course.advanced {owner : Option ExecutionOwner} {live : String → Bool} {fresh : String} {r' : RecoverPc}
    (h : Course j k last s r) (hcl : ∀ a, last = some a → s.Claimable a) (hlive : live j = false)
    (hadv : RecoverPc.Advance owner live s.clock s.observed fresh r r') : Course j k last s r' := by
  cases h with
  | reconciled r hdone => exact .reconciled r' hdone
  | raised => cases hadv
  | entered hf =>
    cases hadv
    refine .expired _ hf (fun row hrow => ?_)
    obtain ⟨row', hrow', -, hup⟩ := hf.run
    rw [hrow'] at hrow
    cases hrow
    rw [sub_zero]
    exact hup
  | expired => cases hadv
  | stale => cases hadv
  | reading es ids runs hf hes hsh hw =>
    cases hadv
    refine .scanning _ hf hes hsh ?_
    rcases hw with hj | hw
    · cases hj
    · exact hw
  | scanning sc hf hes hsh hw =>
    cases hadv with
    | returned _ hrest =>
      obtain ⟨x, hx, -⟩ := hw
      rw [hrest] at hx
      cases hx
    | visited _ run rest hrest =>
      have hsh' : Shown j last rest := fun x hx => hsh x (by rw [hrest]; exact List.mem_cons_of_mem _ hx)
      by_cases hj : run.jobId = j
      · have hlast := hsh run (by rw [hrest]; exact List.mem_cons_self) hj
        cases hl : last with
        | none =>
          subst hl
          have hnext : RecoverPc.visit owner live { sc with rest := rest } run =
              .failNoAttempt { sc with rest := rest } run := by
            simp only [RecoverPc.visit, hj, hlive, hlast, Bool.false_eq_true, if_false]
          rw [hnext]
          exact .untried _ run hj hf rfl
        | some a =>
          subst hl
          rw [RecoverPc.visit_lease (by rw [hj]; exact hlive) hlast (hcl a rfl).no_session]
          exact .leasing _ run a hj hf hes rfl
      · have hw' : ∃ x ∈ rest, x.jobId = j := by
          obtain ⟨x, hx, hxj⟩ := hw
          rw [hrest] at hx
          rcases List.mem_cons.1 hx with rfl | hx
          · exact absurd hxj hj
          · exact ⟨x, hx, hxj⟩
        rcases RecoverPc.visit_visiting owner live { sc with rest := rest } run with hv | ⟨report, heq⟩
        · exact .elsewhere _ _ run hv hj hf hes hsh' hw'
        · rw [heq]
          exact .scanning _ hf hes hsh' hw'
  | elsewhere r sc run hv hne hf hes hsh hw =>
    rcases hadv.visiting hv with hv' | ⟨report, rfl⟩ | rfl
    · exact .elsewhere r' sc run hv' hne hf hes hsh hw
    · exact .scanning _ hf hes hsh hw
    · exact .raised
  | untried => cases hadv
  | leasing sc run a hj hf hes hlast =>
    cases hadv with
    | leased _ _ _ report hheld =>
      have hin := hes a hlast
      rw [hj] at hheld
      exact absurd hin hheld.2
    | claim _ _ _ _ => exact .claiming sc run a fresh hj hf hlast
  | claiming => cases hadv
  | probing sc run a t pid hj hno hlast hcd hpid =>
    cases hadv with
    | gone _ _ _ _ _ hnone => exact .witnessing sc run a t hj hno hcd
    | denied => exact .raised
    | there _ _ _ _ _ hfound =>
      obtain ⟨o, hobs⟩ := Option.isSome_iff_exists.1 hfound
      obtain ⟨pr, hpr, -⟩ := Option.map_eq_some_iff.1 hobs
      have hopen := (hcl a hlast).not_shielded
      refine .inspecting sc run a t pid pr hj hno hcd ?_ ?_ ?_
      · by_contra hyoung
        exact hopen ⟨pid, pr, hpid, hpr, Or.inl hyoung⟩
      · intro hmatch
        exact hopen ⟨pid, pr, hpid, hpr, Or.inr hmatch⟩
      · intro pr' hpr'
        exact Option.some.inj (hpr'.symm.trans hpr)
  | inspecting sc run a t pid pr hj hno hcd ho hun honly =>
    cases hadv with
    | unidentified => exact .raised
    | young _ _ _ _ _ hearly => exact absurd ho hearly
    | unknown _ _ _ _ _ _ => exact .finalizing sc run a t _ _ hj hno hcd
    | terminable _ _ _ _ _ _ hident hleads =>
      refine absurd ⟨?_, hleads⟩ hun
      rcases hident with hnone | hident
      · exact Or.inl hnone
      · unfold Sys.observed at hident
        cases hpr : s.processes pid with
        | none =>
          rw [hpr] at hident
          exact Or.inl hident
        | some pr' =>
          rw [hpr, honly pr' hpr] at hident
          exact Or.inr hident
  | witnessing => cases hadv
  | finalizing => cases hadv

end Steps

/-- The scan refuses the Attempt, or a process shields it. -/
def Sys.Unclosable (s : Sys) (a : AttemptRow) : Prop :=
  ¬ (a.status = .running ∧ a.leaseExpired s.clock = true) ∨ s.shielded a

/-- The Run is `RUNNING`, and its last Attempt has the status and the lease it was left with. -/
structure Db.Open (db : Db) (j : String) (k : Nat) (a : AttemptRow) : Prop where
  run : db.runningRun j
  row : ∃ a', db.attempts.get (j, k) = some a' ∧ a'.status = a.status ∧ a'.leaseExpiresAt = a.leaseExpiresAt

/-- Whether the scan still reads. -/
def RecoverPc.asks : RecoverPc → Bool
  | .enter _ | .expired _ | .stale _ _ | .read _ _ _ => true
  | _                                                => false

theorem RecoverPc.visiting_asks {r : RecoverPc} {x : Scan × Snapshot} (h : r.visiting = some x) : r.asks = false := by
  cases r with
  | enter => cases h
  | expired => cases h
  | stale => cases h
  | read => cases h
  | _ => rfl

/-- Where a scan can be in the Run of an Attempt that it will not close. -/
inductive Held (s : Sys) (a : AttemptRow) : RecoverPc → Prop
  | lease (sc : Scan) (run : Snapshot) : Held s a (.lease sc run a)
  | claim (sc : Scan) (run : Snapshot) (t : String) : Held s a (.claim sc run a t)
  | probe (sc : Scan) (run : Snapshot) (t : String) (pid : Nat) (pid_eq : a.processPid = some pid)
      (shielded : s.shielded a) : Held s a (.probe sc run a t pid)
  | inspect (sc : Scan) (run : Snapshot) (t : String) (pid : Nat) (pid_eq : a.processPid = some pid)
      (shielded : s.shielded a) : Held s a (.inspect sc run a t pid)
  | kill (sc : Scan) (run : Snapshot) (t : String) (pid : Nat) : Held s a (.kill sc run a t pid)
  | release (sc : Scan) (run : Snapshot) (t : String) (why : ReleaseReason) : Held s a (.release sc run a t why)

/-- How a scan passes the job by. -/
inductive Stuck (j : String) (k : Nat) (a : AttemptRow) (s : Sys) (r : RecoverPc) : Prop
  | asking (asks : r.asks = true) (found : s.Left j k (some a)) (shown : Shown j (some a) r.snapshots)
  | passing (asked : r.asks = false) (left_open : s.db.Open j k a) (shown : Shown j (some a) r.snapshots)
      (held : ∀ sc run, r.visiting = some (sc, run) → run.jobId = j → Held s a r)

theorem Shown.mono {j : String} {last : Option AttemptRow} {runs runs' : List Snapshot} (h : Shown j last runs)
    (hsub : ∀ x ∈ runs', x ∈ runs) : Shown j last runs' :=
  fun x hx => h x (hsub x hx)

theorem Sys.Left.left_open {s : Sys} {j : String} {k : Nat} {a : AttemptRow} (h : s.Left j k (some a)) :
    s.db.Open j k a :=
  ⟨h.isRunning, a, h.last_eq, rfl, rfl⟩

/-- A statement that sets the recovery columns leaves the Run open. -/
theorem Db.Open.exec {db : Db} {j : String} {k : Nat} {a : AttemptRow} {u : AttemptUpdate} (h : db.Open j k a)
    (hst : ∀ x, (u.write x).status = x.status) (hlease : ∀ x, (u.write x).leaseExpiresAt = x.leaseExpiresAt) :
    (u.exec db).1.Open j k a := by
  obtain ⟨a', ha', hs, hl⟩ := h.row
  refine ⟨h.run, _, by rw [u.get_exec db, ha', Option.map_some], ?_, ?_⟩
  · split
    · rw [hst]; exact hs
    · exact hs
  · split
    · rw [hlease]; exact hl
    · exact hl

section Stuck

variable {cfg : Config} {s s' : Sys} {p svc : Nat} {j : String} {k : Nat} {a : AttemptRow} {r : RecoverPc}

/-- An accepted claim is one of a `RUNNING` Attempt whose lease is over, so a process shields it. -/
theorem claim_shielded {b : Backend} {owner t : String} {ttl : Time} (hopen : s.db.Open j k a) (hun : s.Unclosable a)
    (hreply : (StoreOp.claimRecovery j k owner t ttl).reply b s.clock s.db = .flag true) : s.shielded a := by
  obtain ⟨a', ha', hg⟩ := (AttemptUpdate.exec_true_iff _ _).1 (Reply.flag.inj hreply)
  obtain ⟨a'', ha'', hst, hlease⟩ := hopen.row
  have hkey : s.db.attempts.get (j, k) = some a' := ha'
  rw [ha''] at hkey
  cases hkey
  simp only [Store.claimRecovery, Bool.and_eq_true, AttemptRow.isRunning, decide_eq_true_eq] at hg
  refine hun.resolve_left (not_not.2 ⟨by rw [← hst]; exact hg.1.1, ?_⟩)
  have hexp := hg.1.2
  unfold AttemptRow.leaseExpired at hexp ⊢
  rw [← hlease]
  exact hexp

/-- **A call of the scan keeps the job stuck.** -/
theorem Stuck.called {fresh : String} {locked : List String} {op : StoreOp} {child : Option Child} (h : Stuck j k a s r)
    (hun : s.Unclosable a) (hno : a.attemptNo = k) (hop : r.op (cfg.service svc) = some op)
    (hc : Sys.Called cfg s p fresh locked op s') :
    Stuck j k a s' (r.resume child (op.reply cfg.backend s.clock s.db)) := by
  have hlater : s.shielded a → s'.shielded a := by
    rintro ⟨pid, pr, hpid, hpr, hshield⟩
    exact ⟨pid, pr, hpid, by rw [hc.processes_eq]; exact hpr, by rw [hc.clock_eq]; exact hshield⟩
  cases h with
  | asking hasks hf hsh =>
    have hread : op.after cfg.backend s.clock s.db = s.db → s'.Left j k (some a) := fun heq =>
      hf.frame (le_of_eq hc.clock_eq.symm) (fun m => by rw [hc.db_eq, heq]) (by rw [hc.db_eq, heq])
    have hshown := hf.shown cfg.backend child hop hsh
    cases r with
    | expired cutoff => cases hop; exact .asking rfl (hread rfl) hshown
    | stale cutoff es => cases hop; exact .asking rfl (hread rfl) hshown
    | read es ids runs =>
      cases ids with
      | nil => cases hop
      | cons i ids =>
        cases hop
        refine .asking ?_ (hread rfl) hshown
        simp only [StoreOp.reply, StoreOp.exec, RecoverPc.resume]
        split <;> rfl
    | enter => cases hop
    | _ => cases hasks
  | passing hasked hopen hsh hheld =>
    have hsh' : Shown j (some a) (r.resume child (op.reply cfg.backend s.clock s.db)).snapshots := by
      refine hsh.mono (fun x hx => ?_)
      rcases RecoverPc.resume_snapshots hx with hx | ⟨es, i, ids, runs, v, rfl, -, -⟩
      · exact hx
      · cases hasked
    cases hv : r.visiting with
    | none =>
      cases r with
      | scan => cases hop
      | returned => cases hop
      | raised => cases hop
      | enter => cases hasked
      | expired => cases hasked
      | stale => cases hasked
      | read => cases hasked
      | _ => cases hv
    | some x =>
      obtain ⟨sc, run⟩ := x
      have hback := RecoverPc.resume_visiting child (op.reply cfg.backend s.clock s.db) hv
      have hasked' : (r.resume child (op.reply cfg.backend s.clock s.db)).asks = false := by
        rcases hback with hv' | ⟨report, heq⟩
        · exact RecoverPc.visiting_asks hv'
        · rw [heq]
          rfl
      by_cases hj : run.jobId = j
      · cases hheld sc run hv hj with
        | claim sc₁ run₁ t =>
          obtain ⟨rfl, rfl⟩ : sc₁ = sc ∧ run₁ = run := Prod.mk.inj (Option.some.inj hv)
          cases hop
          have hopen' : s'.db.Open j k a := by
            rw [hc.db_eq]
            exact hopen.exec (fun _ => rfl) (fun _ => rfl)
          by_cases hreply : (StoreOp.claimRecovery run₁.jobId a.attemptNo (cfg.service svc).workerId t
              (cfg.service svc).recoveryLeaseSeconds).reply cfg.backend s.clock s.db = .flag true
          · have hshield : s.shielded a := claim_shielded hopen hun (by rw [← hj, ← hno]; exact hreply)
            have hshield' := hshield
            obtain ⟨pid, pr, hpid, -⟩ := hshield'
            have hnext : (RecoverPc.claim sc₁ run₁ a t).resume child ((StoreOp.claimRecovery run₁.jobId a.attemptNo
                (cfg.service svc).workerId t (cfg.service svc).recoveryLeaseSeconds).reply cfg.backend s.clock s.db) =
                .probe sc₁ run₁ a t pid := by
              simp only [RecoverPc.resume, hreply, hpid, if_true]
            rw [hnext] at hsh' ⊢
            exact .passing rfl hopen' hsh' (fun _ _ _ _ => .probe sc₁ run₁ t pid hpid (hlater hshield))
          · have hnext : (RecoverPc.claim sc₁ run₁ a t).resume child ((StoreOp.claimRecovery run₁.jobId a.attemptNo
                (cfg.service svc).workerId t (cfg.service svc).recoveryLeaseSeconds).reply cfg.backend s.clock s.db) =
                .scan { sc₁ with report := { sc₁.report with
                  skippedRecoveryClaim := sc₁.report.skippedRecoveryClaim ++ [run₁.jobId] } } := by
              simp only [RecoverPc.resume, hreply, if_false]
            rw [hnext] at hsh' ⊢
            exact .passing rfl hopen' hsh' (fun _ _ hv _ => by cases hv)
        | release _ _ t why =>
          cases hop
          have hopen' : s'.db.Open j k a := by
            rw [hc.db_eq]
            exact hopen.exec (fun _ => rfl) (fun _ => rfl)
          refine .passing hasked' hopen' hsh' (fun _ _ hv _ => ?_)
          cases why <;> cases hv
        | _ => cases hop
      · have hframe := RecoverPc.op_frame cfg.backend s.clock s.db (j := j) hop (fun sc' run' hv' => by
          rw [hv] at hv'
          cases hv'
          exact hj)
        obtain ⟨⟨row, hrow, hst⟩, a', ha', hst', hlease'⟩ := hopen
        refine .passing hasked' ⟨⟨row, by rw [hc.db_eq, hframe.2]; exact hrow, hst⟩, a',
          by rw [hc.db_eq, hframe.1]; exact ha', hst', hlease'⟩ hsh' (fun sc' run' hv' hj' => ?_)
        rcases hback with hsame | ⟨report, heq⟩
        · rw [hsame] at hv'
          cases hv'
          exact absurd hj' hj
        · rw [heq] at hv'
          cases hv'

/-- **And so does a step that calls no store**, where `ps` answers and the signals are permitted. -/
theorem Stuck.advanced {owner : Option ExecutionOwner} {live : String → Bool} {fresh : String} {inp : Input}
    {r' : RecoverPc} (h : Stuck j k a s r) (hsession : a.executionHostSession = none) (hlive : live j = false)
    (hinp : inp = .ps true ∨ inp = .signal true)
    (hadv : r.advance owner live s.clock s.observed fresh inp = some r') : Stuck j k a s r' := by
  have hcases := RecoverPc.advance_cases hadv
  cases h with
  | asking hasks hf hsh =>
    cases hcases with
    | enter => exact .asking rfl hf (fun x hx => by cases hx)
    | scanned es runs => exact .passing rfl hf.left_open hsh (fun _ _ hv _ => by cases hv)
    | _ => cases hasks
  | passing hasked hopen hsh hheld =>
    have hsh' : Shown j (some a) r'.snapshots := hsh.mono hcases.keeps.1
    cases hv : r.visiting with
    | none =>
      cases hcases with
      | returned => exact .passing rfl hopen hsh' (fun _ _ hv' _ => by cases hv')
      | visited sc run rest hrest =>
        by_cases hj : run.jobId = j
        · have hlast := hsh run (by show run ∈ sc.rest; rw [hrest]; exact List.mem_cons_self) hj
          rw [RecoverPc.visit_lease (by rw [hj]; exact hlive) hlast hsession] at hsh' ⊢
          exact .passing rfl hopen hsh' (fun _ _ _ _ => .lease _ run)
        · rcases RecoverPc.visit_visiting owner live { sc with rest := rest } run with hv' | ⟨report, heq⟩
          · refine .passing (RecoverPc.visiting_asks hv') hopen hsh' (fun sc' run' hv'' hj' => ?_)
            rw [hv'] at hv''
            cases hv''
            exact absurd hj' hj
          · rw [heq] at hsh' ⊢
            exact .passing rfl hopen hsh' (fun _ _ hv'' _ => by cases hv'')
      | enter => cases hasked
      | scanned => cases hasked
      | _ => cases hv
    | some x =>
      obtain ⟨sc, run⟩ := x
      by_cases hj : run.jobId = j
      · cases hheld sc run hv hj with
        | lease =>
          cases hcases with
          | leased => exact .passing rfl hopen hsh' (fun _ _ hv' _ => by cases hv')
          | claim => exact .passing rfl hopen hsh' (fun _ _ _ _ => .claim _ _ fresh)
        | probe _ _ t pid hpid hshield =>
          cases hcases with
          | gone _ _ _ _ _ hnone =>
            obtain ⟨pid', pr, hpid', hpr, -⟩ := hshield
            rw [hpid] at hpid'
            cases hpid'
            rw [Sys.observed, hpr] at hnone
            cases hnone
          | there => exact .passing rfl hopen hsh' (fun _ _ _ _ => .inspect _ _ t pid hpid hshield)
          | denied => exact .passing rfl hopen hsh' (fun _ _ hv' _ => by cases hv')
        | inspect _ _ t pid hpid hshield =>
          cases hcases with
          | unidentified => exact .passing rfl hopen hsh' (fun _ _ hv' _ => by cases hv')
          | young => exact .passing rfl hopen hsh' (fun _ _ _ _ => .release _ _ t _)
          | terminable => exact .passing rfl hopen hsh' (fun _ _ _ _ => .kill _ _ t pid)
          | unknown _ _ _ _ _ horphaned =>
            -- a shield whose deadline is over matches, so the scan signals it
            exfalso
            obtain ⟨pid', pr, hpid', hpr, hyoung | ⟨hident, hleads⟩⟩ := hshield
            · exact hyoung horphaned
            · rw [hpid] at hpid'
              cases hpid'
              rcases hinp with rfl | rfl
              · have hdue : a.orphanDeadline.any (fun d => decide (d ≤ s.clock)) = true := by
                  obtain ⟨d, hd, hle⟩ := horphaned
                  rw [hd]
                  exact decide_eq_true hle
                have hobs : s.observed pid = some (pr.group, pr.identity) := by rw [Sys.observed, hpr]; rfl
                simp [RecoverPc.advance, hdue, hobs, hident, hleads, RecoverPc.finalizeOrphan] at hadv
              · cases hadv
        | kill _ _ t pid =>
          rcases hinp with rfl | rfl
          · cases hadv
          · cases hadv
            exact .passing rfl hopen hsh' (fun _ _ _ _ => .release _ _ t _)
        | claim => cases hcases
        | release => cases hcases
      · rcases hcases.visiting hv with hv' | ⟨report, rfl⟩ | rfl
        · refine .passing (RecoverPc.visiting_asks hv') hopen hsh' (fun sc' run' hv'' hj' => ?_)
          rw [hv'] at hv''
          cases hv''
          exact absurd hj' hj
        · exact .passing rfl hopen hsh' (fun _ _ hv'' _ => by cases hv'')
        · exact .passing rfl hopen hsh' (fun _ _ hv'' _ => by cases hv'')

end Stuck

end EdaLab
