import EdaLab.Absorbing
import EdaLab.Execution
/-!
# Orphan — recovery and the recorded child

A scan judges the child it read with the Run.  While that is the child on record, the row's `orphan_deadline` is the one
the scan read, so an accepted `finalize_recovery` finds the child dead or its deadline over (`finalize_spares_children`).
A `record_attempt_process` that lands after the read is not seen.
-/
namespace EdaLab

open Relational

/-- The child an execution has started and not recorded. -/
def ExecPc.child : ExecPc → Option Child
  | .spawned _ _ c => some c
  | .observe _ _ o => some o.child
  | _              => none

def Thread.child : Thread → Option Child
  | .exec _ _ pc => pc.child
  | _            => Option.none

def Snapshot.last (x : Snapshot) : Option AttemptRow := x.view.attempts.getLast?

/-- The process columns of an Attempt that recovery reads. -/
structure ProcessColumns where
  pid            : Option Nat := none
  identity       : Option String := none
  groupId        : Option Nat := none
  orphanDeadline : Option Time := none
  deriving DecidableEq

def AttemptRow.process (a : AttemptRow) : ProcessColumns :=
  ⟨a.processPid, a.processIdentity, a.processGroupId, a.orphanDeadline⟩

/-! ## Processes -/

section Step

variable {cfg : Config} {s s' : Sys} {a : Act}

theorem births_after (h : Sys.step cfg s a = some s') :
    s.births ≤ s'.births ∧ ∀ pid p, s'.processes pid = some p → s.processes pid = some p ∨ p.birth = s.births := by
  have hborn : ∀ pid group identity pid' p,
      Function.update s.processes pid (some ⟨s.births, group, identity⟩) pid' = some p →
      s.processes pid' = some p ∨ p.birth = s.births := by
    intro pid group identity pid' p hp
    by_cases hpid : pid' = pid
    · subst hpid
      rw [Function.update_self] at hp
      cases hp
      exact Or.inr rfl
    · rw [Function.update_of_ne hpid] at hp
      exact Or.inl hp
  cases Sys.step_cases h with
  | spawn pid group identity => exact ⟨Nat.le_succ _, hborn pid group identity⟩
  | exit pid =>
    refine ⟨le_refl _, fun pid' p hp => Or.inl ?_⟩
    by_cases hpid : pid' = pid
    · subst hpid
      simp only [Function.update_self] at hp
      cases hp
    · simpa only [Function.update_of_ne hpid] using hp
  | call i fresh locked op _ hc =>
    rw [hc.births_eq, hc.processes_eq]
    exact ⟨le_refl _, fun pid p hp => Or.inl hp⟩
  | advance i k fresh inp th eff _ _ happ =>
    cases happ with
    | child pid group identity => exact ⟨Nat.le_succ _, hborn pid group identity⟩
    | cancelFuture j v =>
      obtain ⟨threads, heq⟩ := Sys.cancelFuture_eq (s := s.put i fresh th) v j
      rw [heq]
      exact ⟨le_refl _, fun pid p hp => Or.inl hp⟩
    | _ => exact ⟨le_refl _, fun pid p hp => Or.inl hp⟩
  | _ => exact ⟨le_refl _, fun pid p hp => Or.inl hp⟩

/-- **A child that died stays dead**: a process of its id that starts later is another one. -/
theorem dead_after (h : Sys.step cfg s a = some s') {c : Child} (hb : c.birth < s.births) (hd : ¬ s.alive c) :
    ¬ s'.alive c := by
  rintro ⟨p, hp, hbirth⟩
  rcases (births_after h).2 c.pid p hp with hold | hnew
  · exact hd ⟨p, hold, hbirth⟩
  · omega

/-! ## The child on record -/

/-- What a call can do to the process columns of an Attempt. -/
theorem process_after {b : Backend} {now : Time} {db : Db} {op : StoreOp} {k : String × Nat} {a' : AttemptRow}
    (ha' : (op.after b now db).attempts.get k = some a') :
    (∃ a, db.attempts.get k = some a ∧ a'.process = a.process) ∨
    (db.attempts.get k = none ∧ a'.process = {}) ∨
    (op.reply b now db = .flag true ∧ ∃ t pid at_ identity group deadline,
      op = .recordAttemptProcess k.1 k.2 t pid at_ identity group deadline ∧
        a'.process = ⟨some pid, identity, group, deadline⟩) := by
  cases attempts_after b now db op k with
  | same h =>
    rw [h] at ha'
    exact Or.inl ⟨a', ha', rfl⟩
  | recorded st et e ap rc _ _ hget =>
    rw [hget] at ha'
    cases hk : db.attempts.get k with
    | none =>
      rw [hk] at ha'
      cases ha'
      exact Or.inr (Or.inl ⟨rfl, rfl⟩)
    | some a =>
      rw [hk] at ha'
      cases ha'
      exact Or.inl ⟨a, rfl, rfl⟩
  | renewed session ttl a _ ha _ hget =>
    rw [hget] at ha'
    cases ha'
    exact Or.inl ⟨a, ha, rfl⟩
  | updated u a hop hkey ha hg hget _ =>
    rw [hget] at ha'
    cases ha'
    cases op with
    | recordAttemptProcess j n t pid at_ identity group deadline =>
      cases hop
      refine Or.inr (Or.inr ⟨?_, t, pid, at_, identity, group, deadline, by rw [← hkey]; rfl, rfl⟩)
      have htrue := (AttemptUpdate.exec_true_iff (Store.recordAttemptProcess now j n t pid at_ identity group deadline) db).2
        ⟨a, by rw [hkey]; exact ha, hg⟩
      simp only [StoreOp.reply, StoreOp.exec, Reply.ofFlag, htrue]
    | finalizeRecovery => cases hop; exact Or.inl ⟨a, ha, rfl⟩
    | finalizeAttemptAndRun => cases hop; exact Or.inl ⟨a, ha, rfl⟩
    | acquireAttemptLease => cases hop; exact Or.inl ⟨a, ha, rfl⟩
    | heartbeatAttempt => cases hop; exact Or.inl ⟨a, ha, rfl⟩
    | recordAttemptExecution => cases hop; exact Or.inl ⟨a, ha, rfl⟩
    | transitionAttempt => cases hop; exact Or.inl ⟨a, ha, rfl⟩
    | claimRecovery => cases hop; exact Or.inl ⟨a, ha, rfl⟩
    | releaseRecoveryClaim => cases hop; exact Or.inl ⟨a, ha, rfl⟩
    | _ => cases hop

/-- What a step can do to the child on record for an Attempt, and to the process columns of its row. -/
inductive RecordChange (s s' : Sys) (k : String × Nat) : Prop
  | same (recorded_eq : s'.recorded k = s.recorded k)
      (rows : ∀ row', s'.db.attempts.get k = some row' →
        (∃ row, s.db.attempts.get k = some row ∧ row'.processPid = row.processPid ∧
          row'.orphanDeadline = row.orphanDeadline) ∨
        (s.db.attempts.get k = none ∧ row'.processPid = none))
  | observed (q : Nat) (c : Child) (was_held : (s.threads q).child = some c) (released : (s'.threads q).child = none)
      (recorded_eq : s'.recorded k = some c)
      (row : ∃ row', s'.db.attempts.get k = some row' ∧ row'.processPid = some c.pid)

theorem recorded_silent (h : Sys.step cfg s a = some s') (hcall : ∀ i fresh locked, a ≠ .call i fresh locked) :
    s'.recorded = s.recorded := by
  cases Sys.step_cases h with
  | call i fresh locked _ _ _ => exact absurd rfl (hcall i fresh locked)
  | advance _ _ _ _ _ _ _ _ happ => exact happ.frame.2.2
  | _ => rfl

theorem record_after (h : Sys.step cfg s a = some s') (k : String × Nat) : RecordChange s s' k := by
  by_cases hcall : ∃ i fresh locked, a = .call i fresh locked
  · obtain ⟨i, fresh, locked, rfl⟩ := hcall
    obtain ⟨op, hc⟩ := Sys.call_some h
    by_cases hobs : op.reply cfg.backend s.clock s.db = .flag true ∧
        ∃ svc spec n t o, s.threads i = .exec svc spec (.observe n t o) ∧ k = (spec.jobId, n)
    · obtain ⟨hreply, svc, spec, n, t, o, hth, rfl⟩ := hobs
      have hop := hc.is_op
      rw [hth] at hop
      cases hop
      refine .observed i o.child (by rw [hth]; rfl) ?_ ?_ ?_
      · rw [hc.threads_eq, Function.update_self, hth]
        rfl
      · rw [hc.recorded_eq, hth, Sys.recordedAfter, if_pos hreply, Function.update_self]
      · obtain ⟨row, hrow, hg⟩ := (AttemptUpdate.exec_true_iff _ _).1 (Reply.flag.inj hreply)
        rw [hc.db_eq]
        exact ⟨_, AttemptUpdate.get_exec_key _ s.db hrow hg, rfl⟩
    · refine .same ?_ (fun row' hrow' => ?_)
      · rw [hc.recorded_eq]
        cases hth : s.threads i with
        | exec svc spec pc =>
          cases pc with
          | observe n t o =>
            simp only [Sys.recordedAfter]
            split
            · rename_i hreply
              have hk : k ≠ (spec.jobId, n) := fun hk => hobs ⟨hreply, svc, spec, n, t, o, hth, hk⟩
              rw [Function.update_of_ne hk]
            · rfl
          | _ => rfl
        | _ => rfl
      · rw [hc.db_eq] at hrow'
        rcases process_after hrow' with hsame | hnew | ⟨hreply, t, pid, at_, identity, group, deadline, rfl, -⟩
        · obtain ⟨row, hrow, hcolumns⟩ := hsame
          exact Or.inl ⟨row, hrow, congrArg ProcessColumns.pid hcolumns, congrArg ProcessColumns.orphanDeadline hcolumns⟩
        · exact Or.inr ⟨hnew.1, congrArg ProcessColumns.pid hnew.2⟩
        · -- only an execution records a process, at its observer
          obtain ⟨svc, spec, pc, hth, hj, hop⟩ := Thread.op_ofExecution hc.is_op rfl
          cases pc with
          | observe n t' o =>
            simp only [ExecPc.op, Option.some.injEq, StoreOp.recordAttemptProcess.injEq] at hop
            exact absurd ⟨hreply, svc, spec, n, t', o, hth, Prod.ext hop.1.symm hop.2.1.symm⟩ hobs
          | _ => cases hop
  · have hdb : s'.db = s.db := by
      rcases Sys.step_db h with hdb | ⟨i, fresh, locked, op, hact, -⟩
      · exact hdb
      · exact absurd ⟨i, fresh, locked, hact⟩ hcall
    refine .same ?_ (fun row' hrow' => ?_)
    · rw [recorded_silent h (fun i fresh locked hact => hcall ⟨i, fresh, locked, hact⟩)]
    · rw [hdb] at hrow'
      exact Or.inl ⟨row', hrow', rfl, rfl⟩

/-! ## The children that are not on record -/

theorem ExecPc.resume_child {svc : Service} {spec : JobSpec} {owner : Option ExecutionOwner} (fresh : String)
    (reply : Reply) {pc : ExecPc} {op : StoreOp} (hop : pc.op svc spec owner = some op) :
    (pc.resume svc spec owner fresh reply).child = none := by
  have hcases := pc.resume_cases svc spec owner fresh reply
  generalize pc.resume svc spec owner fresh reply = pc' at hcases ⊢
  cases hcases with
  | idle _ hsilent => rw [hop] at hsilent; cases hsilent
  | _ => rfl

/-- A child that a thread holds was held before, or its thread has just started it. -/
theorem child_after (h : Sys.step cfg s a = some s') {q : Nat} {c : Child} (hc : (s'.threads q).child = some c) :
    ((s.threads q).child = some c ∧ s.births ≤ s'.births) ∨
    ((∃ k fresh inp, a = .advance q k fresh inp) ∧ c.birth = s.births ∧ s'.births = s.births + 1) := by
  cases thread_after q h with
  | same heq =>
    rw [heq] at hc
    exact Or.inl ⟨hc, (births_after h).1⟩
  | entered th _ _ hentry heq =>
    rw [heq] at hc
    cases th with
    | exec svc spec pc => cases hentry
    | _ => cases hc
  | called fresh locked op _ hcall heq =>
    rw [heq] at hc
    cases hth : s.threads q with
    | exec svc spec pc =>
      have hop := hcall.is_op
      rw [hth] at hop hc
      have hnone := ExecPc.resume_child fresh (op.reply cfg.backend s.clock s.db) hop
      exact absurd (hnone.symm.trans hc) (by simp)
    | _ => rw [hth] at hc; cases hc
  | advanced k fresh inp th eff hact hadv heq =>
    rw [heq] at hc
    subst hact
    cases hth : s.threads q with
    | exec svc spec pc =>
      have hstep := hadv.advance_eq
      rw [hth] at hstep
      obtain ⟨⟨pc', eff'⟩, hx, hx'⟩ := Option.map_eq_some_iff.1 hstep
      cases hx'
      have hle := (births_after h).1
      cases ExecPc.advance_cases hx with
      | begin => cases hc
      | launch n t => cases hc
      | child n t pid group identity =>
        cases hc
        refine Or.inr ⟨⟨k, fresh, inp, rfl⟩, rfl, ?_⟩
        obtain ⟨th', eff', hadv', happ⟩ := Sys.proceed_some h
        have heq := hadv'.advance_eq
        rw [hadv.advance_eq] at heq
        cases heq
        cases Sys.apply_cases happ
        rfl
      | returned n t r => cases hc
      | raised n t e =>
        rcases adapterRaised_cases (cfg.service svc) spec n t e with ⟨et, m, hraised⟩ | ⟨c', hraised, -, -⟩
        · rw [hraised] at hc
          cases hc
        · rw [hraised] at hc
          cases hc
      | observed n t o => exact Or.inl ⟨hc, hle⟩
    | none =>
      have hstep := hadv.advance_eq
      rw [hth] at hstep
      cases hstep
    | _ =>
      have hstep := hadv.advance_eq
      rw [hth] at hstep
      obtain ⟨x, -, hx⟩ := Option.map_eq_some_iff.1 hstep
      cases hx
      cases hc
  | executed i fresh inp th spec svc _ _ _ _ heq _ => rw [heq] at hc; cases hc
  | beat i fresh inp th b run _ _ _ _ heq => rw [heq] at hc; cases hc
  | cancelled svc spec _ heq => rw [heq] at hc; cases hc

end Step

/-! ## What a scan knows -/

/-- What a snapshot says of its last Attempt, as long as the child it was read with is the one on record. -/
structure Sys.Faithful (s : Sys) (x : Snapshot) : Prop where
  there : ∀ a, x.last = some a → (s.db.attempts.get (x.jobId, a.attemptNo)).isSome = true
  pid : ∀ a, x.last = some a → a.processPid = x.child.map (·.pid)
  deadline : ∀ a row, x.last = some a → s.db.attempts.get (x.jobId, a.attemptNo) = some row →
    s.recorded (x.jobId, a.attemptNo) = x.child → row.orphanDeadline = a.orphanDeadline
  born : ∀ c, x.child = some c → c.birth < s.births

/-- The child of the snapshot is dead. -/
def Sys.Gone (s : Sys) (x : Snapshot) : Prop := ∀ c, x.child = some c → ¬ s.alive c

/-- What the scan has found out where it is. -/
def Sys.Sees (s : Sys) : RecoverPc → Prop
  | .gate _ x a           => x.last = some a
  | .lease _ x a          => x.last = some a
  | .claim _ x a _        => x.last = some a
  | .probe _ x a _ pid    => x.last = some a ∧ a.processPid = some pid
  | .inspect _ x a _ _    => x.last = some a
  | .kill _ x a _ _       => x.last = some a ∧ a.orphaned s.clock
  | .witness _ x a _      => x.last = some a ∧ s.Gone x
  | .finalize _ x a _ _ _ => x.last = some a ∧ (s.Gone x ∨ a.orphaned s.clock)
  | _                     => True

section Scan

variable {s s' : Sys} {r : RecoverPc}

theorem Sys.Sees.later (h : s.Sees r) (hclock : s.clock ≤ s'.clock)
    (hgone : ∀ x ∈ r.snapshots, s.Gone x → s'.Gone x) : s'.Sees r := by
  have horphaned : ∀ a : AttemptRow, a.orphaned s.clock → a.orphaned s'.clock := by
    rintro a ⟨d, hd, hle⟩
    exact ⟨d, hd, le_trans hle hclock⟩
  cases r with
  | kill sc x a t pid => exact ⟨h.1, horphaned a h.2⟩
  | witness sc x a t => exact ⟨h.1, hgone x List.mem_cons_self h.2⟩
  | finalize sc x a t et e =>
    refine ⟨h.1, ?_⟩
    rcases h.2 with hg | ho
    · exact Or.inl (hgone x List.mem_cons_self hg)
    · exact Or.inr (horphaned a ho)
  | _ => exact h

theorem Sys.Sees.resume (h : s.Sees r) (hf : ∀ x ∈ r.snapshots, s.Faithful x) (child : Option Child) (reply : Reply) :
    s.Sees (r.resume child reply) := by
  cases r with
  | expired cutoff => simp only [RecoverPc.resume]; split <;> trivial
  | stale cutoff es => simp only [RecoverPc.resume]; split <;> trivial
  | read es ids runs =>
    cases ids with
    | nil => trivial
    | cons i ids => simp only [RecoverPc.resume]; split <;> trivial
  | gate sc x a =>
    simp only [RecoverPc.resume]
    split
    · exact h
    · trivial
  | claim sc x a t =>
    simp only [RecoverPc.resume]
    split
    · split
      · rename_i pid hpid
        exact ⟨h, hpid⟩
      · rename_i hpid
        refine ⟨h, fun c hc => ?_⟩
        have hmap := (hf x List.mem_cons_self).pid a h
        rw [hpid, hc] at hmap
        cases hmap
    · trivial
  | release sc x a t why => cases why <;> trivial
  | witness sc x a t =>
    simp only [RecoverPc.resume]
    split
    · exact ⟨h.1, Or.inl h.2⟩
    · exact ⟨h.1, Or.inl h.2⟩
  | finalize sc x a t et e => simp only [RecoverPc.resume]; split <;> trivial
  | _ => exact h

theorem Sys.Sees.advance {owner : Option ExecutionOwner} {live : String → Bool} {fresh : String} {r' : RecoverPc}
    (h : s.Sees r) (hf : ∀ x ∈ r.snapshots, s.Faithful x)
    (hadv : RecoverPc.Advance owner live s.clock s.observed fresh r r') : s.Sees r' := by
  cases hadv with
  | visited sc x rest hrest =>
    unfold RecoverPc.visit
    split
    · trivial
    · split
      · trivial
      · rename_i a hlast
        split
        · exact hlast
        · exact hlast
  | claim sc x a _ => exact h
  | gone sc x a t pid hnone =>
    refine ⟨h.1, fun c hc halive => ?_⟩
    obtain ⟨p, hp, -⟩ := halive
    have hmap := (hf x List.mem_cons_self).pid a h.1
    rw [h.2, hc] at hmap
    have hpid : pid = c.pid := Option.some.inj hmap
    rw [Sys.observed, hpid, hp] at hnone
    cases hnone
  | there sc x a t pid _ => exact h.1
  | young sc x a t pid _ => trivial
  | terminable sc x a t pid ho _ _ => exact ⟨h, ho⟩
  | unknown sc x a t pid ho => exact ⟨h, Or.inr ho⟩
  | unkillable sc x a t pid => exact ⟨h.1, Or.inr h.2⟩
  | _ => trivial

end Scan

/-- The snapshots of a step: kept, or just read. -/
theorem snapshot_after {cfg : Config} {s s' : Sys} {a : Act} (h : Sys.step cfg s a = some s') {i : Nat} {r' : RecoverPc}
    {x : Snapshot} (hr' : (s'.threads i).recovery = some r') (hx : x ∈ r'.snapshots) :
    (∃ r, (s.threads i).recovery = some r ∧ x ∈ r.snapshots) ∨
    ∃ j v, Store.getRun s.db j = some v ∧ x = ⟨v, s.lastChild (.run (some v))⟩ ∧ s'.db = s.db ∧
      s'.recorded = s.recorded ∧ s'.births = s.births := by
  cases thread_after i h with
  | same heq => rw [heq] at hr'; exact Or.inl ⟨r', hr', hx⟩
  | entered th _ _ hentry heq =>
    rw [heq] at hr'
    obtain ⟨t, rfl⟩ := Thread.isEntry_recovery hentry hr'
    cases hx
  | called fresh locked op hact hc heq =>
    rw [heq] at hr'
    obtain ⟨r, hr, rfl⟩ := Thread.resume_recovery hr'
    obtain ⟨svc, -, hthop⟩ := Thread.recovery_op cfg s locked hr
    have hop := hc.is_op
    rw [hthop] at hop
    rcases RecoverPc.resume_snapshots hx with hx | ⟨es, j, ids, runs, v, rfl, hreply, rfl⟩
    · exact Or.inl ⟨r, hr, hx⟩
    · cases hop
      refine Or.inr ⟨j, v, Reply.run.inj hreply, by rw [hreply], by rw [hc.db_eq]; rfl, ?_, hc.births_eq⟩
      rw [hc.recorded_eq]
      cases hth : s.threads i with
      | exec svc' spec pc => rw [hth] at hr; cases hr
      | _ => rfl
  | advanced k fresh inp th eff _ hadv heq =>
    rw [heq] at hr'
    rcases Thread.advance_recovery hadv.advance_eq hr' with ⟨t, rfl⟩ | ⟨svc, r, -, hr, hstep⟩
    · cases hx
    · exact Or.inl ⟨r, hr, hstep.keeps.1 x hx⟩
  | executed i' fresh inp th spec svc _ _ _ _ heq _ => rw [heq] at hr'; cases hr'
  | beat i' fresh inp th b run _ _ _ _ heq => rw [heq] at hr'; cases hr'
  | cancelled svc spec _ heq => rw [heq] at hr'; cases hr'

/-- The children of the executions are on no record yet, and those on record are what the rows and the scans show. -/
structure OrphanInv (s : Sys) : Prop where
  pids : ∀ k, (s.db.attempts.get k).bind (·.processPid) = (s.recorded k).map (·.pid)
  born : ∀ k c, s.recorded k = some c → c.birth < s.births
  held_born : ∀ q c, (s.threads q).child = some c → c.birth < s.births
  unrecorded : ∀ q c k, (s.threads q).child = some c → s.recorded k ≠ some c
  unread : ∀ q c i r x, (s.threads q).child = some c → (s.threads i).recovery = some r → x ∈ r.snapshots →
    x.child ≠ some c
  apart : ∀ q q' c, (s.threads q).child = some c → (s.threads q').child = some c → q = q'
  faithful : ∀ i r x, (s.threads i).recovery = some r → x ∈ r.snapshots → s.Faithful x
  sees : ∀ i r, (s.threads i).recovery = some r → s.Sees r

theorem orphanInv_init : OrphanInv Sys.init where
  pids _ := rfl
  born _ _ h := by cases h
  held_born _ _ h := by cases h
  unrecorded _ _ _ h := by cases h
  unread _ _ _ _ _ h := by cases h
  apart _ _ _ h := by cases h
  faithful _ _ _ h := by cases h
  sees _ _ h := by cases h

section Inv

variable {cfg : Config} {s s' : Sys} {a : Act}

/-- The last Attempt of a Run that is read is a row of the job. -/
theorem read_last {db : Db} {j : String} {v : RunView} (hv : Store.getRun db j = some v) {a : AttemptRow}
    (ha : v.attempts.getLast? = some a) : a.key = (v.run.jobId, a.attemptNo) ∧ db.attempts.get a.key = some a := by
  obtain ⟨row, hrow, rfl⟩ := Option.map_eq_some_iff.1 hv
  have hjob : row.jobId = j := Table.key_of_get hrow
  have hmem := List.mem_of_getLast? ha
  rw [Store.attemptsOf, List.mem_insertionSort, List.mem_filter, decide_eq_true_eq] at hmem
  refine ⟨?_, db.attempts.get_of_mem hmem.1⟩
  rw [AttemptRow.key, hmem.2, hjob]

/-- A Run that is read shows the row and the child on record. -/
theorem read_faithful (hi : OrphanInv s) {j : String} {v : RunView} (hv : Store.getRun s.db j = some v) :
    s.Faithful ⟨v, s.lastChild (.run (some v))⟩ := by
  have hlast : ∀ a, v.attempts.getLast? = some a → a.key = (v.run.jobId, a.attemptNo) ∧ s.db.attempts.get a.key = some a :=
    fun a ha => read_last hv ha
  obtain ⟨row, hrow, rfl⟩ := Option.map_eq_some_iff.1 hv
  have hchild : ∀ a, (Store.attemptsOf s.db j).getLast? = some a →
      s.lastChild (.run (some ⟨row, (s.db.metrics.get j).map (·.payload), Store.attemptsOf s.db j⟩)) =
        s.recorded a.key := by
    intro a ha
    simp only [Sys.lastChild, ha, Option.bind_some]
  constructor
  · intro a ha
    obtain ⟨hkey, hget⟩ := hlast a ha
    rw [hkey] at hget
    show (s.db.attempts.get (row.jobId, a.attemptNo)).isSome = true
    rw [hget]
    rfl
  · intro a ha
    obtain ⟨-, hget⟩ := hlast a ha
    have hpid : a.processPid = (s.recorded a.key).map (·.pid) := by
      have hpids := hi.pids a.key
      rw [hget] at hpids
      exact hpids
    rw [← hchild a ha] at hpid
    exact hpid
  · intro a row' ha hget' _
    obtain ⟨hkey, hget⟩ := hlast a ha
    have hget'' : s.db.attempts.get (row.jobId, a.attemptNo) = some row' := hget'
    rw [← hkey, hget] at hget''
    cases hget''
    rfl
  · intro c hc
    simp only [Sys.lastChild, Option.bind_eq_some_iff] at hc
    obtain ⟨a, -, hrec⟩ := hc
    exact hi.born a.key c hrec

/-- Whatever a scan has after a step was read faithfully before it. -/
theorem scanned_faithful (hi : OrphanInv s) (h : Sys.step cfg s a = some s') {i : Nat} {r' : RecoverPc} {x : Snapshot}
    (hr' : (s'.threads i).recovery = some r') (hx : x ∈ r'.snapshots) : s.Faithful x := by
  rcases snapshot_after h hr' hx with ⟨r, hr, hx⟩ | ⟨j, v, hv, rfl, -⟩
  · exact hi.faithful i r x hr hx
  · exact read_faithful hi hv

/-- A snapshot stays faithful: a child recorded since is another one than it was read with. -/
theorem faithful_step (hi : OrphanInv s) (h : Sys.step cfg s a = some s') {i : Nat} {r' : RecoverPc} {x : Snapshot}
    (hr' : (s'.threads i).recovery = some r') (hx : x ∈ r'.snapshots) : s'.Faithful x := by
  have hf := scanned_faithful hi h hr' hx
  constructor
  · intro at_ hlast
    obtain ⟨row, hrow⟩ := Option.isSome_iff_exists.1 (hf.there at_ hlast)
    rcases Sys.step_db h with hdb | ⟨q, fresh, locked, op, -, hc⟩
    · rw [hdb, hrow]
      rfl
    · obtain ⟨row', hrow'⟩ := attempt_persists cfg.backend s.clock s.db op hrow
      rw [hc.db_eq, hrow']
      rfl
  · exact hf.pid
  · intro at_ row' hlast hrow' hrec
    cases record_after h (x.jobId, at_.attemptNo) with
    | same hrecorded hrows =>
      rw [hrecorded] at hrec
      rcases hrows row' hrow' with ⟨row, hrow, -, hdeadline⟩ | ⟨hnone, -⟩
      · rw [hdeadline]
        exact hf.deadline at_ row hlast hrow hrec
      · have hthere := hf.there at_ hlast
        rw [hnone] at hthere
        cases hthere
    | observed q c hheld _ hrecorded _ =>
      exfalso
      rw [hrecorded] at hrec
      rcases snapshot_after h hr' hx with ⟨r, hr, hx⟩ | ⟨j, v, hv, -, -, hsame, -⟩
      · exact hi.unread q c i r x hheld hr hx hrec.symm
      · rw [hsame] at hrecorded
        exact hi.unrecorded q c _ hheld hrecorded
  · intro c hc
    exact lt_of_lt_of_le (hf.born c hc) (births_after h).1

theorem sees_step (hi : OrphanInv s) (h : Sys.step cfg s a = some s') {i : Nat} {r' : RecoverPc}
    (hr' : (s'.threads i).recovery = some r') : s'.Sees r' := by
  -- a dead child of a snapshot stays dead
  have hgone : ∀ x ∈ r'.snapshots, s.Gone x → s'.Gone x := fun x hx hg c hc =>
    dead_after h ((scanned_faithful hi h hr' hx).born c hc) (hg c hc)
  have hclock := Sys.step_clock h
  cases thread_after i h with
  | same heq =>
    rw [heq] at hr'
    exact (hi.sees i r' hr').later hclock hgone
  | entered th _ _ hentry heq =>
    rw [heq] at hr'
    obtain ⟨t, rfl⟩ := Thread.isEntry_recovery hentry hr'
    trivial
  | called fresh locked op _ hc heq =>
    rw [heq] at hr'
    obtain ⟨r, hr, rfl⟩ := Thread.resume_recovery hr'
    exact ((hi.sees i r hr).resume (fun x hx => hi.faithful i r x hr hx) _ _).later hclock hgone
  | advanced k fresh inp th eff _ hadv heq =>
    rw [heq] at hr'
    rcases Thread.advance_recovery hadv.advance_eq hr' with ⟨t, rfl⟩ | ⟨svc, r, -, hr, hstep⟩
    · trivial
    · exact ((hi.sees i r hr).advance (fun x hx => hi.faithful i r x hr hx) hstep).later hclock hgone
  | executed i' fresh inp th spec svc _ _ _ _ heq _ => rw [heq] at hr'; cases hr'
  | beat i' fresh inp th b run _ _ _ _ heq => rw [heq] at hr'; cases hr'
  | cancelled svc spec _ heq => rw [heq] at hr'; cases hr'

theorem orphanInv_step (hi : OrphanInv s) (h : Sys.step cfg s a = some s') : OrphanInv s' where
  pids k := by
    cases record_after h k with
    | observed q c _ _ hrecorded hrow =>
      obtain ⟨row', hrow', hpid⟩ := hrow
      rw [hrow', hrecorded]
      exact hpid
    | same hrecorded hrows =>
      rw [hrecorded, ← hi.pids k]
      cases hget : s'.db.attempts.get k with
      | some row' =>
        rcases hrows row' hget with ⟨row, hrow, hpid, -⟩ | ⟨hnone, hpid⟩
        · rw [hrow]
          exact hpid
        · rw [hnone]
          exact hpid
      | none =>
        cases hold : s.db.attempts.get k with
        | none => rfl
        | some row =>
          exfalso
          rcases Sys.step_db h with hdb | ⟨q, fresh, locked, op, -, hc⟩
          · rw [hdb, hold] at hget
            cases hget
          · obtain ⟨row', hrow'⟩ := attempt_persists cfg.backend s.clock s.db op hold
            rw [hc.db_eq, hrow'] at hget
            cases hget
  born k c hrec := by
    refine lt_of_lt_of_le ?_ (births_after h).1
    cases record_after h k with
    | same hrecorded _ =>
      rw [hrecorded] at hrec
      exact hi.born k c hrec
    | observed q c' hheld _ hrecorded _ =>
      rw [hrecorded] at hrec
      cases hrec
      exact hi.held_born q c hheld
  held_born q c hc := by
    rcases child_after h hc with ⟨hold, hle⟩ | ⟨-, hbirth, hnext⟩
    · exact lt_of_lt_of_le (hi.held_born q c hold) hle
    · omega
  unrecorded q c k hc hrec := by
    cases record_after h k with
    | same hrecorded _ =>
      rw [hrecorded] at hrec
      rcases child_after h hc with ⟨hold, -⟩ | ⟨-, hbirth, -⟩
      · exact hi.unrecorded q c k hold hrec
      · have := hi.born k c hrec
        omega
    | observed q' c' hheld hreleased hrecorded _ =>
      rw [hrecorded] at hrec
      cases hrec
      rcases child_after h hc with ⟨hold, -⟩ | ⟨-, hbirth, -⟩
      · have hsame := hi.apart q q' c hold hheld
        rw [← hsame, hc] at hreleased
        cases hreleased
      · have := hi.held_born q' c hheld
        omega
  unread q c i r x hc hr hx hchild := by
    rcases child_after h hc with ⟨hold, -⟩ | ⟨-, hbirth, -⟩
    · rcases snapshot_after h hr hx with ⟨r₀, hr₀, hx₀⟩ | ⟨j, v, -, rfl, -⟩
      · exact hi.unread q c i r₀ x hold hr₀ hx₀ hchild
      · simp only [Sys.lastChild, Option.bind_eq_some_iff] at hchild
        obtain ⟨a, -, hrec⟩ := hchild
        exact hi.unrecorded q c a.key hold hrec
    · have := (scanned_faithful hi h hr hx).born c hchild
      omega
  apart q q' c hc hc' := by
    rcases child_after h hc with ⟨hold, -⟩ | ⟨⟨k, fresh, inp, hact⟩, hbirth, -⟩
    · rcases child_after h hc' with ⟨hold', -⟩ | ⟨-, hbirth, -⟩
      · exact hi.apart q q' c hold hold'
      · have := hi.held_born q c hold
        omega
    · rcases child_after h hc' with ⟨hold', -⟩ | ⟨⟨k', fresh', inp', hact'⟩, -, -⟩
      · have := hi.held_born q' c hold'
        omega
      · rw [hact] at hact'
        cases hact'
        rfl
  faithful _ _ _ hr hx := faithful_step hi h hr hx
  sees _ _ hr := sees_step hi h hr

end Inv

/-! ## Finalization -/

/-- Where the step is an accepted `finalize_recovery` of an Attempt without a host session: the row records no live child
whose orphan deadline is in the future. -/
def SparesChild (cfg : Config) (s : Sys) (act : Act) : Prop :=
  ∀ i fresh locked j n t et e, act = .call i fresh locked →
    (s.threads i).op cfg s locked = some (.finalizeRecovery j n t et e) →
    (StoreOp.finalizeRecovery j n t et e).reply cfg.backend s.clock s.db = .flag true →
    ∀ row c d, s.db.attempts.get (j, n) = some row → row.executionHostSession = none → s.recorded (j, n) = some c →
      s.alive c → row.orphanDeadline = some d → d ≤ s.clock

/-- Where the step is an accepted `finalize_recovery`: the child on record is the one the scan read with the Run, so no
`record_attempt_process` of the Attempt was accepted since. -/
def ChildAsRead (cfg : Config) (s : Sys) (act : Act) : Prop :=
  ∀ i fresh locked sc x a t et e, act = .call i fresh locked → (s.threads i).recovery = some (.finalize sc x a t et e) →
    (StoreOp.finalizeRecovery x.jobId a.attemptNo t et e).reply cfg.backend s.clock s.db = .flag true →
    s.recorded (x.jobId, a.attemptNo) = x.child

/-- Only a scan finalizes a recovery. -/
theorem Thread.op_finalizeRecovery {cfg : Config} {s : Sys} {locked : List String} {th : Thread} {j t et e : String}
    {n : Nat}
    (h : th.op cfg s locked = some (.finalizeRecovery j n t et e)) :
    ∃ sc x a, th.recovery = some (.finalize sc x a t et e) ∧ x.jobId = j ∧ a.attemptNo = n := by
  cases Thread.op_cases h with
  | scan svc r _ _ hscan hr =>
    cases RecoverPc.op_cases hr with
    | finalize sc x a => exact ⟨sc, x, a, hscan, rfl, rfl⟩
  | submit svc spec pc _ hpc => cases pc <;> cases hpc
  | exec svc spec pc _ hpc => cases pc <;> cases hpc
  | beat b pc _ hpc => cases pc <;> cases hpc
  | supervisor sup pc _ hpc => cases pc <;> cases hpc

/-- **A finalization that knows the child on record spares it**: the child was found dead, or its deadline over. -/
theorem sparesChild_of_asRead {cfg : Config} {s : Sys} {act : Act} (hi : OrphanInv s) (hread : ChildAsRead cfg s act) :
    SparesChild cfg s act := by
  intro i fresh locked j n t et e hact hop hreply row c d hrow _ hrec halive hd
  obtain ⟨sc, x, a, hr, rfl, rfl⟩ := Thread.op_finalizeRecovery hop
  have hsame := hread i fresh locked sc x a t et e hact hr hreply
  obtain ⟨hlast, hsees⟩ : x.last = some a ∧ (s.Gone x ∨ a.orphaned s.clock) := hi.sees i _ hr
  have hf := hi.faithful i _ x hr List.mem_cons_self
  rcases hsees with hgone | ⟨d', hd', hle⟩
  · exact absurd halive (hgone c (by rw [← hsame, hrec]))
  · have hdeadline := hf.deadline a row hlast hrow hsame
    rw [hd, hd'] at hdeadline
    rw [Option.some.inj hdeadline]
    exact hle

/-- **In a run whose accepted finalizations all know the child on record, recovery closes no Run over a live recorded
child.** -/
theorem recovery_spares_children (cfg : Config) (acts : List Act)
    (h : Trace.Every (Sys.step cfg) (ChildAsRead cfg) Sys.init acts) :
    Trace.Every (Sys.step cfg) (SparesChild cfg) Sys.init acts := by
  refine Trace.every_iff_forall_split.2 (fun pre act post m hs hm => ?_)
  have hinv : OrphanInv m := Trace.run_preserves (fun s a s' hi hstep => orphanInv_step hi hstep) orphanInv_init hm
  exact sparesChild_of_asRead hinv (Trace.every_iff_forall_split.1 h pre act post m hs hm)

/-- `ChildAsRead` as a test. -/
def childAsRead (s : Sys) : Act → Bool
  | .call i _ _ =>
    match (s.threads i).recovery with
    | some (.finalize _ x a _ _ _) => decide (s.recorded (x.jobId, a.attemptNo) = x.child)
    | _                            => true
  | _ => true

theorem childAsRead_of_test {cfg : Config} {s : Sys} {act : Act} (h : childAsRead s act = true) :
    ChildAsRead cfg s act := by
  rintro i fresh locked sc x a t et e rfl hr -
  simp only [childAsRead, hr, decide_eq_true_eq] at h
  exact h

/-- The worker records its child and dies with it; the scan probes the child and closes the Run. -/
def deadChildActs : List Act :=
  claimActs ++
  [.call 2 "c3" [], .call 2 "c4" [], .advance 2 4 "c5" .go, .advance 2 0 "c6" (.child 7 7 (some "start")),
   .advance 2 0 "c7" (.ps true), .call 2 "c8" [], .exit 7, .tick 40, .start 3 (.recover 2 (.enter 0)),
   .advance 3 0 "d1" .go, .call 3 "d2" [], .call 3 "d3" [], .call 3 "d4" [], .advance 3 0 "d5" .go,
   .advance 3 0 "d6" .go, .advance 3 0 "d7" .go, .call 3 "d8" [], .advance 3 0 "d9" .go, .call 3 "d10" [],
   .call 3 "d11" []]

theorem deadChild_spared : Trace.Every (Sys.step workerConfig) (SparesChild workerConfig) Sys.init deadChildActs := by
  have htest : Trace.Every (Sys.step workerConfig) (fun s act => childAsRead s act = true) Sys.init deadChildActs := by
    decide +kernel
  exact recovery_spares_children workerConfig deadChildActs (htest.mono (fun s act h => childAsRead_of_test h))

/-- The scan reads the Run while the worker has a child it has not recorded; the worker records it before the claim. -/
def lateChildActs : List Act :=
  claimActs ++
  [.call 2 "c3" [], .call 2 "c4" [], .advance 2 4 "c5" .go, .advance 2 0 "c6" (.child 7 7 (some "start")), .tick 40,
   .start 3 (.recover 2 (.enter 0)), .advance 3 0 "d1" .go, .call 3 "d2" [], .call 3 "d3" [], .call 3 "d4" [],
   .advance 3 0 "d5" .go, .advance 3 0 "d6" .go, .advance 2 0 "c7" (.ps true), .call 2 "c8" [], .advance 3 0 "d7" .go,
   .call 3 "d8" [], .call 3 "d9" []]

/-- `finalize_recovery` as that scan calls it. -/
def lateFinalize : StoreOp :=
  .finalizeRecovery "job" 1 "d7" "worker_unavailable" "recovery: stale RUNNING record without live worker"

/-- **The Run is closed over the live child.** -/
theorem recovery_closes_over_live_child :
    ¬ Trace.Every (Sys.step workerConfig) (SparesChild workerConfig) Sys.init (lateChildActs ++ [.call 3 "d10" []]) := by
  intro h
  have hrun : (Trace.run (Sys.step workerConfig) Sys.init lateChildActs).map (fun s =>
      decide ((s.threads 3).op workerConfig s [] = some lateFinalize) &&
        decide (lateFinalize.reply .postgres s.clock s.db = .flag true) &&
        decide (s.recorded ("job", 1) = some ⟨7, 0⟩) && decide (s.processes 7 = some ⟨0, 7, some "start"⟩) &&
        (s.db.attempts.get ("job", 1)).any (fun a =>
          decide (a.executionHostSession = none) && decide (a.orphanDeadline = some 100)) &&
        decide (s.clock = 40)) = some true := by
    decide +kernel
  obtain ⟨s, hs, hfacts⟩ := Option.map_eq_some_iff.1 hrun
  simp only [Bool.and_eq_true, decide_eq_true_eq, Option.any_eq_true] at hfacts
  obtain ⟨⟨⟨⟨⟨hop, hreply⟩, hrec⟩, hproc⟩, row, hget, hsession, hdeadline⟩, hclock⟩ := hfacts
  have hspares := Trace.every_iff_forall_split.1 h lateChildActs (.call 3 "d10" []) [] s (by simp) hs
  have hle := hspares 3 "d10" [] "job" 1 "d7" _ _ rfl hop hreply row ⟨7, 0⟩ 100 hget hsession hrec
    ⟨_, hproc, rfl⟩ hdeadline
  rw [hclock] at hle
  exact absurd hle (by norm_num)

end EdaLab
