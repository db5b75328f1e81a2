import EdaLab.Holder
/-!
# Claims — a Run is handed out once

A Run that a party holds, or that a scan has read, has left the queue, but for the Runs a local service submitted and
executes itself (`QueueInv`).  Since nothing puts a Run back, `claim_next_run` returns each Run at most once; and where no
Run is both handed to a worker and dispatched by its submitter, a Run has one holder (`Sole`).
-/
namespace EdaLab

open Relational

theorem PostgresStore.nextQueued_some {db : Db} {locked : List String} {r : RunRow}
    (h : PostgresStore.nextQueued db locked = some r) : db.runs.get r.jobId = some r ∧ r.status = .queued := by
  have hm := List.argmin_mem h
  rw [List.mem_filter] at hm
  simp only [Bool.and_eq_true, decide_eq_true_eq] at hm
  exact ⟨db.runs.get_of_mem hm.1, hm.2.1⟩

/-- A `claim_next_run` that answers found a `QUEUED` Run and made it `RUNNING`, or found none. -/
theorem claimNextRun_payload {b : Backend} {now : Time} {db : Db} {locked : List String} {p : Option JobSpec}
    (h : (StoreOp.claimNextRun locked).reply b now db = .payload p) :
    b = .postgres ∧
    ((PostgresStore.nextQueued db locked = none ∧ p = none) ∨
     ∃ r, PostgresStore.nextQueued db locked = some r ∧ p = r.specPayload ∧
      ((StoreOp.claimNextRun locked).after b now db).runs.get r.jobId =
        some (({ status := some .running } : RunFields).write now r)) := by
  cases b with
  | sqlite => cases h
  | postgres =>
    refine ⟨rfl, ?_⟩
    simp only [StoreOp.reply, StoreOp.exec, PostgresStore.claimNextRun] at h
    simp only [StoreOp.after, StoreOp.exec, PostgresStore.claimNextRun]
    split at h
    · rename_i hn
      cases h
      exact Or.inl ⟨hn, rfl⟩
    · rename_i r hr
      cases h
      refine Or.inr ⟨r, hr, rfl, ?_⟩
      simp only [Db.get_updateRuns, (PostgresStore.nextQueued_some hr).1, Option.map_some, and_self, if_true]

/-- A reply with a payload is a claim's. -/
theorem StoreOp.payload_isClaim {b : Backend} {now : Time} {db : Db} {op : StoreOp} {p : Option JobSpec}
    (h : op.reply b now db = .payload p) : ∃ locked, op = .claimNextRun locked := by
  cases op with
  | claimNextRun locked => exact ⟨locked, rfl⟩
  | createRun j d f g hs m q =>
    simp only [StoreOp.reply, StoreOp.exec, Reply.ofCreate] at h
    split at h <;> cases h
  | recordAttempt j n st et e ap rc =>
    simp only [StoreOp.reply, StoreOp.exec, Reply.ofExcept] at h
    split at h <;> cases h
  | startHostSession owner ttl =>
    simp only [StoreOp.reply, StoreOp.exec, Reply.ofExcept] at h
    split at h <;> cases h
  | releaseTerminalExecutionRequests => cases b <;> cases h
  | countActiveExecutionRequests hostId => cases b <;> cases h
  | _ => cases h

/-- A `create_run` that answers `True` inserted the Run. -/
theorem createRun_true {b : Backend} {now : Time} {db : Db} {j d f g : String} {h : Option String} {m : Option Nat}
    {p : Option JobSpec} (hr : (StoreOp.createRun j d f g h m p).reply b now db = .flag true) :
    db.runs.get j = none ∧ ∃ r, ((StoreOp.createRun j d f g h m p).after b now db).runs.get j = some r := by
  have hins : (Store.insertRun db (Store.newRun now j d f g h (b.payload p))).2 = true →
      db.runs.get j = none ∧
      ∃ r, (Store.insertRun db (Store.newRun now j d f g h (b.payload p))).1.runs.get j = some r := by
    intro htrue
    unfold Store.insertRun at htrue ⊢
    cases hi : db.runs.insertNew (Store.newRun now j d f g h (b.payload p)) with
    | none => rw [hi] at htrue; cases htrue
    | some t =>
      have hget : t.get j = some (Store.newRun now j d f g h (b.payload p)) := by
        rw [Table.get_insertNew hi]
        exact if_pos rfl
      exact ⟨Table.get_key_of_insertNew hi, _, hget⟩
  simp only [StoreOp.reply, StoreOp.after, StoreOp.exec, Reply.ofCreate, Store.createRun] at hr ⊢
  cases m with
  | none => exact hins (by simpa using hr)
  | some budget =>
    by_cases hold : (db.runs.get j).isSome
    · simp [hold] at hr
    · by_cases hfull : budget ≤ Store.inFlight db
      · simp [hold, hfull] at hr
      · simp only [hold, hfull, if_false] at hr ⊢
        exact hins (by simpa using hr)

/-- The parties' knowledge of the queue. -/
structure QueueInv (cfg : Config) (s : Sys) : Prop where
  wf : ∀ q, (s.threads q).Wf cfg
  specs : s.db.specsMatch
  held : ∀ q j, (s.threads q).holds = some j → ∃ r, s.db.runs.get j = some r ∧
    (r.status = .queued → (∃ svc, (s.threads q).service = some svc ∧ (cfg.service svc).executionMode = .local) ∧
      j ∈ s.history.kept)
  scanned : ∀ q r, (s.threads q).recovery = some r →
    (∀ j ∈ r.ids, s.db.moved j) ∧ ∀ x ∈ r.snapshots, s.db.moved x.jobId
  claimed : ∀ j ∈ s.history.claims, s.db.moved j

theorem queueInv_init (cfg : Config) : QueueInv cfg Sys.init where
  wf _ := trivial
  specs j r spec hr := by cases hr
  held q j h := by cases h
  scanned q r h := by cases h
  claimed j h := by cases h

section Step

variable {cfg : Config} {s s' : Sys} {a : Act}

theorem QueueInv.call_wf (hi : QueueInv cfg s) {i : Nat} {fresh : String} {locked : List String} {op : StoreOp}
    (hc : Sys.Called cfg s i fresh locked op s') : op.Wf := (hi.wf i).op_wf hc.is_op

theorem moved_step (hi : QueueInv cfg s) (h : Sys.step cfg s a = some s') {j : String} (hm : s.db.moved j) :
    s'.db.moved j := by
  rcases Sys.step_db h with hdb | ⟨i, fresh, locked, op, -, hc⟩
  · rw [hdb]; exact hm
  · rw [hc.db_eq]
    exact moved_after _ _ (hi.call_wf hc) hm

/-- A Run stays, and is queued afterwards only if it was. -/
theorem run_persists (hi : QueueInv cfg s) (h : Sys.step cfg s a = some s') {j : String} {r : RunRow}
    (hr : s.db.runs.get j = some r) :
    ∃ r', s'.db.runs.get j = some r' ∧ (r'.status = .queued → r.status = .queued) := by
  by_cases hq : r.status = .queued
  · rcases Sys.step_db h with hdb | ⟨i, fresh, locked, op, -, hc⟩
    · exact ⟨r, by rw [hdb, hr], fun _ => hq⟩
    · rw [hc.db_eq]
      cases runs_after cfg.backend s.clock s.db op j with
      | same hsame => exact ⟨r, by rw [hsame, hr], fun _ => hq⟩
      | created _ _ _ _ _ _ _ _ hget _ => exact ⟨_, hget, fun _ => hq⟩
      | updated _ _ _ _ hget => exact ⟨_, hget, fun _ => hq⟩
      | claimed _ _ _ _ _ _ hget _ => exact ⟨_, hget, fun _ => hq⟩
      | closed _ _ _ _ _ _ _ hget _ => exact ⟨_, hget, fun _ => hq⟩
  · obtain ⟨r', hr', hq'⟩ := moved_step hi h ⟨r, hr, hq⟩
    exact ⟨r', hr', fun hqueued => absurd hqueued hq'⟩

/-- How a thread comes to hold a job. -/
inductive HoldChange (cfg : Config) (s : Sys) (a : Act) (s' : Sys) (q : Nat) (j : String) : Prop
  | kept (held : (s.threads q).holds = some j) (service_eq : (s'.threads q).service = (s.threads q).service)
  | created (svc : Nat) (is_act : ∃ fresh locked, a = .call q fresh locked) (service_eq : (s'.threads q).service = some svc)
      (is_local : (cfg.service svc).executionMode = .local) (get_before : s.db.runs.get j = none)
      (get_after : ∃ r, s'.db.runs.get j = some r) (kept_after : j ∈ s'.history.kept)
  | claimed (r : RunRow) (is_act : ∃ fresh locked, a = .call q fresh locked) (get_before : s.db.runs.get j = some r)
      (was_queued : r.status = .queued)
      (get_after : ∃ r', s'.db.runs.get j = some r' ∧ r'.status = .running)
      (claims_eq : s'.history.claims = s.history.claims ++ [j])
  | handed (i : Nat) (is_act : ∃ fresh inp, a = .advance i q fresh inp) (held : (s.threads i).holds = some j)
      (released : (s'.threads i).holds = none)
      (service_eq : (s'.threads q).service = (s.threads i).service)

theorem hold_after (hi : QueueInv cfg s) (h : Sys.step cfg s a = some s') {q : Nat} {j : String}
    (hj : (s'.threads q).holds = some j) : HoldChange cfg s a s' q j := by
  cases thread_after q h with
  | same heq =>
    rw [heq] at hj
    exact .kept hj (by rw [heq])
  | entered th _ _ hentry heq =>
    rw [heq, Thread.isEntry_holds hentry] at hj
    cases hj
  | called fresh locked op hact hc heq =>
    have hserv : (s'.threads q).service = (s.threads q).service := by rw [heq, Thread.resume_service]
    rw [heq] at hj
    rcases Thread.resume_holds hj with hheld | ⟨svc, spec, hth, hrep, hlocal, rfl⟩ | ⟨hclaim, spec, hrep, rfl⟩
    · exact .kept hheld hserv
    · have hop := hc.is_op
      rw [hth] at hop
      cases hop
      obtain ⟨hnone, hsome⟩ := createRun_true hrep
      have hkept : s'.history.kept = s.history.kept ++ [spec.jobId] := by
        rw [hc.history_eq, hth, hrep, Sys.historyAfter, if_pos hlocal]
      exact .created svc ⟨fresh, locked, hact⟩ (by rw [hserv, hth]; rfl) hlocal hnone (by rw [hc.db_eq]; exact hsome)
        (by rw [hkept]; exact List.mem_append_right _ List.mem_cons_self)
    · have hop := hc.is_op
      rw [Thread.isClaim_op cfg s locked hclaim] at hop
      cases hop
      obtain ⟨-, ⟨-, hp⟩ | ⟨r, hnext, hp, hget⟩⟩ := claimNextRun_payload hrep
      · cases hp
      · obtain ⟨hr, hq⟩ := PostgresStore.nextQueued_some hnext
        have hjob := hi.specs _ _ _ hr hp.symm
        have hhist : s'.history.claims = s.history.claims ++ [spec.jobId] := by
          rw [hc.history_eq, hrep, Sys.historyAfter_payload, hnext, hjob]
          rfl
        rw [hjob] at hhist ⊢
        exact .claimed r ⟨fresh, locked, hact⟩ hr hq ⟨_, by rw [hc.db_eq]; exact hget, rfl⟩ hhist
  | advanced k fresh inp th eff _ hadv heq =>
    rw [heq] at hj
    exact .kept (Thread.advance_holds hadv.advance_eq hj) (by rw [heq, Thread.advance_service hadv.advance_eq])
  | executed i fresh inp th spec svc hact hadv hserv _ heq hparent =>
    rw [heq] at hj
    cases hj
    obtain ⟨hheld, hreleased⟩ := Thread.advance_execute hadv.advance_eq
    refine .handed i ⟨fresh, inp, hact⟩ hheld (by rw [hparent, hreleased]) ?_
    rw [heq, ← Thread.advance_service hadv.advance_eq, hserv]
    rfl
  | beat i fresh inp th b run _ _ _ _ heq => rw [heq] at hj; cases hj
  | cancelled svc spec hpend heq =>
    rw [heq] at hj
    exact .kept (by rw [hpend]; exact hj) (by rw [heq, hpend]; rfl)

/-- What a scan reads are Runs that have left the queue. -/
theorem scanned_step (hi : QueueInv cfg s) (h : Sys.step cfg s a = some s') {q : Nat} {r' : RecoverPc}
    (hr' : (s'.threads q).recovery = some r') :
    (∀ j ∈ r'.ids, s'.db.moved j) ∧ ∀ x ∈ r'.snapshots, s'.db.moved x.jobId := by
  have hmoved : ∀ j, s.db.moved j → s'.db.moved j := fun j hm => moved_step hi h hm
  cases thread_after q h with
  | same heq =>
    rw [heq] at hr'
    obtain ⟨hids, hsnaps⟩ := hi.scanned q r' hr'
    exact ⟨fun j hj => hmoved j (hids j hj), fun x hx => hmoved _ (hsnaps x hx)⟩
  | entered th _ _ hentry heq =>
    rw [heq] at hr'
    obtain ⟨staleAfter, rfl⟩ := Thread.isEntry_recovery hentry hr'
    exact ⟨(fun j hj => by cases hj), (fun x hx => by cases hx)⟩
  | called fresh locked op _ hc heq =>
    rw [heq] at hr'
    obtain ⟨r, hr, rfl⟩ := Thread.resume_recovery hr'
    obtain ⟨hids, hsnaps⟩ := hi.scanned q r hr
    obtain ⟨svc, -, hthop⟩ := Thread.recovery_op cfg s locked hr
    have hop := hc.is_op
    rw [hthop] at hop
    refine ⟨fun j hj => hmoved j ?_, fun x hx => hmoved _ ?_⟩
    · rcases RecoverPc.resume_ids hj with hj | ⟨cutoff, es, js, rfl, hrep, hj⟩
      · exact hids j hj
      · cases hop
        cases hrep
        simp only [Store.staleRunning, List.mem_map, List.mem_filter, Bool.and_eq_true, decide_eq_true_eq] at hj
        obtain ⟨row, ⟨hmem, hrun, -⟩, rfl⟩ := hj
        exact ⟨row, s.db.runs.get_of_mem hmem, by rw [hrun]; decide⟩
    · rcases RecoverPc.resume_snapshots hx with hx | ⟨es, j, ids, runs, v, rfl, hrep, rfl⟩
      · exact hsnaps x hx
      · cases hop
        simp only [StoreOp.reply, StoreOp.exec, Reply.run.injEq] at hrep
        obtain ⟨row, hrow, rfl⟩ := Option.map_eq_some_iff.1 hrep
        show s.db.moved row.jobId
        rw [Table.key_of_get hrow]
        exact hids j (List.mem_cons_self)
  | advanced k fresh inp th eff _ hadv heq =>
    rw [heq] at hr'
    rcases Thread.advance_recovery hadv.advance_eq hr' with ⟨staleAfter, rfl⟩ | ⟨svc, r, -, hr, hstep⟩
    · exact ⟨(fun j hj => by cases hj), (fun x hx => by cases hx)⟩
    · obtain ⟨hkeep, hnil⟩ := hstep.keeps
      rw [hnil]
      exact ⟨(fun j hj => by cases hj), fun x hx => hmoved _ ((hi.scanned q r hr).2 x (hkeep x hx))⟩
  | executed i fresh inp th spec svc _ _ _ _ heq _ => rw [heq] at hr'; cases hr'
  | beat i fresh inp th b run _ _ _ _ heq => rw [heq] at hr'; cases hr'
  | cancelled svc spec _ heq => rw [heq] at hr'; cases hr'

/-- What a step adds to the claims: a Run that was queued and no longer is. -/
theorem claims_after (h : Sys.step cfg s a = some s') :
    s'.history.claims = s.history.claims ∨
    ∃ j r, s.db.runs.get j = some r ∧ r.status = .queued ∧ s'.db.moved j ∧
      s'.history.claims = s.history.claims ++ [j] := by
  cases history_after h with
  | same heq => exact Or.inl (by rw [heq])
  | kept _ _ _ _ _ heq => exact Or.inl (by rw [heq])
  | requested _ _ _ _ _ _ _ _ _ heq => exact Or.inl (by rw [heq])
  | launched _ _ _ _ _ _ _ _ _ _ _ heq => exact Or.inl (by rw [heq])
  | claimed i fresh locked op p _ hc hrep heq =>
    obtain ⟨l, rfl⟩ := StoreOp.payload_isClaim hrep
    obtain ⟨-, rfl⟩ := Thread.op_claim hc.is_op
    obtain ⟨-, ⟨hnext, -⟩ | ⟨r, hnext, -, hget⟩⟩ := claimNextRun_payload hrep
    · exact Or.inl (by rw [heq, hnext]; simp)
    · obtain ⟨hr, hq⟩ := PostgresStore.nextQueued_some hnext
      refine Or.inr ⟨r.jobId, r, hr, hq, ⟨_, by rw [hc.db_eq]; exact hget, ?_⟩, by rw [heq, hnext]; rfl⟩
      intro hqueued
      cases hqueued

theorem kept_after (h : Sys.step cfg s a = some s') {j : String} (hj : j ∈ s.history.kept) : j ∈ s'.history.kept := by
  cases history_after h with
  | same heq => rw [heq]; exact hj
  | kept _ _ _ _ _ heq => rw [heq]; exact List.mem_append_left _ hj
  | claimed _ _ _ _ _ _ _ _ heq => rw [heq]; exact hj
  | requested _ _ _ _ _ _ _ _ _ heq => rw [heq]; exact hj
  | launched _ _ _ _ _ _ _ _ _ _ _ heq => rw [heq]; exact hj

/-- Where no service is local, no Run is kept. -/
theorem kept_nil (hmode : ∀ svc, (cfg.service svc).executionMode ≠ .local) (h : Sys.step cfg s a = some s')
    (hs : s.history.kept = []) : s'.history.kept = [] := by
  cases history_after h with
  | same heq => rw [heq, hs]
  | kept _ svc _ _ hlocal _ => exact absurd hlocal (hmode svc)
  | claimed _ _ _ _ _ _ _ _ heq => rw [heq, hs]
  | requested _ _ _ _ _ _ _ _ _ heq => rw [heq, hs]
  | launched _ _ _ _ _ _ _ _ _ _ _ heq => rw [heq, hs]

/-- **One step keeps the invariant.** -/
theorem queueInv_step (hi : QueueInv cfg s) (h : Sys.step cfg s a = some s') : QueueInv cfg s' where
  wf := threads_wf_step hi.wf h
  specs := by
    rcases Sys.step_db h with hdb | ⟨i, fresh, locked, op, -, hc⟩
    · rw [hdb]; exact hi.specs
    · rw [hc.db_eq]
      exact specsMatch_after _ _ (hi.call_wf hc) hi.specs
  held := by
    intro q j hj
    cases hold_after hi h hj with
    | kept hheld hserv =>
      obtain ⟨r, hr, hq⟩ := hi.held q j hheld
      obtain ⟨r', hr', hq'⟩ := run_persists hi h hr
      refine ⟨r', hr', fun hqueued => ?_⟩
      obtain ⟨hlocal, hkept⟩ := hq (hq' hqueued)
      exact ⟨by rw [hserv]; exact hlocal, kept_after h hkept⟩
    | created svc _ hserv hlocal _ hsome hkept =>
      obtain ⟨r, hr⟩ := hsome
      exact ⟨r, hr, fun _ => ⟨⟨svc, hserv, hlocal⟩, hkept⟩⟩
    | claimed r _ _ _ hafter _ =>
      obtain ⟨r', hr', hrun⟩ := hafter
      exact ⟨r', hr', fun hqueued => by rw [hrun] at hqueued; cases hqueued⟩
    | handed i _ hheld _ hserv =>
      obtain ⟨r, hr, hq⟩ := hi.held i j hheld
      obtain ⟨r', hr', hq'⟩ := run_persists hi h hr
      refine ⟨r', hr', fun hqueued => ?_⟩
      obtain ⟨hlocal, hkept⟩ := hq (hq' hqueued)
      exact ⟨by rw [hserv]; exact hlocal, kept_after h hkept⟩
  scanned q r' hr' := scanned_step hi h hr'
  claimed := by
    intro j hj
    rcases claims_after h with heq | ⟨i, r, _, _, hmoved, heq⟩
    · rw [heq] at hj
      exact moved_step hi h (hi.claimed j hj)
    · rw [heq] at hj
      rcases List.mem_append.1 hj with hj | hj
      · exact moved_step hi h (hi.claimed j hj)
      · rw [List.mem_singleton.1 hj]
        exact hmoved

theorem queueInv_run {acts : List Act} (hi : QueueInv cfg s) (h : Trace.run (Sys.step cfg) s acts = some s') :
    QueueInv cfg s' :=
  Trace.run_preserves (fun _ _ _ hs hstep => queueInv_step hs hstep) hi h

/-! ## Once -/

/-- **A claim appends a Run that is not among the claims.** -/
theorem claims_nodup_step (hi : QueueInv cfg s) (hn : s.history.claims.Nodup) (h : Sys.step cfg s a = some s') :
    s'.history.claims.Nodup := by
  rcases claims_after h with heq | ⟨j, r, hr, hq, _, heq⟩
  · rw [heq]; exact hn
  · rw [heq]
    refine List.nodup_append.2 ⟨hn, by simp, ?_⟩
    intro x hx y hy
    rw [List.mem_singleton.1 hy]
    rintro rfl
    obtain ⟨r', hr', hmoved⟩ := hi.claimed x hx
    rw [hr] at hr'
    cases hr'
    exact hmoved hq

/-- No Run that its submitter kept to execute was handed to a worker. -/
def Sys.Separate (s : Sys) : Prop := ∀ j ∈ s.history.claims, j ∉ s.history.kept

/-- A Run has one holder. -/
def Sole (s : Sys) : Prop := ∀ q q' j, (s.threads q).holds = some j → (s.threads q').holds = some j → q = q'

theorem separate_before (h : Sys.step cfg s a = some s') (hs : s'.Separate) : s.Separate := by
  intro j hclaim hkept
  refine hs j ?_ (kept_after h hkept)
  rcases claims_after h with heq | ⟨j', r, _, _, _, heq⟩
  · rw [heq]; exact hclaim
  · rw [heq]; exact List.mem_append_left _ hclaim

/-- **One step keeps the holders apart.** -/
theorem sole_step (hi : QueueInv cfg s) (hs : Sole s) (hsep : s'.Separate) (h : Sys.step cfg s a = some s') :
    Sole s' := by
  -- a holder that kept the job leaves no room for another one
  have hkept : ∀ q q' j, (s'.threads q).holds = some j → (s.threads q).holds = some j → HoldChange cfg s a s' q' j →
      q = q' := by
    intro q q' j hafter hheld hchange
    obtain ⟨r, hr, hq⟩ := hi.held q j hheld
    cases hchange with
    | kept hheld' _ => exact hs q q' j hheld hheld'
    | created _ _ _ _ hnone _ _ => rw [hnone] at hr; cases hr
    | claimed r' _ hr' hqueued _ hclaims =>
      rw [hr] at hr'
      cases hr'
      refine absurd (kept_after h (hq hqueued).2) (hsep j ?_)
      rw [hclaims]
      exact List.mem_append_right _ List.mem_cons_self
    | handed i _ hheld' hreleased _ =>
      have hqi := hs q i j hheld hheld'
      rw [hqi, hreleased] at hafter
      cases hafter
  intro q q' j hj hj'
  have hc := hold_after hi h hj
  have hc' := hold_after hi h hj'
  cases hc with
  | kept hheld _ => exact hkept q q' j hj hheld hc'
  | created _ hact _ _ _ _ _ =>
    obtain ⟨_, _, rfl⟩ := hact
    cases hc' with
    | kept hheld _ => exact (hkept q' q j hj' hheld (hold_after hi h hj)).symm
    | created _ hact' _ _ _ _ _ => obtain ⟨_, _, h'⟩ := hact'; cases h'; rfl
    | claimed _ hact' _ _ _ _ => obtain ⟨_, _, h'⟩ := hact'; cases h'; rfl
    | handed _ hact' _ _ _ => obtain ⟨_, _, h'⟩ := hact'; cases h'
  | claimed _ hact _ _ _ _ =>
    obtain ⟨_, _, rfl⟩ := hact
    cases hc' with
    | kept hheld _ => exact (hkept q' q j hj' hheld (hold_after hi h hj)).symm
    | created _ hact' _ _ _ _ _ => obtain ⟨_, _, h'⟩ := hact'; cases h'; rfl
    | claimed _ hact' _ _ _ _ => obtain ⟨_, _, h'⟩ := hact'; cases h'; rfl
    | handed _ hact' _ _ _ => obtain ⟨_, _, h'⟩ := hact'; cases h'
  | handed _ hact _ _ _ =>
    obtain ⟨_, _, rfl⟩ := hact
    cases hc' with
    | kept hheld _ => exact (hkept q' q j hj' hheld (hold_after hi h hj)).symm
    | created _ hact' _ _ _ _ _ => obtain ⟨_, _, h'⟩ := hact'; cases h'
    | claimed _ hact' _ _ _ _ => obtain ⟨_, _, h'⟩ := hact'; cases h'
    | handed _ hact' _ _ _ => obtain ⟨_, _, h'⟩ := hact'; cases h'; rfl

end Step

theorem separate_of_run {cfg : Config} : ∀ {acts : List Act} {s s' : Sys},
    Trace.run (Sys.step cfg) s acts = some s' → s'.Separate → s.Separate
  | [], _, _, h, hsep => by cases h; exact hsep
  | _ :: _, _, _, h, hsep => by
    obtain ⟨m, hm, h⟩ := Trace.run_cons.1 h
    exact separate_before hm (separate_of_run h hsep)

/-- Every state of a run that ends with the names separate has them separate. -/
theorem separate_steps {cfg : Config} {acts : List Act} {s s' : Sys} (h : Trace.run (Sys.step cfg) s acts = some s')
    (hsep : s'.Separate) :
    Trace.Every (Sys.step cfg) (fun m act => ∀ m', Sys.step cfg m act = some m' → m'.Separate) s acts := by
  rw [Trace.every_iff_forall_split]
  rintro pre act post m rfl hm m' hm'
  obtain ⟨n, hn, hrest⟩ := Trace.run_append.1 h
  rw [hm] at hn
  cases hn
  obtain ⟨n', hn', hrest⟩ := Trace.run_cons.1 hrest
  rw [hm'] at hn'
  cases hn'
  exact separate_of_run hrest hsep

end EdaLab
