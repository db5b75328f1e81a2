import EdaLab.Exclusive
import EdaLab.Fifo
/-!
# QueueOrder — Runs and requests are handed out in the order they were entered

`claim_next_run` orders by `updated_at` and `claim_execution_request` by `created_at`.  A `QUEUED` Run still has the
`updated_at` of its submission, since whatever writes it moves it (`submitted_queued`), and a request keeps its
`created_at`.  So where no claim skips a `QUEUED` row that another transaction holds, both are `Fifo.Ordered`: the Runs as
one class, the requests by host.  The order is that of the store's clock; rows of one instant come in any order.
-/
namespace EdaLab

open Relational

/-- The Run a call submits. -/
def StoreOp.submits : StoreOp → Option (String × Unit)
  | .createRun j _ _ _ _ _ _ => some (j, ())
  | _                        => none

/-- The request a call enqueues, and its host. -/
def StoreOp.enqueues : StoreOp → Option (String × String)
  | .enqueueExecutionRequest e _ _ h _ => some (e, h)
  | _                                  => none

/-- What `f` reads off the call of a step that is accepted, with the clock. -/
def Sys.accepted {κ : Type} (cfg : Config) (f : StoreOp → Option (String × κ)) (s : Sys) : Act → List (String × κ × Time)
  | .call i _ locked =>
    (((s.threads i).op cfg s locked).bind (fun op =>
      if op.reply cfg.backend s.clock s.db = .flag true then (f op).map (fun x => (x.1, x.2, s.clock)) else none)).toList
  | _ => []

/-- The Runs that wait for a worker, since when. -/
def Db.queuedRuns (db : Db) (j : String) : Option (Unit × Time) :=
  (db.runs.get j).bind (fun r => if r.status = .queued then some ((), r.updatedAt) else none)

/-- The requests that wait for a supervisor, on which host and since when. -/
def Db.queuedRequests (db : Db) (e : String) : Option (String × Time) :=
  (db.executionRequests.get e).bind (fun r => if r.status = .queued then some (r.hostId, r.createdAt) else none)

/-- The rows other transactions hold while the step is taken. -/
def Act.locked : Act → List String
  | .call _ _ locked => locked
  | _                => []

/-- None of them waits, so that a claim skips none that does. -/
def NoneSkipped (s : Sys) (a : Act) : Prop := ∀ x ∈ a.locked, s.db.queuedRuns x = none ∧ s.db.queuedRequests x = none

theorem Db.queuedRuns_some {db : Db} {j : String} {x : Unit × Time} :
    db.queuedRuns j = some x ↔ ∃ r, db.runs.get j = some r ∧ r.status = .queued ∧ x = ((), r.updatedAt) := by
  simp only [Db.queuedRuns, Option.bind_eq_some_iff, Option.ite_none_right_eq_some, Option.some.injEq]
  constructor
  · rintro ⟨r, hr, hq, rfl⟩
    exact ⟨r, hr, hq, rfl⟩
  · rintro ⟨r, hr, hq, rfl⟩
    exact ⟨r, hr, hq, rfl⟩

theorem Db.queuedRequests_some {db : Db} {e : String} {x : String × Time} : db.queuedRequests e = some x ↔
    ∃ r, db.executionRequests.get e = some r ∧ r.status = .queued ∧ x = (r.hostId, r.createdAt) := by
  simp only [Db.queuedRequests, Option.bind_eq_some_iff, Option.ite_none_right_eq_some, Option.some.injEq]
  constructor
  · rintro ⟨r, hr, hq, rfl⟩
    exact ⟨r, hr, hq, rfl⟩
  · rintro ⟨r, hr, hq, rfl⟩
    exact ⟨r, hr, hq, rfl⟩

section Step

variable {cfg : Config} {s s' : Sys} {a : Act}

/-- What is entered in a step is noted. -/
theorem accepted_call {κ : Type} {f : StoreOp → Option (String × κ)} {i : Nat} {fresh : String} {locked : List String}
    {op : StoreOp} {x : String × κ} (hop : (s.threads i).op cfg s locked = some op)
    (hreply : op.reply cfg.backend s.clock s.db = .flag true) (hx : f op = some x) :
    s.accepted cfg f (.call i fresh locked) = [(x.1, x.2, s.clock)] := by
  simp only [Sys.accepted, hop, Option.bind_some, hreply, if_true, hx, Option.map_some, Option.toList_some]

/-- A step enters nothing, or what its call does. -/
theorem accepted_cases {κ : Type} {f : StoreOp → Option (String × κ)} (cfg : Config) (s : Sys) (a : Act) :
    s.accepted cfg f a = [] ∨ ∃ i fresh locked op x, a = .call i fresh locked ∧
      (s.threads i).op cfg s locked = some op ∧ op.reply cfg.backend s.clock s.db = .flag true ∧ f op = some x ∧
      s.accepted cfg f a = [(x.1, x.2, s.clock)] := by
  cases a with
  | call i fresh locked =>
    cases hop : (s.threads i).op cfg s locked with
    | none => exact Or.inl (by simp only [Sys.accepted, hop, Option.bind_none, Option.toList_none])
    | some op =>
      by_cases hreply : op.reply cfg.backend s.clock s.db = .flag true
      · cases hx : f op with
        | none =>
          exact Or.inl (by simp only [Sys.accepted, hop, Option.bind_some, hreply, if_true, hx, Option.map_none,
            Option.toList_none])
        | some x => exact Or.inr ⟨i, fresh, locked, op, x, rfl, hop, hreply, hx, accepted_call hop hreply hx⟩
      · exact Or.inl (by simp only [Sys.accepted, hop, Option.bind_some, hreply, if_false, Option.toList_none])
  | _ => exact Or.inl rfl

/-- What a step does to a queue: what it enters was not there, a row waits since it entered, and the oldest row that waits is
taken. -/
structure QueueStep {κ : Type} (cfg : Config) (f : StoreOp → Option (String × κ)) (there : Db → String → Bool)
    (waiting : Db → String → Option (κ × Time)) (taken : History → List String) (s : Sys) (a : Act) (s' : Sys) : Prop where
  kept : ∀ j, there s.db j = true → there s'.db j = true
  entered : ∀ x, s.accepted cfg f a = [x] → there s.db x.1 = false ∧ there s'.db x.1 = true
  waits : ∀ j x, waiting s'.db j = some x → waiting s.db j = some x ∨ s.accepted cfg f a = [(j, x)]
  takes : taken s'.history = taken s.history ∨ ∃ j c t, taken s'.history = taken s.history ++ [j] ∧
    waiting s.db j = some (c, t) ∧ (∀ l u, waiting s.db l = some (c, u) → t ≤ u) ∧ s.accepted cfg f a = []

/-- A queue that is ordered, and whose entries are all there. -/
structure InOrder {κ : Type} (there : Db → String → Bool) (waiting : Db → String → Option (κ × Time))
    (taken : History → List String) (entered : List (String × κ × Time)) (s : Sys) : Prop where
  ordered : Fifo.Ordered entered (taken s.history) (waiting s.db) s.clock
  there : ∀ x ∈ entered, there s.db x.1 = true

theorem QueueStep.inOrder {κ : Type} {f : StoreOp → Option (String × κ)} {there : Db → String → Bool}
    {waiting : Db → String → Option (κ × Time)} {taken : History → List String} {entered : List (String × κ × Time)}
    (hq : QueueStep cfg f there waiting taken s a s') (ho : InOrder there waiting taken entered s)
    (h : Sys.step cfg s a = some s') : InOrder there waiting taken (entered ++ s.accepted cfg f a) s' := by
  have hclock := Sys.step_clock h
  rcases accepted_cases (f := f) cfg s a with hnil | ⟨i, fresh, locked, op, ⟨j, c⟩, hact, -, -, -, hone⟩
  · have hwaits : ∀ j x, waiting s'.db j = some x → waiting s.db j = some x := by
      intro j x hx
      rcases hq.waits j x hx with hold | hnew
      · exact hold
      · rw [hnil] at hnew
        cases hnew
    rw [hnil, List.append_nil]
    refine ⟨?_, fun x hx => hq.kept x.1 (ho.there x hx)⟩
    rcases hq.takes with heq | ⟨j, c, t, heq, hj, hmin, -⟩
    · rw [heq]
      exact ho.ordered.rest hwaits hclock
    · rw [heq]
      exact (ho.ordered.take hj hmin hwaits).rest (fun _ _ hx => hx) hclock
  · obtain ⟨hfresh, hthere⟩ := hq.entered _ hone
    have heq : taken s'.history = taken s.history := by
      rcases hq.takes with heq | ⟨_, _, _, _, _, _, hnil⟩
      · exact heq
      · rw [hnil] at hone
        cases hone
    rw [hone]
    constructor
    · rw [heq]
      refine (ho.ordered.enter (fun x hx => ?_) (fun l x hx => ?_)).rest (fun _ _ hx => hx) hclock
      · have hold := ho.there _ hx
        rw [hfresh] at hold
        cases hold
      · rcases hq.waits l x hx with hold | hnew
        · exact Or.inl hold
        · rw [hone] at hnew
          cases hnew
          exact Or.inr ⟨rfl, rfl⟩
    · intro x hx
      rcases List.mem_append.1 hx with hx | hx
      · exact hq.kept x.1 (ho.there x hx)
      · rw [List.mem_singleton.1 hx]
        exact hthere

/-! ## Runs -/

/-- A row that waits after a call waited before it, or its Run is submitted by the call. -/
theorem queuedRuns_call (hi : QueueInv cfg s) {i : Nat} {fresh : String} {locked : List String} {op : StoreOp}
    (hc : Sys.Called cfg s i fresh locked op s') {j : String} {x : Unit × Time} (hx : s'.db.queuedRuns j = some x) :
    s.db.queuedRuns j = some x ∨ s.accepted cfg StoreOp.submits (.call i fresh locked) = [(j, x)] := by
  rw [hc.db_eq] at hx
  obtain ⟨r', hr', hq, rfl⟩ := Db.queuedRuns_some.1 hx
  cases runs_after cfg.backend s.clock s.db op j with
  | same hget =>
    rw [hget] at hr'
    exact Or.inl (Db.queuedRuns_some.2 ⟨r', hr', hq, rfl⟩)
  | created d f g hh m p is_op hnone hget hreply =>
    rw [hget] at hr'
    cases hr'
    exact Or.inr (accepted_call (x := (j, ())) hc.is_op hreply (by rw [is_op]; rfl))
  | updated fields r is_op _ hget =>
    -- each `update_run` of the parties writes a status, and none writes `QUEUED`
    exfalso
    subst is_op
    obtain ⟨st, -, hst⟩ := Thread.op_updateRun hc.is_op
    have hwf : fields.status ≠ some .queued := hi.call_wf hc
    rw [hget] at hr'
    cases hr'
    simp only [RunFields.write, hst, Option.getD_some] at hq
    rw [hst, hq] at hwf
    exact hwf rfl
  | claimed _ _ _ _ _ _ hget _ =>
    rw [hget] at hr'
    cases hr'
    cases hq
  | closed c r is_op _ _ _ _ hget _ =>
    exfalso
    obtain ⟨st, hst, hterm⟩ := finalizer_fields (hi.call_wf hc) is_op
    rw [hget] at hr'
    cases hr'
    simp only [RunFields.write, hst, Option.getD_some] at hq
    rw [hq] at hterm
    cases hterm

/-- A claim takes the oldest of the Runs that wait. -/
theorem claims_oldest (hs : NoneSkipped s a) (h : Sys.step cfg s a = some s') :
    s'.history.claims = s.history.claims ∨ ∃ j c t, s'.history.claims = s.history.claims ++ [j] ∧
      s.db.queuedRuns j = some (c, t) ∧ (∀ l u, s.db.queuedRuns l = some (c, u) → t ≤ u) ∧
      s.accepted cfg StoreOp.submits a = [] := by
  cases history_after h with
  | same heq => exact Or.inl (by rw [heq])
  | kept _ _ _ _ _ heq => exact Or.inl (by rw [heq])
  | requested _ _ _ _ _ _ _ _ _ heq => exact Or.inl (by rw [heq])
  | launched _ _ _ _ _ _ _ _ _ _ _ heq => exact Or.inl (by rw [heq])
  | claimed i fresh locked op p hact hc hrep heq =>
    obtain ⟨l, rfl⟩ := StoreOp.payload_isClaim hrep
    obtain ⟨-, rfl⟩ := Thread.op_claim hc.is_op
    cases hnext : PostgresStore.nextQueued s.db l with
    | none => exact Or.inl (by rw [heq, hnext]; simp)
    | some r =>
      obtain ⟨hr, hq⟩ := PostgresStore.nextQueued_some hnext
      refine Or.inr ⟨r.jobId, (), r.updatedAt, by rw [heq, hnext]; rfl, Db.queuedRuns_some.2 ⟨r, hr, hq, rfl⟩, ?_, ?_⟩
      · intro l' u hu
        obtain ⟨r', hr', hq', hx⟩ := Db.queuedRuns_some.1 hu
        obtain ⟨-, rfl⟩ := Prod.mk.inj hx
        refine List.le_of_mem_argmin (List.mem_filter.2 ⟨Table.mem_of_get hr', ?_⟩) hnext
        have hnot : r'.jobId ∉ l := by
          intro hmem
          have hskip := (hs _ (by rw [hact]; exact hmem)).1
          rw [Table.key_of_get hr', hu] at hskip
          cases hskip
        simp only [hq', hnot, decide_true, not_false_eq_true, Bool.and_self]
      · rcases accepted_cases (f := StoreOp.submits) cfg s a with hnil | ⟨_, _, _, op', x, hact', hop', -, hx, -⟩
        · exact hnil
        · rw [hact] at hact'
          cases hact'
          rw [hc.is_op] at hop'
          cases hop'
          cases hx

def Db.storesRun (db : Db) (j : String) : Bool := (db.runs.get j).isSome

theorem runs_queueStep (hi : QueueInv cfg s) (hs : NoneSkipped s a) (h : Sys.step cfg s a = some s') :
    QueueStep cfg StoreOp.submits Db.storesRun Db.queuedRuns History.claims s a s' where
  kept j hj := by
    obtain ⟨r, hr⟩ := Option.isSome_iff_exists.1 hj
    obtain ⟨r', hr', -⟩ := run_persists hi h hr
    exact Option.isSome_iff_exists.2 ⟨r', hr'⟩
  entered x hx := by
    rcases accepted_cases (f := StoreOp.submits) cfg s a with hnil | ⟨i, fresh, locked, op, y, rfl, hop, hreply, hy, hone⟩
    · rw [hnil] at hx
      cases hx
    · rw [hone] at hx
      cases hx
      cases op with
      | createRun j d f g hh m p =>
        cases hy
        obtain ⟨op', hc⟩ := Sys.call_some h
        have hsame := hc.is_op
        rw [hop] at hsame
        cases hsame
        obtain ⟨hnone, r, hr⟩ := createRun_true hreply
        exact ⟨by simp only [Db.storesRun, hnone, Option.isSome_none],
          by simp only [Db.storesRun, hc.db_eq, hr, Option.isSome_some]⟩
      | _ => cases hy
  waits j x hx := by
    rcases Sys.step_db h with hdb | ⟨i, fresh, locked, op, rfl, hc⟩
    · rw [hdb] at hx
      exact Or.inl hx
    · exact queuedRuns_call hi hc hx
  takes := claims_oldest hs h

/-! ## Requests -/

/-- A claim takes the oldest of the requests that wait on its host. -/
theorem requests_oldest (hs : NoneSkipped s a) (h : Sys.step cfg s a = some s') :
    s'.history.requests = s.history.requests ∨ ∃ e c t, s'.history.requests = s.history.requests ++ [e] ∧
      s.db.queuedRequests e = some (c, t) ∧ (∀ l u, s.db.queuedRequests l = some (c, u) → t ≤ u) ∧
      s.accepted cfg StoreOp.enqueues a = [] := by
  cases history_after h with
  | same heq => exact Or.inl (by rw [heq])
  | kept _ _ _ _ _ heq => exact Or.inl (by rw [heq])
  | claimed _ _ _ _ _ _ _ _ heq => exact Or.inl (by rw [heq])
  | launched _ _ _ _ _ _ _ _ _ _ _ heq => exact Or.inl (by rw [heq])
  | requested i fresh locked sup req hact hth hc hrep heq =>
    cases hnext : Store.nextRequest s.db sup.hostId (cfg.backend.locked locked) with
    | none =>
      simp only [StoreOp.reply, StoreOp.exec, Store.claimExecutionRequest, hnext] at hrep
      cases hrep
    | some row =>
      simp only [StoreOp.reply, StoreOp.exec, Store.claimExecutionRequest, hnext, Reply.request.injEq,
        Option.some.injEq] at hrep
      subst hrep
      have hm := List.argmin_mem hnext
      rw [List.mem_filter] at hm
      simp only [Bool.and_eq_true, decide_eq_true_eq] at hm
      obtain ⟨hmem, ⟨hhost, hq⟩, -⟩ := hm
      have hget := s.db.executionRequests.get_of_mem hmem
      refine Or.inr ⟨row.executionId, row.hostId, row.createdAt, by rw [heq],
        Db.queuedRequests_some.2 ⟨row, hget, hq, rfl⟩, ?_, ?_⟩
      · intro l u hu
        obtain ⟨r', hr', hq', hx⟩ := Db.queuedRequests_some.1 hu
        obtain ⟨hhost', rfl⟩ := Prod.mk.inj hx
        refine List.le_of_mem_argmin (List.mem_filter.2 ⟨Table.mem_of_get hr', ?_⟩) hnext
        have hnot : r'.executionId ∉ cfg.backend.locked locked := by
          intro hmem'
          have hlocked : r'.executionId ∈ locked := by
            unfold Backend.locked at hmem'
            split at hmem'
            · cases hmem'
            · exact hmem'
          have hskip := (hs _ (by rw [hact]; exact hlocked)).2
          rw [Table.key_of_get hr', hu] at hskip
          cases hskip
        simp only [← hhost', hhost, hq', hnot, decide_true, not_false_eq_true, Bool.and_self]
      · rcases accepted_cases (f := StoreOp.enqueues) cfg s a with hnil | ⟨_, _, _, op', x, hact', hop', -, hx, -⟩
        · exact hnil
        · rw [hact] at hact'
          cases hact'
          rw [hc.is_op] at hop'
          cases hop'
          cases hx

def Db.storesRequest (db : Db) (e : String) : Bool := (db.executionRequests.get e).isSome

theorem requests_queueStep (hs : NoneSkipped s a) (h : Sys.step cfg s a = some s') :
    QueueStep cfg StoreOp.enqueues Db.storesRequest Db.queuedRequests History.requests s a s' where
  kept e he := by
    obtain ⟨r, hr⟩ := Option.isSome_iff_exists.1 he
    obtain ⟨r', hr', -⟩ := request_after_step h hr
    exact Option.isSome_iff_exists.2 ⟨r', hr'⟩
  entered x hx := by
    rcases accepted_cases (f := StoreOp.enqueues) cfg s a with hnil | ⟨i, fresh, locked, op, y, rfl, hop, hreply, hy, hone⟩
    · rw [hnil] at hx
      cases hx
    · rw [hone] at hx
      cases hx
      cases op with
      | enqueueExecutionRequest e j n host p =>
        cases hy
        obtain ⟨op', hc⟩ := Sys.call_some h
        have hsame := hc.is_op
        rw [hop] at hsame
        cases hsame
        simp only [Db.storesRequest, hc.db_eq]
        simp only [StoreOp.reply, StoreOp.after, StoreOp.exec, Store.enqueueExecutionRequest, Reply.ofFlag] at hreply ⊢
        split at hreply
        · rename_i requests hins
          have hnone : s.db.executionRequests.get e = none := Table.get_key_of_insertNew hins
          simp only [hnone, Table.get_insertNew hins, if_true, Option.isSome_none, Option.isSome_some, and_self]
        · cases hreply
      | _ => cases hy
  waits e x hx := by
    rcases Sys.step_db h with hdb | ⟨i, fresh, locked, op, rfl, hc⟩
    · rw [hdb] at hx
      exact Or.inl hx
    · rw [hc.db_eq] at hx
      obtain ⟨r', hr', hq, rfl⟩ := Db.queuedRequests_some.1 hx
      cases requests_after cfg.backend s.clock s.db op e with
      | same hget =>
        rw [hget] at hr'
        exact Or.inl (Db.queuedRequests_some.2 ⟨r', hr', hq, rfl⟩)
      | moved _ r₁ _ hget _ hleft =>
        rw [hget] at hr'
        cases hr'
        exact absurd hq hleft
      | enqueued j n host p r is_op hnone _ _ hreply =>
        rcases request_after cfg.backend s.clock s.db op hr' with ⟨r₀, hr₀, -⟩ | ⟨hop, hcreated, -⟩
        · rw [hnone] at hr₀
          cases hr₀
        · right
          rw [accepted_call (x := (e, r'.hostId)) hc.is_op hreply (by rw [hop]; rfl), hcreated]
  takes := requests_oldest hs h

end Step

/-! ## Runs of the system -/

/-- **Runs are handed to the workers in the order of their submission, and the requests of a host to its supervisors in the
order they were enqueued**, by the clock of the store: none before an older one that waits. -/
theorem handed_out_in_order (cfg : Config) (acts : List Act) (s : Sys)
    (h : Trace.run (Sys.step cfg) Sys.init acts = some s) (hs : Trace.Every (Sys.step cfg) NoneSkipped Sys.init acts) :
    Fifo.Ordered (Trace.log (Sys.step cfg) (fun m a _ => m.accepted cfg StoreOp.submits a) Sys.init acts)
      s.history.claims s.db.queuedRuns s.clock ∧
    Fifo.Ordered (Trace.log (Sys.step cfg) (fun m a _ => m.accepted cfg StoreOp.enqueues a) Sys.init acts)
      s.history.requests s.db.queuedRequests s.clock := by
  constructor
  · have hinv := Trace.run_logs_of_every (f := fun m a _ => m.accepted cfg StoreOp.submits a)
      (P := fun l m => QueueInv cfg m ∧ InOrder Db.storesRun Db.queuedRuns History.claims l m)
      (fun l m a m' hm hskip hstep =>
        ⟨queueInv_step hm.1 hstep, (runs_queueStep hm.1 hskip hstep).inOrder hm.2 hstep⟩)
      ⟨queueInv_init cfg, Fifo.Ordered.nil, (fun x hx => by cases hx)⟩ hs h
    simpa only [List.nil_append] using hinv.2.ordered
  · have hinv := Trace.run_logs_of_every (f := fun m a _ => m.accepted cfg StoreOp.enqueues a)
      (P := InOrder Db.storesRequest Db.queuedRequests History.requests)
      (fun l m a m' hm hskip hstep => (requests_queueStep hskip hstep).inOrder hm hstep)
      ⟨Fifo.Ordered.nil, (fun x hx => by cases hx)⟩ hs h
    simpa only [List.nil_append] using hinv.ordered

/-- Two Runs are submitted, at 0 and at 5, and a worker claims both. -/
def twoSubmitsActs : List Act :=
  [.start 0 (.submit 0 timingSpec .lookup), .call 0 "a1" [], .advance 0 0 "a2" .go, .call 0 "a3" [], .call 0 "a4" [],
   .tick 5, .start 1 (.submit 0 { timingSpec with jobId := "next" } .lookup), .call 1 "b1" [], .advance 1 0 "b2" .go,
   .call 1 "b3" [], .call 1 "b4" [], .start 2 (.drain 1 ⟨none, 2, [], []⟩ .enter), .advance 2 0 "c1" .go,
   .advance 2 0 "c2" .go, .call 2 "c3" [], .call 2 "c4" [], .advance 2 0 "c5" .go, .advance 2 0 "c6" .go, .call 2 "c7" [],
   .advance 2 0 "c8" .go, .advance 2 0 "c9" .go, .call 2 "c10" [], .advance 2 3 "c11" .go, .advance 2 0 "c12" .go,
   .advance 2 0 "c13" .go, .call 2 "c14" []]

theorem twoSubmits_in_order : ∃ s, Trace.run (Sys.step workerConfig) Sys.init twoSubmitsActs = some s ∧
    s.history.claims = ["job", "next"] ∧
    Fifo.Ordered (Trace.log (Sys.step workerConfig) (fun m a _ => m.accepted workerConfig StoreOp.submits a) Sys.init
      twoSubmitsActs) s.history.claims s.db.queuedRuns s.clock := by
  have hrun : (Trace.run (Sys.step workerConfig) Sys.init twoSubmitsActs).map (fun s =>
      decide (s.history.claims = ["job", "next"])) = some true := by
    decide +kernel
  have hlocked : ∀ a ∈ twoSubmitsActs, a.locked = [] := by decide +kernel
  obtain ⟨s, hs, hclaims⟩ := Option.map_eq_some_iff.1 hrun
  refine ⟨s, hs, of_decide_eq_true hclaims, (handed_out_in_order workerConfig twoSubmitsActs s hs ?_).1⟩
  refine Trace.every_iff_forall_split.2 (fun pre a post m heq _ x hx => ?_)
  rw [hlocked a (by rw [heq]; simp)] at hx
  cases hx

end EdaLab
