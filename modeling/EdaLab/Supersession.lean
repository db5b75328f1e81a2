import EdaLab.Absorbing
import EdaLab.Claims
import EdaLab.HostSession
/-!
# Supersession — what a Host Agent does after another session took its host

`HostAgent.drain` renews its session once, before the claim loop.  A drain that starts after the other session, or has
not renewed yet, is refused there (`PastSession`); one that is past it claims as long as the queue has a Run.  So a
superseded agent takes no Run out of the queue exactly where those drains find it empty.
-/
namespace EdaLab

/-- The drain is past its session heartbeat. -/
def AgentPc.pastSession : AgentPc → Bool
  | .refresh | .drain _ => true
  | _                   => false

/-- A drain of this agent that is past its session heartbeat. -/
def Thread.PastSession (svc : Nat) (self : ExecutionOwner) (th : Thread) : Prop :=
  ∃ d pc, th = .agent svc self d pc ∧ pc.pastSession = true

/-- The agent: its drains, and the executions of its service. -/
def Thread.ofAgent (svc : Nat) (self : ExecutionOwner) : Thread → Bool
  | .agent v o _ _ => decide (v = svc) && decide (o = self)
  | .exec v _ _    => decide (v = svc)
  | _              => false

/-- A call of the agent leaves every queued Run queued. -/
def KeepsQueued (cfg : Config) (svc : Nat) (self : ExecutionOwner) (m : Sys) (a : Act) : Prop :=
  ∀ i fresh locked m', a = .call i fresh locked → (m.threads i).ofAgent svc self = true → Sys.step cfg m a = some m' →
    ∀ j r, m.db.runs.get j = some r → r.status = .queued → ∃ r', m'.db.runs.get j = some r' ∧ r'.status = .queued

/-- A drain that was past its session heartbeat in `s` claims only when there is nothing to claim. -/
def FindsNoBacklog (svc : Nat) (self : ExecutionOwner) (s m : Sys) (a : Act) : Prop :=
  ∀ i fresh locked, a = .call i fresh locked → m.isFresh fresh = true → (s.threads i).PastSession svc self →
    (m.threads i).isClaim = true → PostgresStore.nextQueued m.db locked = none

theorem AgentPc.advance_pastSession {svc : Service} {self : ExecutionOwner} {owner : Option ExecutionOwner}
    {live : String → Bool} {clock : Time} {observed : Nat → Option (Nat × Option String)}
    {result : Nat → Option FutureResult} {child : Nat} {fresh : String} {inp : Input} {d d' : Drain} {pc pc' : AgentPc}
    {eff : Effect} (h : pc.advance svc self owner live clock observed result child fresh inp d = some (d', pc', eff))
    (hpast : pc'.pastSession = true) : pc.pastSession = true := by
  cases pc with
  | drain pc => rfl
  | enter =>
    simp only [AgentPc.advance, Option.some.injEq, Prod.mk.injEq] at h
    obtain ⟨-, hpc, -⟩ := h
    rw [← hpc] at hpast
    split at hpast <;> cases hpast
  | own =>
    simp only [AgentPc.advance] at h
    split at h <;> cases h <;> cases hpast
  | _ => cases h

section Step

variable {cfg : Config} {s s' : Sys} {a : Act}

theorem sessionsOwned_sys (hi : SessionsOwned s.db) (h : Sys.step cfg s a = some s') : SessionsOwned s'.db := by
  rcases Sys.step_db h with hdb | ⟨i, fresh, locked, op, -, hc⟩
  · rw [hdb]; exact hi
  · rw [hc.db_eq]
    exact sessionsOwned_step _ _ _ _ hi

theorem superseded_sys {session : String} (hs : Superseded session s.db) (h : Sys.step cfg s a = some s') :
    Superseded session s'.db := by
  rcases Sys.step_db h with hdb | ⟨i, fresh, locked, op, -, hc⟩
  · rw [hdb]; exact hs
  · rw [hc.db_eq]
    exact superseded_step _ _ _ _ hs

/-- The agent of a thread stays. -/
theorem agent_persists {q svc : Nat} {self : ExecutionOwner} (h : Sys.step cfg s a = some s')
    (hq : ∃ d pc, s.threads q = .agent svc self d pc) : ∃ d pc, s'.threads q = .agent svc self d pc := by
  obtain ⟨d, pc, hq⟩ := hq
  cases thread_after q h with
  | same heq => exact ⟨d, pc, by rw [heq, hq]⟩
  | entered th _ hnone _ _ => rw [hq] at hnone; cases hnone
  | called fresh locked op _ _ heq => exact ⟨d, _, by rw [heq, hq]; rfl⟩
  | advanced k fresh inp th eff _ hadv heq =>
    have hx := hadv.advance_eq
    rw [hq] at hx
    obtain ⟨x, -, hx'⟩ := Option.map_eq_some_iff.1 hx
    cases hx'
    exact ⟨_, _, heq⟩
  | executed i fresh inp th spec v _ _ _ hnone _ _ => rw [hq] at hnone; cases hnone
  | beat i fresh inp th b run _ _ _ hnone _ => rw [hq] at hnone; cases hnone
  | cancelled v spec hpend _ => rw [hq] at hpend; cases hpend

/-- **Where the session is superseded, no drain gets past its heartbeat.** -/
theorem pastSession_step {svc : Nat} {self : ExecutionOwner} (hs : Superseded self.sessionId s.db)
    (h : Sys.step cfg s a = some s') {q : Nat} (hq : (s'.threads q).PastSession svc self) :
    (s.threads q).PastSession svc self := by
  obtain ⟨d', pc', hth', hpast⟩ := hq
  cases thread_after q h with
  | same heq => exact ⟨d', pc', by rw [← heq, hth'], hpast⟩
  | entered th _ _ hentry heq =>
    rw [heq] at hth'
    subst hth'
    cases pc' with
    | enter => cases hpast
    | _ => cases hentry
  | called fresh locked op _ hc heq =>
    rw [heq] at hth'
    have hop := hc.is_op
    cases hth : s.threads q with
    | agent v o d pc =>
      rw [hth] at hth' hop
      simp only [Thread.resume, Thread.agent.injEq] at hth'
      obtain ⟨rfl, rfl, rfl, hpc⟩ := hth'
      refine ⟨d, pc, rfl, ?_⟩
      cases pc with
      | refresh => rfl
      | drain pc => rfl
      | session =>
        -- the heartbeat of a superseded session is refused
        cases hop
        rw [(hs.fenced cfg.backend).heartbeat] at hpc
        rw [← hpc] at hpast
        cases hpast
      | start =>
        simp only [AgentPc.resume] at hpc
        split at hpc <;> rw [← hpc] at hpast <;> cases hpast
      | _ => rw [← hpc] at hpast; cases hpast
    | _ => rw [hth] at hth'; cases hth'
  | advanced k fresh inp th eff _ hadv heq =>
    rw [heq] at hth'
    have hx := hadv.advance_eq
    rw [hth'] at hx
    cases hth : s.threads q with
    | none => rw [hth] at hx; cases hx
    | agent v o d pc =>
      rw [hth] at hx
      obtain ⟨⟨d₁, pc₁, eff₁⟩, hy, hy'⟩ := Option.map_eq_some_iff.1 hx
      cases hy'
      exact ⟨d, pc, rfl, AgentPc.advance_pastSession hy hpast⟩
    | _ =>
      rw [hth] at hx
      obtain ⟨x, -, hx'⟩ := Option.map_eq_some_iff.1 hx
      cases hx'
  | executed i fresh inp th spec v _ _ _ _ heq _ => rw [heq] at hth'; cases hth'
  | beat i fresh inp th b run _ _ _ _ heq => rw [heq] at hth'; cases hth'
  | cancelled v spec _ heq => rw [heq] at hth'; cases hth'

/-- What holds from the supersession on. -/
structure Stale (cfg : Config) (svc : Nat) (owner : ExecutionOwner) (s m : Sys) : Prop where
  queue : QueueInv cfg m
  superseded : Superseded owner.sessionId m.db
  past : ∀ q, (m.threads q).PastSession svc owner → (s.threads q).PastSession svc owner
  agents : ∀ q, (s.threads q).PastSession svc owner → ∃ d pc, m.threads q = .agent svc owner d pc

theorem stale_step {svc : Nat} {self : ExecutionOwner} {s₀ : Sys} (hi : Stale cfg svc self s₀ s)
    (h : Sys.step cfg s a = some s') : Stale cfg svc self s₀ s' where
  queue := queueInv_step hi.queue h
  superseded := superseded_sys hi.superseded h
  past q hq := hi.past q (pastSession_step hi.superseded h hq)
  agents q hq := agent_persists h (hi.agents q hq)

theorem stale_run {svc : Nat} {self : ExecutionOwner} {s₀ : Sys} {acts : List Act} (hi : Stale cfg svc self s₀ s)
    (h : Trace.run (Sys.step cfg) s acts = some s') : Stale cfg svc self s₀ s' :=
  Trace.run_preserves (fun _ _ _ hs hstep => stale_step hs hstep) hi h

/-- **A call of the agent takes a Run out of the queue only as a claim.** -/
theorem agent_takes {svc : Nat} {self : ExecutionOwner} {i : Nat} {fresh : String} {locked : List String}
    {op : StoreOp} (hi : QueueInv cfg s) (hmode : (cfg.service svc).executionMode ≠ .local)
    (hth : (s.threads i).ofAgent svc self = true) (hc : Sys.Called cfg s i fresh locked op s') {j : String} {r : RunRow}
    (hr : s.db.runs.get j = some r) (hq : r.status = .queued) :
    (∃ r', s'.db.runs.get j = some r' ∧ r'.status = .queued) ∨
    ((s.threads i).PastSession svc self ∧ (s.threads i).isClaim = true ∧
      PostgresStore.nextQueued s.db locked ≠ none) := by
  rw [hc.db_eq]
  cases runs_after cfg.backend s.clock s.db op j with
  | same h => exact Or.inl ⟨r, by rw [h, hr], hq⟩
  | created _ _ _ _ _ _ _ hn => rw [hr] at hn; cases hn
  | closed c r' _ _ _ hr' hrun =>
    rw [hr] at hr'
    cases hr'
    rw [hrun] at hq
    cases hq
  | updated fields r' hop hr' _ =>
    have hcall := hc.is_op
    rw [hop] at hcall
    obtain ⟨st, hw, -⟩ := Thread.op_updateRun hcall
    exfalso
    cases hthread : s.threads i with
    | exec v spec pc =>
      -- an execution of a service that does not execute what it submits knows its Run from a claim
      rw [hthread] at hw hth
      obtain rfl : v = svc := of_decide_eq_true hth
      cases pc with
      | start =>
        cases hw
        obtain ⟨r'', hr'', hlocal⟩ := hi.held i spec.jobId (by rw [hthread]; rfl)
        rw [hr] at hr''
        cases hr''
        obtain ⟨⟨v', hv, hl⟩, -⟩ := hlocal hq
        rw [hthread] at hv
        cases hv
        exact hmode hl
      | _ => cases hw
    | agent v o d pc =>
      rw [hthread] at hw
      cases pc with
      | drain pc =>
        cases pc with
        | recovering rec =>
          cases rec with
          | failNoAttempt sc run =>
            cases hw
            obtain ⟨-, hsnaps⟩ := hi.scanned i (.failNoAttempt sc run) (by rw [hthread]; rfl)
            obtain ⟨r'', hr'', hmoved⟩ := hsnaps run List.mem_cons_self
            rw [hr] at hr''
            cases hr''
            exact hmoved hq
          | _ => cases hw
        | _ => cases hw
      | _ => cases hw
    | _ => rw [hthread] at hth; cases hth
  | claimed l r' hop hb hr' _ hget _ =>
    right
    subst hop
    obtain ⟨hclaim, rfl⟩ := Thread.op_claim hc.is_op
    refine ⟨?_, hclaim, ?_⟩
    · cases hthread : s.threads i with
      | agent v o d pc =>
        rw [hthread] at hth hclaim
        simp only [Thread.ofAgent, Bool.and_eq_true, decide_eq_true_eq] at hth
        obtain ⟨rfl, rfl⟩ := hth
        cases pc with
        | drain pc => exact ⟨d, _, rfl, rfl⟩
        | _ => cases hclaim
      | _ => rw [hthread] at hclaim hth; first | cases hclaim | cases hth
    · intro hnone
      simp only [StoreOp.after, StoreOp.exec, hb, PostgresStore.claimNextRun, hnone] at hget
      rw [hr] at hget
      have hst := congrArg (Option.map RunRow.status) hget
      simp only [Option.map_some, RunFields.write, Option.getD_some, Option.some.injEq] at hst
      rw [hq] at hst
      cases hst

end Step

/-- **A superseded agent takes no Run out of the queue exactly where its drains that had renewed the session before find
no queued Run.** -/
theorem superseded_agent_idle_iff (cfg : Config) (before acts : List Act) (s s₀ : Sys) (svc p : Nat)
    (self owner : ExecutionOwner) (ttl : Time) (fresh : String) (locked : List String) (hb : cfg.backend = .postgres)
    (hmode : (cfg.service svc).executionMode ≠ .local)
    (hbefore : Trace.run (Sys.step cfg) Sys.init before = some s)
    (hcur : s.db.currentFor owner.hostId self.sessionId)
    (hop : (s.threads p).op cfg s locked = some (.startHostSession owner ttl))
    (hreply : (StoreOp.startHostSession owner ttl).reply cfg.backend s.clock s.db = .unit)
    (hstart : Sys.step cfg s (.call p fresh locked) = some s₀) :
    Trace.Every (Sys.step cfg) (KeepsQueued cfg svc self) s₀ acts ↔
      Trace.Every (Sys.step cfg) (FindsNoBacklog svc self s₀) s₀ acts := by
  have hqueue := queueInv_run (queueInv_init cfg) hbefore
  have howned : SessionsOwned s.db :=
    Trace.run_preserves (P := fun s => SessionsOwned s.db) (fun _ _ _ hs hstep => sessionsOwned_sys hs hstep)
      sessionsOwned_empty hbefore
  have hstale : Stale cfg svc self s₀ s₀ := by
    refine ⟨queueInv_step hqueue hstart, ?_, fun q hq => hq, fun q hq => ?_⟩
    · obtain ⟨op, hc⟩ := Sys.call_some hstart
      have heq := hc.is_op
      rw [hop] at heq
      cases heq
      obtain ⟨row, hrow, hhost⟩ := howned owner.hostId self.sessionId hcur
      rw [hc.db_eq]
      exact superseded_of_started howned hrow hhost hreply
    · obtain ⟨d, pc, heq, -⟩ := hq
      exact ⟨d, pc, heq⟩
  rw [Trace.every_iff_forall_split, Trace.every_iff_forall_split]
  constructor
  · rintro h pre a post m hs hm i fr lk rfl hfresh hpast hclaim
    have hm' := stale_run hstale hm
    obtain ⟨d, pc, hth⟩ := hm'.agents i hpast
    cases hnext : PostgresStore.nextQueued m.db lk with
    | none => rfl
    | some r =>
      obtain ⟨hr, hq⟩ := PostgresStore.nextQueued_some hnext
      have hcall := Thread.isClaim_op cfg m lk hclaim
      obtain ⟨m', hstep⟩ := Option.isSome_iff_exists.1 (Sys.call_isSome_iff.2 ⟨⟨_, hcall⟩, hfresh⟩)
      obtain ⟨op, hc⟩ := Sys.call_some hstep
      have heq := hc.is_op
      rw [hcall] at heq
      cases heq
      have hof : (m.threads i).ofAgent svc self = true := by
        rw [hth]
        simp [Thread.ofAgent]
      obtain ⟨r', hr', hq'⟩ := h pre _ post m hs hm i fr lk m' rfl hof hstep r.jobId r hr hq
      have hreply : (StoreOp.claimNextRun lk).reply cfg.backend m.clock m.db = .payload r.specPayload := by
        simp only [StoreOp.reply, StoreOp.exec, hb, PostgresStore.claimNextRun, hnext]
      obtain ⟨-, ⟨hnone, -⟩ | ⟨r'', hnext', -, hget⟩⟩ := claimNextRun_payload hreply
      · rw [hnext] at hnone; cases hnone
      · rw [hnext] at hnext'
        cases hnext'
        rw [hc.db_eq, hget] at hr'
        cases hr'
        cases hq'
  · rintro h pre a post m hs hm i fr lk m' rfl hof hstep j r hr hq
    have hm' := stale_run hstale hm
    obtain ⟨op, hc⟩ := Sys.call_some hstep
    rcases agent_takes hm'.queue hmode hof hc hr hq with hkept | ⟨hpast, hclaim, hsome⟩
    · exact hkept
    · exact absurd (h pre _ post m hs hm i fr lk rfl hc.is_fresh (hm'.past i hpast) hclaim) hsome

/-! ### A drain that renewed its session just before -/

/-- Service 0 submits the job; the agent of service 1 starts its session and drains up to its claim; the agent of service
2 is about to start its own session on the host. -/
def agentActs : List Act :=
  [.start 0 (.submit 0 timingSpec .lookup), .call 0 "a1" [], .advance 0 0 "a2" .go, .call 0 "a3" [], .call 0 "a4" [],
   .start 1 (.agent 1 firstSession ⟨none, 1, [], []⟩ .enter), .advance 1 0 "b1" .go, .call 1 "b2" [],
   .advance 1 0 "b3" .go, .call 1 "b4" [], .call 1 "b5" [], .advance 1 0 "b6" .go, .advance 1 0 "b7" .go,
   .call 1 "b8" [], .call 1 "b9" [], .advance 1 0 "b10" .go, .advance 1 0 "b11" .go, .call 1 "b12" [],
   .advance 1 0 "b13" .go, .advance 1 0 "b14" .go,
   .start 3 (.agent 2 secondSession ⟨none, 1, [], []⟩ .enter), .advance 3 0 "d1" .go]

/-- What the statement asks of the state before the second session. -/
def agentReady (s : Sys) : Bool :=
  decide ((s.db.hosts.get "host").map (·.currentSessionId) = some "session-1") &&
  decide ((s.threads 3).op workerConfig s [] = some (.startHostSession secondSession 30)) &&
  decide ((StoreOp.startHostSession secondSession 30).reply .postgres s.clock s.db = .unit)

/-- The job before and after the first agent's claim, once the second session has started. -/
def agentClaims (s : Sys) : Option (Bool × Option RunStatus × Option RunStatus) :=
  (Sys.step workerConfig s (.call 3 "d2" [])).bind (fun s₀ =>
    (Sys.step workerConfig s₀ (.call 1 "e1" [])).map (fun m =>
      ((s₀.threads 1).ofAgent 1 firstSession, (s₀.db.runs.get "job").map (·.status),
        (m.db.runs.get "job").map (·.status))))

structure AgentSuperseded (s s₀ : Sys) : Prop where
  reached : Trace.run (Sys.step workerConfig) Sys.init agentActs = some s
  current : s.db.currentFor "host" "session-1"
  op_eq : (s.threads 3).op workerConfig s [] = some (.startHostSession secondSession 30)
  replied : (StoreOp.startHostSession secondSession 30).reply .postgres s.clock s.db = .unit
  started : Sys.step workerConfig s (.call 3 "d2" []) = some s₀

theorem exists_agentSuperseded : ∃ s s₀, AgentSuperseded s s₀ ∧ agentClaims s = some
    (true, some .queued, some .running) := by
  have hready : (Trace.run (Sys.step workerConfig) Sys.init agentActs).map agentReady = some true := by decide +kernel
  have hclaims : (Trace.run (Sys.step workerConfig) Sys.init agentActs).map agentClaims =
      some (some (true, some .queued, some .running)) := by decide +kernel
  obtain ⟨s, hs, hr⟩ := Option.map_eq_some_iff.1 hready
  obtain ⟨s₁, hs₁, hm⟩ := Option.map_eq_some_iff.1 hclaims
  rw [hs] at hs₁
  cases hs₁
  simp only [agentReady, Bool.and_eq_true, decide_eq_true_eq] at hr
  obtain ⟨⟨hcur, hop⟩, hreply⟩ := hr
  obtain ⟨h, hh, hsess⟩ := Option.map_eq_some_iff.1 hcur
  obtain ⟨s₀, hs₀, -⟩ := Option.bind_eq_some_iff.1 hm
  exact ⟨s, s₀, ⟨hs, ⟨h, hh, hsess⟩, hop, hreply, hs₀⟩, hm⟩

/-- **The superseded agent claims the queued Run.** -/
theorem superseded_agent_claims : ∃ s s₀, AgentSuperseded s s₀ ∧
    ¬ Trace.Every (Sys.step workerConfig) (KeepsQueued workerConfig 1 firstSession) s₀ [.call 1 "e1" []] := by
  obtain ⟨s, s₀, hsup, hclaims⟩ := exists_agentSuperseded
  refine ⟨s, s₀, hsup, ?_⟩
  rintro ⟨hkeep, -⟩
  obtain ⟨s₁, hs₁, hm⟩ := Option.bind_eq_some_iff.1 hclaims
  rw [hsup.started] at hs₁
  cases hs₁
  obtain ⟨m, hm, hstates⟩ := Option.map_eq_some_iff.1 hm
  simp only [Prod.mk.injEq] at hstates
  obtain ⟨hof, hbefore, hafter⟩ := hstates
  obtain ⟨r, hr, hq⟩ := Option.map_eq_some_iff.1 hbefore
  obtain ⟨r', hr', hrun⟩ := Option.map_eq_some_iff.1 hafter
  obtain ⟨r'', hr'', hq'⟩ := hkeep 1 "e1" [] m rfl hof hm "job" r hr hq
  rw [hr'] at hr''
  cases hr''
  rw [hrun] at hq'
  cases hq'

theorem supersededRun_idle_iff : ∃ s₀,
    Trace.Every (Sys.step workerConfig) (KeepsQueued workerConfig 1 firstSession) s₀ [.call 1 "e1" []] ↔
      Trace.Every (Sys.step workerConfig) (FindsNoBacklog 1 firstSession s₀) s₀ [.call 1 "e1" []] := by
  obtain ⟨s, s₀, hsup, -⟩ := exists_agentSuperseded
  exact ⟨s₀, superseded_agent_idle_iff workerConfig agentActs [.call 1 "e1" []] s s₀ 1 3 firstSession secondSession 30 "d2"
    [] rfl (by decide) hsup.reached hsup.current hsup.op_eq hsup.replied hsup.started⟩

end EdaLab
