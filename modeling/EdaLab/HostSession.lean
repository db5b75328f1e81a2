import EdaLab.StoreSpec
/-!
# HostSession — a superseded Host Agent session stays fenced

The guards join `hosts` and `host_sessions` on the session id alone.  What makes that a fence is an invariant of the two
tables: a session id is inserted once, and the current session of a host is a session of that host (`SessionsOwned`).  A
session that another one replaced is then no host's, and no call makes it one again (`Superseded`).
-/
namespace EdaLab

open Relational

/-! ## What a call can do to the sessions and the hosts -/

/-- **A session id is inserted once**: where it is taken, the call raises and changes nothing. -/
theorem startHostSession_taken (b : Backend) (now : Time) {db : Db} {owner : ExecutionOwner} (ttl : Time)
    (h : (db.hostSessions.get owner.sessionId).isSome = true) :
    (StoreOp.startHostSession owner ttl).exec b now db = (db, .raised .integrityError) := by
  have hn : db.hostSessions.insertNew ⟨owner.sessionId, owner.hostId, owner.hostEpoch, now, now + ttl⟩ = none :=
    Table.insertNew_eq_none_iff.2 h
  simp only [StoreOp.exec, Store.startHostSession, hn, Reply.ofExcept]

/-- What a successful `start_host_session` leaves. -/
structure Started (b : Backend) (now : Time) (db : Db) (owner : ExecutionOwner) (ttl : Time) : Prop where
  replied : (StoreOp.startHostSession owner ttl).reply b now db = .unit
  get_session : ∀ k, ((StoreOp.startHostSession owner ttl).after b now db).hostSessions.get k =
    if owner.sessionId = k then some ⟨owner.sessionId, owner.hostId, owner.hostEpoch, now, now + ttl⟩
    else db.hostSessions.get k
  get_host : ∀ k, ((StoreOp.startHostSession owner ttl).after b now db).hosts.get k =
    if owner.hostId = k then some ⟨owner.hostId, owner.hostEpoch, owner.sessionId, now⟩ else db.hosts.get k

theorem startHostSession_fresh (b : Backend) (now : Time) {db : Db} {owner : ExecutionOwner} (ttl : Time)
    (h : db.hostSessions.get owner.sessionId = none) : Started b now db owner ttl := by
  cases hi : db.hostSessions.insertNew ⟨owner.sessionId, owner.hostId, owner.hostEpoch, now, now + ttl⟩ with
  | none =>
    have := Table.insertNew_eq_none_iff.1 hi
    rw [h] at this
    cases this
  | some sessions =>
    refine ⟨?_, fun k => ?_, fun k => ?_⟩
    · simp only [StoreOp.reply, StoreOp.exec, Store.startHostSession, hi, Reply.ofExcept]
    · simp only [StoreOp.after, StoreOp.exec, Store.startHostSession, hi, Reply.ofExcept]
      exact Table.get_insertNew hi k
    · simp only [StoreOp.after, StoreOp.exec, Store.startHostSession, hi, Reply.ofExcept]
      rw [Table.get_upsert]
      by_cases hk : owner.hostId = k
      · rw [if_pos hk, if_pos hk]
        cases hg : db.hosts.get k with
        | none => rfl
        | some r =>
          have hr := Table.key_of_get hg
          simp only [Option.elim_some, Option.some.injEq, HostRow.mk.injEq, and_self, and_true]
          rw [hr, hk]
      · rw [if_neg hk, if_neg hk]

inductive SessionChange (b : Backend) (now : Time) (db : Db) (op : StoreOp) : Prop
  | same (kept : (op.after b now db).hostSessions = db.hostSessions ∧ (op.after b now db).hosts = db.hosts)
  | renewed (s : String) (ttl : Time) (is_op : op = .heartbeatHostSession s ttl)
      (get_session : ∀ k, (op.after b now db).hostSessions.get k = (db.hostSessions.get k).map (fun r =>
        if Store.isCurrentSession db s r then { r with heartbeatAt := now, leaseExpiresAt := now + ttl } else r))
      (hosts_eq : (op.after b now db).hosts = db.hosts)
  | started (owner : ExecutionOwner) (ttl : Time) (is_op : op = .startHostSession owner ttl)
      (fresh : db.hostSessions.get owner.sessionId = none)

theorem finalizer_sessions {b : Backend} {now : Time} {db : Db} {op : StoreOp} {c : Finalizer}
    (hop : op.finalizer now db = some c) : SessionChange b now db op := by
  cases finalizer_cases b hop with
  | accepted _ _ _ _ _ hafter => exact .same (by rw [hafter]; exact ⟨rfl, rfl⟩)
  | noAttempt _ _ hafter => exact .same (by rw [hafter]; exact ⟨rfl, rfl⟩)
  | noRun _ _ _ hafter => exact .same (by rw [hafter]; cases b <;> exact ⟨rfl, rfl⟩)

/-- **What a call can do to the sessions and the hosts.** -/
theorem sessions_after (b : Backend) (now : Time) (db : Db) (op : StoreOp) : SessionChange b now db op := by
  cases op with
  | startHostSession owner ttl =>
    cases h : db.hostSessions.get owner.sessionId with
    | none => exact .started owner ttl rfl h
    | some r =>
      have hex := startHostSession_taken b now ttl (Option.isSome_iff_exists.2 ⟨r, h⟩)
      exact .same (by rw [StoreOp.after, hex]; exact ⟨rfl, rfl⟩)
  | heartbeatHostSession s ttl =>
    refine .renewed s ttl rfl (fun k => ?_) rfl
    simp only [StoreOp.after, StoreOp.exec, Store.heartbeatHostSession, Reply.ofFlag]
    rw [Table.get_updateWhere]
  | finalizeRecovery j n token et e => exact finalizer_sessions rfl
  | finalizeAttemptAndRun c => exact finalizer_sessions rfl
  | createRun j d f g h m p =>
    have hins : ∀ r, (Store.insertRun db r).1.hostSessions = db.hostSessions ∧
        (Store.insertRun db r).1.hosts = db.hosts := by
      intro r
      unfold Store.insertRun
      split <;> exact ⟨rfl, rfl⟩
    refine .same ?_
    simp only [StoreOp.after, StoreOp.exec, Store.createRun, Reply.ofCreate]
    split
    · exact hins _
    · split
      · exact ⟨rfl, rfl⟩
      · split
        · exact ⟨rfl, rfl⟩
        · exact hins _
  | updateRun j fields =>
    refine .same ?_
    simp only [StoreOp.after, StoreOp.exec, Store.updateRun]
    split <;> exact ⟨rfl, rfl⟩
  | recordAttempt j n st et e ap rc =>
    refine .same ?_
    simp only [StoreOp.after, StoreOp.exec, Store.recordAttempt, Reply.ofExcept]
    split <;> exact ⟨rfl, rfl⟩
  | enqueueExecutionRequest e j n h p =>
    refine .same ?_
    simp only [StoreOp.after, StoreOp.exec, Store.enqueueExecutionRequest, Reply.ofFlag]
    split <;> exact ⟨rfl, rfl⟩
  | claimExecutionRequest h s locked =>
    refine .same ?_
    simp only [StoreOp.after, StoreOp.exec, Store.claimExecutionRequest]
    split <;> exact ⟨rfl, rfl⟩
  | recordTerminationWitness e kind code ap detail =>
    refine .same ?_
    simp only [StoreOp.after, StoreOp.exec, Store.recordTerminationWitness, Reply.ofFlag]
    split
    · exact ⟨rfl, rfl⟩
    · split <;> exact ⟨rfl, rfl⟩
  | claimNextRun locked =>
    refine .same ?_
    cases b with
    | sqlite => exact ⟨rfl, rfl⟩
    | postgres =>
      simp only [StoreOp.after, StoreOp.exec, PostgresStore.claimNextRun]
      split <;> exact ⟨rfl, rfl⟩
  | releaseTerminalExecutionRequests => cases b <;> exact .same ⟨rfl, rfl⟩
  | countActiveExecutionRequests h => cases b <;> exact .same ⟨rfl, rfl⟩
  | _ => exact .same ⟨rfl, rfl⟩

/-! ## The invariant of the two tables -/

def Db.currentFor (db : Db) (host session : String) : Prop :=
  ∃ h, db.hosts.get host = some h ∧ h.currentSessionId = session

/-- **The current session of a host is a session of that host.** -/
def SessionsOwned (db : Db) : Prop :=
  ∀ host session, db.currentFor host session → ∃ s, db.hostSessions.get session = some s ∧ s.hostId = host

theorem sessionsOwned_empty : SessionsOwned Db.empty := by
  rintro host session ⟨h, hh, -⟩
  cases hh

/-- A session keeps its host. -/
theorem session_host_after (b : Backend) (now : Time) (db : Db) (op : StoreOp) {k : String} {s : HostSessionRow}
    (hs : db.hostSessions.get k = some s) :
    ∃ s', (op.after b now db).hostSessions.get k = some s' ∧ s'.hostId = s.hostId := by
  cases sessions_after b now db op with
  | same kept => exact ⟨s, by rw [kept.1, hs], rfl⟩
  | renewed x ttl _ hget _ =>
    have hk := hget k
    rw [hs, Option.map_some] at hk
    refine ⟨_, hk, ?_⟩
    split <;> rfl
  | started owner ttl hop hfresh =>
    subst hop
    have hne : owner.sessionId ≠ k := by
      intro h
      rw [h, hs] at hfresh
      cases hfresh
    have hk := (startHostSession_fresh b now ttl hfresh).get_session k
    rw [if_neg hne] at hk
    exact ⟨s, by rw [hk, hs], rfl⟩

/-- Where the current session of a host comes from. -/
theorem currentFor_after (b : Backend) (now : Time) (db : Db) (op : StoreOp) {host session : String}
    (h : (op.after b now db).currentFor host session) :
    db.currentFor host session ∨ (∃ owner ttl, op = .startHostSession owner ttl ∧
      db.hostSessions.get owner.sessionId = none ∧ owner.hostId = host ∧ owner.sessionId = session) := by
  obtain ⟨r, hr, hsess⟩ := h
  cases sessions_after b now db op with
  | same kept =>
    rw [kept.2] at hr
    exact Or.inl ⟨r, hr, hsess⟩
  | renewed x ttl _ _ hhosts =>
    rw [hhosts] at hr
    exact Or.inl ⟨r, hr, hsess⟩
  | started owner ttl hop hfresh =>
    subst hop
    rw [(startHostSession_fresh b now ttl hfresh).get_host] at hr
    by_cases hk : owner.hostId = host
    · rw [if_pos hk] at hr
      cases hr
      exact Or.inr ⟨owner, ttl, rfl, hfresh, hk, hsess⟩
    · rw [if_neg hk] at hr
      exact Or.inl ⟨r, hr, hsess⟩

theorem sessionsOwned_step (b : Backend) (now : Time) (db : Db) (op : StoreOp) (hi : SessionsOwned db) :
    SessionsOwned (op.after b now db) := by
  intro host session h
  rcases currentFor_after b now db op h with h | ⟨owner, ttl, rfl, hfresh, hhost, hsess⟩
  · obtain ⟨s, hs, hh⟩ := hi host session h
    obtain ⟨s', hs', hh'⟩ := session_host_after b now db op hs
    exact ⟨s', hs', hh'.trans hh⟩
  · have hget := (startHostSession_fresh b now ttl hfresh).get_session session
    rw [if_pos hsess] at hget
    exact ⟨_, hget, hhost⟩

theorem sessionsOwned_run {b : Backend} {cs : List Call} {db d : Db} (hi : SessionsOwned db)
    (h : Trace.run (Call.step b) db cs = some d) : SessionsOwned d := by
  refine Trace.run_preserves ?_ hi h
  intro s c s' hs hstep
  cases hstep
  exact sessionsOwned_step b c.now s c.op hs

/-! ## A session that was replaced -/

/-- The session is there, of the host it had, and is no host's current session. -/
structure Superseded (session : String) (db : Db) : Prop where
  known : (db.hostSessions.get session).isSome = true
  not_current : ∀ host, ¬ db.currentFor host session

/-- **No call makes it current again.** -/
theorem superseded_step (b : Backend) (now : Time) {session : String} (db : Db) (op : StoreOp)
    (hs : Superseded session db) : Superseded session (op.after b now db) := by
  obtain ⟨s, hget⟩ := Option.isSome_iff_exists.1 hs.known
  refine ⟨?_, fun host hcur => ?_⟩
  · obtain ⟨s', hs', -⟩ := session_host_after b now db op hget
    rw [hs']
    rfl
  · rcases currentFor_after b now db op hcur with h | ⟨owner, ttl, -, hfresh, -, hsess⟩
    · exact hs.not_current host h
    · rw [hsess, hget] at hfresh
      cases hfresh

theorem superseded_run {b : Backend} {session : String} {cs : List Call} {db d : Db} (hs : Superseded session db)
    (h : Trace.run (Call.step b) db cs = some d) : Superseded session d := by
  refine Trace.run_preserves ?_ hs h
  intro s c s' hs hstep
  cases hstep
  exact superseded_step b c.now s c.op hs

theorem Superseded.no_host {session : String} {db : Db} (hs : Superseded session db) :
    db.hosts.rows.any (fun h => decide (h.currentSessionId = session)) = false := by
  rw [List.any_eq_false]
  intro h hh hcur
  exact hs.not_current h.hostId ⟨h, db.hosts.get_of_mem hh, by simpa using hcur⟩

theorem Superseded.currentSession {session : String} {db : Db} (hs : Superseded session db) (p : HostSessionRow → Bool) :
    db.currentSession session p = false := by
  unfold Db.currentSession
  rw [List.any_eq_false]
  intro s _ h
  simp only [Bool.and_eq_true, decide_eq_true_eq] at h
  obtain ⟨⟨hcur, hk⟩, -⟩ := h
  rw [hk, hs.no_host] at hcur
  cases hcur

/-- What the fence refuses to a session: its heartbeat, the registration of an Attempt, a completion, and the refresh of
its queued deliveries. -/
structure Fenced (b : Backend) (session : String) (db : Db) : Prop where
  heartbeat : ∀ now ttl, (StoreOp.heartbeatHostSession session ttl).reply b now db = .flag false
  registration : ∀ now j n token owner e, owner.sessionId = session →
    (StoreOp.recordAttemptExecution j n token owner e).reply b now db = .flag false
  completion : ∀ now (c : Completion) owner, c.executionOwner = some owner → owner.sessionId = session →
    (StoreOp.finalizeAttemptAndRun c).reply b now db = .flag false
  refresh : ∀ now ttl, (StoreOp.heartbeatQueuedExecutionAttempts session ttl).exec b now db = (db, .rowcount 0)
  not_current : ∀ host, ¬ db.currentFor host session

theorem Superseded.isQueuedDelivery {session : String} {db : Db} (hs : Superseded session db) (now : Time)
    (a : AttemptRow) : Store.isQueuedDelivery db now session a = false := by
  simp [Store.isQueuedDelivery, hs.currentSession]

theorem Superseded.fenced {session : String} {db : Db} (hs : Superseded session db) (b : Backend) :
    Fenced b session db where
  heartbeat now ttl := by
    have hguard : ∀ s, Store.isCurrentSession db session s = false := by
      intro s
      by_cases h : s.sessionId = session
      · simp [Store.isCurrentSession, h, hs.no_host]
      · simp [Store.isCurrentSession, h]
    have hc : db.hostSessions.countWhere (Store.isCurrentSession db session) = 0 := by
      unfold Table.countWhere
      rw [List.countP_eq_zero]
      intro s _
      simp [hguard s]
    simp [StoreOp.reply, StoreOp.exec, Store.heartbeatHostSession, Reply.ofFlag, hc]
  registration now j n token owner e ho := by
    have hoff : ((Store.recordAttemptExecution db now j n token owner e).exec db).2 ≠ true := by
      intro h
      obtain ⟨a, -, hg⟩ := (AttemptUpdate.exec_true_iff _ _).1 h
      simp [Store.recordAttemptExecution, ho, hs.currentSession] at hg
    simp only [StoreOp.reply, StoreOp.exec, Reply.ofFlag]
    simpa using hoff
  completion now c owner ho hsess := by
    have hoff : ¬ (Store.completeAttempt db now c).Enabled db := by
      rintro ⟨a, -, hg⟩
      simp [Store.completeAttempt, Store.ownerClause, ho, hsess, hs.currentSession] at hg
    cases finalizer_cases b (rfl : (StoreOp.finalizeAttemptAndRun c).finalizer now db = some _) with
    | accepted he _ _ _ _ _ => exact absurd he hoff
    | noAttempt _ hreply _ => exact hreply
    | noRun _ _ hreply _ => exact hreply
  refresh now ttl := by
    have hc : db.attempts.countWhere (Store.isQueuedDelivery db now session) = 0 := by
      unfold Table.countWhere
      rw [List.countP_eq_zero]
      intro a _
      simp [hs.isQueuedDelivery now a]
    have hu : db.attempts.updateWhere (Store.isQueuedDelivery db now session) (AttemptRow.renew now ttl)
        (AttemptRow.renew_key now ttl) = db.attempts := by
      apply Table.updateWhere_eq_self
      intro a _ h
      rw [hs.isQueuedDelivery] at h
      cases h
    simp only [StoreOp.exec, Store.heartbeatQueuedExecutionAttempts, Reply.ofCount, hc, hu]
  not_current := hs.not_current

/-- **Once another session has started on its host, a session is superseded.** -/
theorem superseded_of_started {b : Backend} {now : Time} {db : Db} {owner : ExecutionOwner} {ttl : Time}
    {session : String} {s : HostSessionRow} (hi : SessionsOwned db) (hs : db.hostSessions.get session = some s)
    (hhost : s.hostId = owner.hostId) (hreply : (StoreOp.startHostSession owner ttl).reply b now db = .unit) :
    Superseded session ((StoreOp.startHostSession owner ttl).after b now db) := by
  have hfresh : db.hostSessions.get owner.sessionId = none := by
    cases h : db.hostSessions.get owner.sessionId with
    | none => rfl
    | some r =>
      rw [StoreOp.reply, startHostSession_taken b now ttl (by rw [h]; rfl)] at hreply
      cases hreply
  obtain ⟨s', hs', hsame⟩ := session_host_after b now db (.startHostSession owner ttl) hs
  refine ⟨by rw [hs']; rfl, fun host hcur => ?_⟩
  -- a host that has the session is the one whose session was just replaced
  obtain ⟨x, hx, hxhost⟩ := sessionsOwned_step b now db (.startHostSession owner ttl) hi host session hcur
  rw [hs'] at hx
  cases hx
  rw [hsame, hhost] at hxhost
  obtain ⟨r, hr, hsess⟩ := hcur
  rw [(startHostSession_fresh b now ttl hfresh).get_host, if_pos hxhost] at hr
  cases hr
  rw [← hsess, hfresh] at hs
  cases hs

/-- **A session that was its host's and saw another one start there is fenced for ever**, and no start under an id that is
taken changes anything. -/
theorem superseded_session_fenced (b : Backend) (before between after : List Call) (first at_ last : Db) (now ttl : Time)
    (owner : ExecutionOwner) (session : String) (hbefore : Trace.run (Call.step b) Db.empty before = some first)
    (hcur : first.currentFor owner.hostId session) (hbetween : Trace.run (Call.step b) first between = some at_)
    (hstart : (StoreOp.startHostSession owner ttl).reply b now at_ = .unit)
    (hafter : Trace.run (Call.step b) ((StoreOp.startHostSession owner ttl).after b now at_) after = some last) :
    Fenced b session last ∧
    ∀ now' owner' ttl', (last.hostSessions.get owner'.sessionId).isSome = true →
      (StoreOp.startHostSession owner' ttl').exec b now' last = (last, .raised .integrityError) := by
  have hfirst := sessionsOwned_run sessionsOwned_empty hbefore
  have hat := sessionsOwned_run hfirst hbetween
  obtain ⟨s, hs, hhost⟩ := hfirst owner.hostId session hcur
  have hkept : ∃ s', at_.hostSessions.get session = some s' ∧ s'.hostId = owner.hostId := by
    refine Trace.run_preserves (P := fun d => ∃ s', d.hostSessions.get session = some s' ∧ s'.hostId = owner.hostId) ?_
      ⟨s, hs, hhost⟩ hbetween
    rintro d c d' ⟨x, hx, hxhost⟩ hstep
    cases hstep
    obtain ⟨y, hy, hyhost⟩ := session_host_after b c.now d c.op hx
    exact ⟨y, hy, hyhost.trans hxhost⟩
  obtain ⟨s', hs', hhost'⟩ := hkept
  have hsup := superseded_of_started hat hs' hhost' hstart
  exact ⟨(superseded_run hsup hafter).fenced b, fun now' owner' ttl' h => startHostSession_taken b now' ttl' h⟩

def firstSession : ExecutionOwner := ⟨"host", "epoch-1", "session-1"⟩

def secondSession : ExecutionOwner := ⟨"host", "epoch-2", "session-2"⟩

def registeredDb : Db := (StoreOp.startHostSession firstSession 30).after .sqlite 0 Db.empty

theorem firstSession_fenced :
    Fenced .sqlite "session-1" ((StoreOp.startHostSession secondSession 30).after .sqlite 1 registeredDb) := by
  have hcur : registeredDb.currentFor "host" "session-1" := ⟨⟨"host", "epoch-1", "session-1", 0⟩, by rfl, rfl⟩
  have hstart : (StoreOp.startHostSession secondSession 30).reply .sqlite 1 registeredDb = .unit := by decide +kernel
  exact (superseded_session_fenced .sqlite [⟨0, .startHostSession firstSession 30⟩] [] [] registeredDb registeredDb _ 1 30
    secondSession "session-1" rfl hcur rfl hstart rfl).1

end EdaLab
