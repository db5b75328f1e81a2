import EdaLab.OneIdentity
/-!
# Conversation — `RetryingJobClient.submit` against `POST /jobs`

Between two requests of a client anyone may do anything to the store.  A 429 leaves the store as the request found it, so
of the requests of one `submit` the last alone can create a Run: `submit` returns where that request left the Run stored
with the hash of the spec, and raises where it left the store as it was, unless the answer of that request was lost.
-/
namespace EdaLab

open PyValue JobServer Transaction

/-! ## The loop of the client -/

/-- How far the loop comes: every answer before the `n`-th asks for a retry, and the `n`-th ends it or is the last. -/
structure Exchange.Reaches (x : Exchange) (client : JobClient) (replies : Nat → HttpReply) (random : Nat → ℚ)
    (retryNumber retriesLeft n : Nat) : Prop where
  within : n ≤ retriesLeft
  length : x.sent.length = n + 1
  retried : ∀ m < n, (replies (retryNumber + m)).ends = none
  slept : x.slept = (List.range n).map (fun m =>
    client.delay (replies (retryNumber + m)).retryAfterMs (random (retryNumber + m)))
  result : (replies (retryNumber + n)).ends = some x.result ∨
    ((replies (retryNumber + n)).ends = none ∧ n = retriesLeft ∧ x.result = .backpressureRetryExhausted)

/-- Only the loop itself gives up. -/
theorem HttpReply.ends_ne_exhausted (x : HttpReply) : x.ends ≠ some .backpressureRetryExhausted := by
  cases x with
  | returned body => intro h; cases h
  | httpError code retryable ms header =>
    simp only [ends]
    split <;> simp
  | failed => intro h; cases h

theorem JobClient.exchange_reaches (client : JobClient) (request : PostRequest) (replies : Nat → HttpReply)
    (random : Nat → ℚ) : ∀ retriesLeft retryNumber,
    ∃ n, (client.exchange request replies random retryNumber retriesLeft).Reaches client replies random retryNumber
      retriesLeft n := by
  intro retriesLeft
  induction retriesLeft with
  | zero =>
    intro retryNumber
    refine ⟨0, le_rfl, rfl, (fun m hm => absurd hm (Nat.not_lt_zero m)), rfl, ?_⟩
    cases hends : (replies retryNumber).ends with
    | some result => exact Or.inl (by simp [exchange, hends])
    | none => exact Or.inr ⟨rfl, rfl, by simp [exchange, hends]⟩
  | succ retriesLeft ih =>
    intro retryNumber
    cases hends : (replies retryNumber).ends with
    | some result =>
      refine ⟨0, Nat.zero_le _, ?_, (fun m hm => absurd hm (Nat.not_lt_zero m)), ?_, Or.inl ?_⟩ <;>
        simp [exchange, hends]
    | none =>
      obtain ⟨n, hwithin, hlength, hretried, hslept, hresult⟩ := ih (retryNumber + 1)
      refine ⟨n + 1, Nat.succ_le_succ hwithin, ?_, ?_, ?_, ?_⟩
      · simp only [exchange, hends, List.length_cons, hlength]
      · intro m hm
        cases m with
        | zero => exact hends
        | succ m =>
          have hprev := hretried m (Nat.lt_of_succ_lt_succ hm)
          rwa [Nat.add_right_comm] at hprev
      · simp only [exchange, hends, hslept, List.range_succ_eq_map, List.map_cons, List.map_map, Nat.add_zero]
        refine congrArg _ (List.map_congr_left (fun m _ => ?_))
        simp only [Function.comp_apply, Nat.succ_eq_add_one, Nat.add_assoc, Nat.add_comm 1 m]
      · rw [Nat.add_right_comm, Nat.add_assoc] at hresult
        simp only [exchange, hends]
        rcases hresult with hsome | ⟨hnone, rfl, hex⟩
        · exact Or.inl hsome
        · exact Or.inr ⟨hnone, rfl, hex⟩

/-! ## The server -/

/-- A request of a spec, as the server leaves it. -/
inductive Posted (rt : ServerRuntime) (s : TypedSpec) (d : ServerDb) : Handled × Conn ServerDb → Prop
  | accepted (spec : AnySpec) (specHash j : String) (row : RunRow) (d' : ServerDb) (coerced : s.coerced = .ok spec)
      (hashed : spec.specHash rt.sha256 = some specHash) (id_eq : column rt spec.jobId = .ok (some j))
      (stored : d'.central.runs.get j = some row) (same_hash : row.specHash = some specHash) :
      Posted rt s d (answer (.accepted (Store.getRun d'.central j)), .clean d')
  | full : Posted rt s d (answer .budgetExhausted, .clean d)
  | conflict : Posted rt s d (answer .conflict, .clean d)
  | badRequest (e : HttpError) : Posted rt s d (answer (.badRequest e), .clean d)
  | escaped (e : HttpError) (c : Conn ServerDb) (unchanged : c.committed = d) : Posted rt s d (escape e, c)

section Server

variable {rt : ServerRuntime} {svc : Service} {running : Nat} {now : Time} {d : ServerDb} {spec : AnySpec}
    {j specHash : String}

/-- An error of the INSERT leaves the committed database alone. -/
theorem submit_uninserted {e : HttpError} (h : spec.specHash rt.sha256 = some specHash)
    (hj : column rt spec.jobId = .ok (some j)) (hn : d.central.runs.get j = none)
    (hown : svc.maxInFlight.any (fun b => decide (b ≤ running)) = false)
    (hroom : svc.maxInFlight.any (fun b => decide (b ≤ inFlight d)) = false)
    (hins : insertRun rt now svc.maxInFlight.isNone specHash spec d = .error e) (he : e ≠ .inFlightBudgetExhausted) :
    ∃ c : Conn ServerDb, submit rt svc running now spec (.clean d) = (.error e, c) ∧ c.committed = d := by
  have hget := getRun_of_column (c := .clean d) hj
  have hview : Store.getRun (Conn.view (.clean d)).central j = none := by
    show (d.central.runs.get j).map _ = none
    rw [hn]
    rfl
  rw [hview] at hget
  refine ⟨if svc.maxInFlight.isNone then ⟨d, some d⟩ else .clean d, ?_, by split <;> rfl⟩
  simp only [submit, Action.bind_eq, hashOf_ok h, Action.ret]
  rw [hget]
  simp only [hown, Bool.false_eq_true, if_false, Action.bind_eq, backpressured, createRun_new svc.maxInFlight hj hn, hroom,
    hins]
  cases e with
  | inFlightBudgetExhausted => exact absurd rfl he
  | _ => rfl

/-- **What a request of a spec leaves**: the spec is accepted and stored, or the committed database is as it was. -/
theorem doPost_posted (s : TypedSpec) {r : PostRequest} (hpath : r.path = "/jobs") (hr : r.spec rt = s.coerced) :
    Posted rt s d (doPost rt svc running now r (.clean d)) := by
  simp only [doPost, hpath, ne_eq, not_true_eq_false, if_false, hr]
  cases hspec : s.coerced with
  | error e =>
    simp only
    by_cases he : e.isCaught = true
    · rw [if_pos he]
      exact .badRequest e
    · rw [if_neg he]
      exact .escaped e _ rfl
  | ok spec =>
    obtain ⟨t, ⟨⟨x, hx⟩, y, hy⟩, rfl⟩ := TypedSpec.coerced_ok hspec
    have hvalid := TypedSpec.any_valid t
    obtain ⟨specHash, hhash⟩ := specHash_text rt hvalid (x := x) (y := y) (by rw [← hx]; rfl) (by rw [← hy]; rfl)
    simp only
    rcases column_text rt hvalid.jobId with ⟨-, j, hj⟩ | ⟨-, hj⟩
    · cases hrow : d.central.runs.get j with
      | some row =>
        rw [submit_stored hhash hj (getRun_stored hrow), existing]
        by_cases hsame : row.specHash = some specHash
        · rw [if_neg (not_not.2 hsame), ← getRun_stored hrow]
          exact .accepted t.any specHash j row d hspec hhash hj hrow hsame
        · rw [if_pos hsame]
          exact .conflict
      | none =>
        by_cases hfull : svc.maxInFlight.any (fun b => decide (b ≤ running)) = true ∨
            svc.maxInFlight.any (fun b => decide (b ≤ inFlight d)) = true
        · rw [submit_full hhash hj hrow hfull]
          exact .full
        · obtain ⟨hown, hroom⟩ := not_or.1 hfull
          rw [Bool.not_eq_true] at hown hroom
          rcases insertRun_text now specHash svc.maxInFlight.isNone hvalid hj hrow with
            ⟨-, d', row, hins, hget, hsame⟩ | ⟨-, hins⟩
          · rw [(submit_new now hhash hj hrow hown hroom).1 d' hins]
            exact .accepted t.any specHash j row d' hspec hhash hj hget hsame
          · obtain ⟨c, hsubmit, hc⟩ := submit_uninserted hhash hj hrow hown hroom hins (fun h => by cases h)
            rw [hsubmit]
            exact .escaped _ c hc
    · rw [submit_unbound hhash hj]
      exact .escaped _ _ rfl

end Server

/-! ## The conversation -/

theorem JobServer.retryAfterMs_nonneg {seconds : ℚ} (h : 0 < seconds) {ms : ℤ} (hms : retryAfterMs seconds = some ms) :
    0 ≤ ms := by
  unfold retryAfterMs PyFloat.ofRat at hms
  by_cases hlt : |PyFloat.nearest (seconds * 1000)| < 2 ^ 1024
  · rw [if_pos hlt] at hms
    cases hms
    exact PyFloat.le_roundHalfEven (by exact_mod_cast PyFloat.nearest_nonneg (mul_nonneg h.le (by norm_num)))
  · rw [if_neg hlt] at hms
    cases hms

-- the client of a service that asks for 0.3 s sleeps less than the header says
example : JobServer.retryAfterMs (3 / 10) = some 300 ∧ JobServer.retryAfter (3 / 10) = 1 := by decide +kernel

/-- A service behind `POST /jobs`, and what happens around the requests of one `submit`; `seconds` are its
`backpressure_retry_after_seconds`, `body` is what `json.loads` makes of the Run that is sent back. -/
structure Conversation where
  rt          : ServerRuntime
  svc         : Service
  seconds     : ℚ
  seconds_pos : 0 < seconds
  body        : Option RunView → PyValue
  meanwhile   : Nat → ServerDb → ServerDb   -- what everyone else does to the store before the n-th request
  running     : Nat → Nat
  now         : Nat → Time
  lost        : Nat → Bool                  -- the n-th answer never arrives

namespace Conversation

variable (v : Conversation)

/-- What the client makes of the one response that was sent. -/
def read (h : Handled) : HttpReply :=
  match h.sent with
  | [.accepted run]    => .returned (v.body run)
  | [.budgetExhausted] =>
    match retryAfterMs v.seconds with
    | some ms => .httpError 429 true ms (some (retryAfter v.seconds))
    | none    => .failed   -- an OverflowError: nothing is sent
  | [.conflict]        => .httpError 409 false 0 none
  | [.badRequest _]    => .httpError 400 false 0 none
  | [.notFound]        => .httpError 404 false 0 none
  | _                  => .failed

def post (r : PostRequest) (n : Nat) (d : ServerDb) : Handled × Conn ServerDb :=
  doPost v.rt.utf8 v.svc (v.running n) (v.now n) r (.clean d)

/-- The store the `n`-th request finds, all those before it sent. -/
def found (r : PostRequest) (d : ServerDb) : Nat → ServerDb
  | 0     => v.meanwhile 0 d
  | n + 1 => v.meanwhile (n + 1) (v.post r n (found r d n)).2.committed

/-- The store it leaves. -/
def left (r : PostRequest) (d : ServerDb) (n : Nat) : ServerDb := (v.post r n (v.found r d n)).2.committed

def replies (r : PostRequest) (d : ServerDb) (n : Nat) : HttpReply :=
  if v.lost n then .failed else v.read (v.post r n (v.found r d n)).1

/-- The `n`-th request left the Run of the spec in the store, under its id and with its hash. -/
def Stored (s : TypedSpec) (r : PostRequest) (d : ServerDb) (n : Nat) (j : String) : Prop :=
  ∃ spec specHash row, s.coerced = .ok spec ∧ spec.specHash v.rt.sha256 = some specHash ∧
    column v.rt.utf8 spec.jobId = .ok (some j) ∧ (v.left r d n).central.runs.get j = some row ∧ row.specHash = some specHash

/-- How a `submit` ends whose last request was the `n`-th. -/
inductive Ended (s : TypedSpec) (r : PostRequest) (d : ServerDb) (n : Nat) : ClientResult → Prop
  | returned (j : String) (stored : v.Stored s r d n j) :
      Ended s r d n (.returned (v.body (Store.getRun (v.left r d n).central j)))
  | raised (unchanged : v.left r d n = v.found r d n) : Ended s r d n .raised
  | exhausted (unchanged : v.left r d n = v.found r d n) : Ended s r d n .backpressureRetryExhausted
  | unanswered (was_lost : v.lost n = true)
      (either : (∃ j, v.Stored s r d n j) ∨ v.left r d n = v.found r d n) : Ended s r d n .raised

variable {v}

section

variable {s : TypedSpec} {r : PostRequest} {d : ServerDb} {n : Nat}

/-- What the `n`-th request left, and what was sent back for it. -/
theorem post_cases (hpath : r.path = "/jobs") (hr : r.spec v.rt.utf8 = s.coerced) :
    (∃ j, v.Stored s r d n j ∧
      v.read (v.post r n (v.found r d n)).1 = .returned (v.body (Store.getRun (v.left r d n).central j))) ∨
    (v.left r d n = v.found r d n ∧
      ((∃ ms, retryAfterMs v.seconds = some ms ∧
        v.read (v.post r n (v.found r d n)).1 = .httpError 429 true ms (some (retryAfter v.seconds))) ∨
      (v.read (v.post r n (v.found r d n)).1).ends = some .raised)) := by
  have hposted : Posted v.rt.utf8 s (v.found r d n) (v.post r n (v.found r d n)) := doPost_posted s hpath hr
  have hleft : v.left r d n = (v.post r n (v.found r d n)).2.committed := rfl
  generalize v.post r n (v.found r d n) = x at hposted hleft
  cases hposted with
  | accepted spec specHash j row d' hcoerced hhash hj hrow hsame =>
    have hd : v.left r d n = d' := hleft
    rw [← hd] at hrow ⊢
    exact Or.inl ⟨j, ⟨spec, specHash, row, hcoerced, hhash, hj, hrow, hsame⟩, rfl⟩
  | full =>
    refine Or.inr ⟨hleft, ?_⟩
    cases hms : retryAfterMs v.seconds with
    | some ms => exact Or.inl ⟨ms, rfl, by simp only [read, answer, hms]⟩
    | none => exact Or.inr (by simp only [read, answer, hms, HttpReply.ends])
  | conflict => exact Or.inr ⟨hleft, Or.inr rfl⟩
  | badRequest e => exact Or.inr ⟨hleft, Or.inr rfl⟩
  | escaped e c hc => exact Or.inr ⟨hleft.trans hc, Or.inr rfl⟩

/-- **An answer that asks for a retry was to a request that changed nothing**, and says when to try again. -/
theorem left_of_retry (hpath : r.path = "/jobs") (hr : r.spec v.rt.utf8 = s.coerced)
    (h : (v.replies r d n).ends = none) :
    v.left r d n = v.found r d n ∧ retryAfterMs v.seconds = some (v.replies r d n).retryAfterMs := by
  unfold replies at h ⊢
  split at h
  · cases h
  · rename_i hlost
    rw [if_neg hlost]
    rcases post_cases (n := n) hpath hr with ⟨j, -, hread⟩ | ⟨hsame, ⟨ms, hms, hread⟩ | hends⟩
    · rw [hread] at h
      cases h
    · rw [hread]
      exact ⟨hsame, hms⟩
    · rw [hends] at h
      cases h

/-- **The last request is all or nothing.** -/
theorem ended_of_result (hpath : r.path = "/jobs") (hr : r.spec v.rt.utf8 = s.coerced) {result : ClientResult}
    (h : (v.replies r d n).ends = some result) : v.Ended s r d n result := by
  unfold replies at h
  split at h
  · rename_i hlost
    cases h
    refine .unanswered hlost ?_
    rcases post_cases (n := n) hpath hr with ⟨j, hstored, -⟩ | ⟨hsame, -⟩
    · exact Or.inl ⟨j, hstored⟩
    · exact Or.inr hsame
  · rcases post_cases (n := n) hpath hr with ⟨j, hstored, hread⟩ | ⟨hsame, ⟨ms, hms, hread⟩ | hends⟩
    · rw [hread] at h
      cases h
      exact .returned j hstored
    · rw [hread] at h
      cases h
    · rw [hends] at h
      cases h
      exact .raised hsame

end

/-- **A `submit` over HTTP is all or nothing.**  Whatever is done to the store between its requests, those but the last
leave it as they found it; the last either left the Run there with the hash of the spec, which `submit` returns, or left the
store as it found it, and `submit` raised; or its answer was lost.  Between two requests it waits at least the milliseconds
the answer asks for, which are the seconds of the service. -/
theorem submit_all_or_nothing (v : Conversation) (client : JobClient) {s : TypedSpec} (hw : s.Writable) (d : ServerDb)
    {random : Nat → ℚ} (hrandom : ∀ n, 0 ≤ random n) :
    ∃ text, (PyValue.object s.any.payload).dumps .spaced = some text ∧
    let r := JobClient.jobsRequest text
    ∃ x n, client.submit s.any (v.replies r d) random = some x ∧ x.sent = List.replicate (n + 1) r ∧
      n ≤ client.maxBackpressureRetries ∧ (∀ m < n, v.left r d m = v.found r d m) ∧ v.Ended s r d n x.result ∧
      (x.result = .backpressureRetryExhausted → n = client.maxBackpressureRetries) ∧
      x.slept.length = n ∧
      ∀ t ∈ x.slept, ∃ ms, retryAfterMs v.seconds = some ms ∧ PyFloat.nearest (ms / 1000) ≤ t := by
  obtain ⟨text, htext, hspec⟩ := TypedSpec.request_spec v.rt hw
  refine ⟨text, htext, ?_⟩
  intro r
  obtain ⟨n, hreach⟩ := client.exchange_reaches r (v.replies r d) random client.maxBackpressureRetries 0
  have hretried : ∀ m < n, v.left r d m = v.found r d m ∧
      retryAfterMs v.seconds = some (v.replies r d m).retryAfterMs := by
    intro m hm
    have hnone := hreach.retried m hm
    rw [Nat.zero_add] at hnone
    exact left_of_retry rfl hspec hnone
  refine ⟨_, n, by rw [JobClient.submit, htext, Option.map_some], ?_, hreach.within, (fun m hm => (hretried m hm).1), ?_, ?_,
    ?_, ?_⟩
  · exact List.eq_replicate_iff.2 ⟨hreach.length, (JobClient.exchange_sent _ _ _ _ _ _).2.2⟩
  · have hresult := hreach.result
    rw [Nat.zero_add] at hresult
    rcases hresult with hsome | ⟨hnone, -, hexhausted⟩
    · exact ended_of_result rfl hspec hsome
    · rw [hexhausted]
      exact .exhausted (left_of_retry rfl hspec hnone).1
  · intro hexhausted
    rcases hreach.result with hsome | ⟨-, hn, -⟩
    · exact absurd (hsome.trans (congrArg some hexhausted)) (HttpReply.ends_ne_exhausted _)
    · exact hn
  · rw [hreach.slept, List.length_map, List.length_range]
  · intro t ht
    rw [hreach.slept] at ht
    obtain ⟨m, hm, rfl⟩ := List.mem_map.1 ht
    have hms := (hretried m (List.mem_range.1 hm)).2
    refine ⟨_, hms, ?_⟩
    rw [Nat.zero_add]
    exact client.le_delay (retryAfterMs_nonneg v.seconds_pos hms) (hrandom m)

/-- A service with room for one Run, which someone empties before the second request. -/
def oneSlot : Conversation where
  rt          := TypedSpec.spelledRuntime
  svc         := { TypedSpec.openService with maxInFlight := some 1 }
  seconds     := 3 / 10
  seconds_pos := div_pos (Nat.cast_pos.2 (Nat.succ_pos 2)) (Nat.cast_pos.2 (Nat.succ_pos 9))
  body        := fun _ => .null
  meanwhile   := fun n d => if n = 1 then ⟨.empty, []⟩ else d
  running     := fun _ => 0
  now         := fun n => n
  lost        := fun _ => false

theorem oneSlot_all_or_nothing : ∃ text, (PyValue.object (TypedSpec.floatSpec "job").any.payload).dumps .spaced = some text ∧
    let r := JobClient.jobsRequest text
    let d : ServerDb := ⟨.empty, [⟨"d", "i", "f", "h", 0⟩]⟩
    ∃ x n, (⟨3, 0, le_rfl⟩ : JobClient).submit (TypedSpec.floatSpec "job").any (oneSlot.replies r d)
        (fun _ => 1 / 2) = some x ∧ x.sent = List.replicate (n + 1) r ∧
      n ≤ 3 ∧ (∀ m < n, oneSlot.left r d m = oneSlot.found r d m) ∧
        oneSlot.Ended (TypedSpec.floatSpec "job") r d n x.result ∧
      (x.result = .backpressureRetryExhausted → n = 3) ∧ x.slept.length = n ∧
      ∀ t ∈ x.slept, ∃ ms, retryAfterMs (3 / 10) = some ms ∧ PyFloat.nearest (ms / 1000) ≤ t :=
  submit_all_or_nothing oneSlot ⟨3, 0, le_rfl⟩
    (TypedSpec.AllFloats.writable ⟨⟨_, rfl⟩, _, rfl⟩) ⟨.empty, [⟨"d", "i", "f", "h", 0⟩]⟩ (fun _ => by norm_num)

end Conversation

end EdaLab
