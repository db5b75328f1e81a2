import EdaLab.FloatOrder
import EdaLab.JobServer
/-!
# JobClient — `RetryingJobClient`

One request is sent again while the server answers that its budget is used up, `retry_after_ms` and a jitter later; the
header `Retry-After` of the answer is not read.  Whatever the server answers, every request that is sent is the same one
(`exchange_sent`).  A delay is a double: each of its operations rounds.
-/
namespace EdaLab

structure JobClient where
  maxBackpressureRetries : Nat
  jitterSeconds          : ℚ
  jitterSeconds_nonneg   : 0 ≤ jitterSeconds

/-- What comes back for a request; `retryAfter` is the header. -/
inductive HttpReply
  | returned (body : PyValue)
  | httpError (code : Nat) (retryable : Bool) (retryAfterMs : ℤ) (retryAfter : Option ℤ)
  | failed   -- no answer, or one that is not read

inductive ClientResult
  | returned (body : PyValue)
  | raised
  | backpressureRetryExhausted

/-- What ends the loop: anything but a 429 that may be retried. -/
def HttpReply.ends : HttpReply → Option ClientResult
  | returned body                => some (.returned body)
  | httpError code retryable _ _ => if code ≠ 429 ∨ retryable = false then some .raised else none
  | failed                       => some .raised

def HttpReply.retryAfterMs : HttpReply → ℤ
  | httpError _ _ ms _ => ms
  | _                  => 0

structure Exchange where
  sent   : List JobServer.PostRequest
  slept  : List ℚ
  result : ClientResult

namespace JobClient

variable (client : JobClient)

/-- `response["retry_after_ms"] / 1000 + self.random_float() * self.jitter_seconds`. -/
def delay (ms : ℤ) (random : ℚ) : ℚ :=
  PyFloat.nearest (PyFloat.nearest (ms / 1000) + PyFloat.nearest (random * client.jitterSeconds))

/-- `retriesLeft` counts down from `max_backpressure_retries`; `random` is what `random_float` gives. -/
def exchange (request : JobServer.PostRequest) (replies : Nat → HttpReply) (random : Nat → ℚ) : Nat → Nat → Exchange
  | retryNumber, 0               => ⟨[request], [], (replies retryNumber).ends.getD .backpressureRetryExhausted⟩
  | retryNumber, retriesLeft + 1 =>
    match (replies retryNumber).ends with
    | some result => ⟨[request], [], result⟩
    | none        =>
      let rest := exchange request replies random (retryNumber + 1) retriesLeft
      { sent   := request :: rest.sent
        slept  := client.delay (replies retryNumber).retryAfterMs (random retryNumber) :: rest.slept
        result := rest.result }

/-- A POST of a JSON text. -/
def jobsRequest (text : List Char) : JobServer.PostRequest where
  path   := "/jobs"
  length := .ok (String.ofList text).toByteArray.data.toList.length
  body   := (String.ofList text).toByteArray.data.toList

/-- `submit`; `none` where `json.dumps` raises. -/
def submit (spec : AnySpec) (replies : Nat → HttpReply) (random : Nat → ℚ) : Option Exchange :=
  ((PyValue.object spec.payload).dumps .spaced).map
    (fun text => client.exchange (jobsRequest text) replies random 0 client.maxBackpressureRetries)

variable {client}

/-- **A delay is as long as the answer asks for**; the jitter only adds to it. -/
theorem le_delay (client : JobClient) {ms : ℤ} (hms : 0 ≤ ms) {random : ℚ} (hrandom : 0 ≤ random) :
    PyFloat.nearest (ms / 1000) ≤ client.delay ms random := by
  have hasked : 0 ≤ (ms : ℚ) / 1000 := div_nonneg (Int.cast_nonneg hms) (by norm_num)
  have hjitter : 0 ≤ random * client.jitterSeconds := mul_nonneg hrandom client.jitterSeconds_nonneg
  exact PyFloat.nearest_le_nearest_add hasked (PyFloat.nearest_nonneg hjitter)

/-- A request whose body is a text in UTF-8. -/
theorem jobsRequest_spec {rt : ServerRuntime} {text : List Char} {data : PyValue} (hrt : rt.loads = loadUtf8)
    (h : PyValue.loads text = some data) : (jobsRequest text).spec rt = readSpec data := by
  have hload : rt.loads (String.ofList text).toByteArray.data.toList = .ok data := by
    rw [hrt, loadUtf8, fromUTF8_bytes]
    simp only [String.toList_ofList, h]
  have hbytes : (jobsRequest text).bytes = .ok (String.ofList text).toByteArray.data.toList := by
    simp [JobServer.PostRequest.bytes, jobsRequest, bind, Except.bind, pure, Except.pure]
  exact JobServer.PostRequest.spec_of_loads hbytes hload

/-- **Every request is the same one**, and there are at most as many as retries and one. -/
theorem exchange_sent (client : JobClient) (request : JobServer.PostRequest) (replies : Nat → HttpReply) (random : Nat → ℚ) :
    ∀ retriesLeft retryNumber, let sent := (client.exchange request replies random retryNumber retriesLeft).sent
      sent ≠ [] ∧ sent.length ≤ retriesLeft + 1 ∧ ∀ r ∈ sent, r = request := by
  intro retriesLeft
  induction retriesLeft with
  | zero =>
    intro retryNumber
    simp [exchange]
  | succ retriesLeft ih =>
    intro retryNumber
    obtain ⟨-, hlen, hsame⟩ := ih (retryNumber + 1)
    unfold exchange
    cases (replies retryNumber).ends with
    | some result => simp
    | none =>
      refine ⟨by simp, by simpa using hlen, ?_⟩
      intro r hr
      rcases List.mem_cons.1 hr with rfl | hr
      · rfl
      · exact hsame r hr

end JobClient

end EdaLab
