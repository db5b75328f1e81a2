import EdaLab.FloatOrder
import EdaLab.JobClient
/-!
# OneIdentity — one spec, submitted directly and over HTTP

`do_POST` reads every number as a float, so the spec it submits is the caller's with its surrogate pairs joined and its
integers turned into floats (`request_spec`), and it hashes like the caller's exactly when the caller's numbers are floats
(`samePath_iff`); with an integer for a number the other path is a conflict (`conflict_of_int`).  `oneIdentity_iff` says
when the hash of a spec is its identity.
-/
namespace EdaLab

open PyValue JobServer Transaction

namespace TypedSpec

variable {s t : TypedSpec}

/-- The spec with its surrogate pairs joined. -/
def joined (s : TypedSpec) : TypedSpec where
  jobId           := s.jobId.joined
  designId        := s.designId.joined
  ipFamily        := s.ipFamily.joined
  flowName        := s.flowName.joined
  corner          := s.corner.joined
  worstSlack      := s.worstSlack
  unit            := s.unit.joined
  durationSeconds := s.durationSeconds

theorem joined_joined (k : PyStr) : k.joined.joined = k.joined := (escaped_eq_iff k.joined k).1 (escaped_joined k)

theorem sameJoined_joined (s : TypedSpec) : s.SameJoined s.joined where
  jobId    := (joined_joined s.jobId).symm
  designId := (joined_joined s.designId).symm
  ipFamily := (joined_joined s.ipFamily).symm
  flowName := (joined_joined s.flowName).symm
  corner   := (joined_joined s.corner).symm
  unit     := (joined_joined s.unit).symm

/-! ## The spec of a request -/

/-- What `do_POST` makes of a spec that was sent. -/
def coerced (s : TypedSpec) : Except HttpError AnySpec := do
  let worstSlack ← s.worstSlack.value.toFloat
  let durationSeconds ← s.durationSeconds.value.toFloat
  return { s.joined.any with worstSlack := .float worstSlack, durationSeconds := .float durationSeconds }

theorem readSpec_sorted (s : TypedSpec) : readSpec (.object (dict (s.sorted.map memberBack))) = s.coerced := by
  have hback : s.sorted.map memberBack = s.joined.sorted := by
    simp only [sorted, joined, List.map_cons, List.map_nil, memberBack, s.worstSlack.isNumber.readBack_eq,
      s.durationSeconds.isNumber.readBack_eq, readBack_str]
    rfl
  rw [hback]
  rfl

/-- **Every request of the client is read as the coerced spec.** -/
theorem request_spec (rt : ServerRuntime) (hw : s.Writable) :
    ∃ text, (PyValue.object s.any.payload).dumps .spaced = some text ∧
    (JobClient.jobsRequest text).spec rt.utf8 = s.coerced := by
  rcases dumps_payload .spaced rfl s with ⟨-, ts, hts, hdumps⟩ | ⟨hno, -⟩
  · refine ⟨_, hdumps, ?_⟩
    rw [JobClient.jobsRequest_spec rfl (loads_flat spaced_separates hts (by simp [sorted])), readSpec_sorted]
  · exact absurd hw hno

/-! ## The two paths -/

theorem rounded_ok {x : PyFloat} {y : PyDouble} (h : rounded x = .ok y) : ∃ q, x = .finite q ∧ y = .finite q := by
  cases x with
  | finite q => exact ⟨q, rfl, (Except.ok.inj h).symm⟩
  | inf n => cases h
  | nan => cases h

theorem toFloat_isNumber {v : PyValue} {x : PyDouble} (h : v.IsNumber) (hx : v.toFloat = .ok x) :
    (PyValue.float x).IsNumber := by
  cases v with
  | int i =>
    obtain ⟨q, hrat, rfl⟩ := rounded_ok hx
    have hdouble : PyFloat.IsDouble q := PyFloat.isDouble_of_ofRat hrat
    exact hdouble
  | float y => cases hx; exact h
  | _ => cases h

/-- Both numbers are floats. -/
structure AllFloats (s : TypedSpec) : Prop where
  worstSlack      : ∃ x, s.worstSlack.value = .float x
  durationSeconds : ∃ x, s.durationSeconds.value = .float x

theorem AllFloats.writable (h : s.AllFloats) : s.Writable := by
  obtain ⟨⟨x, hx⟩, y, hy⟩ := h
  exact ⟨by rw [hx]; trivial, by rw [hy]; trivial⟩

theorem AllFloats.coerced (h : s.AllFloats) : s.coerced = .ok s.joined.any := by
  obtain ⟨⟨x, hx⟩, y, hy⟩ := h
  simp only [TypedSpec.coerced, hx, hy, toFloat]
  show Except.ok _ = _
  simp only [any, joined, hx, hy]

/-- A spec that `do_POST` read. -/
theorem coerced_ok {spec : AnySpec} (h : s.coerced = .ok spec) : ∃ t : TypedSpec, t.AllFloats ∧ t.any = spec := by
  unfold coerced at h
  cases hx : s.worstSlack.value.toFloat with
  | error e => rw [hx] at h; cases h
  | ok x =>
    cases hy : s.durationSeconds.value.toFloat with
    | error e => rw [hx, hy] at h; cases h
    | ok y =>
      rw [hx, hy] at h
      obtain rfl := Except.ok.inj h
      exact ⟨{ s.joined with
        worstSlack := ⟨.float x, toFloat_isNumber s.worstSlack.isNumber hx⟩
        durationSeconds := ⟨.float y, toFloat_isNumber s.durationSeconds.isNumber hy⟩ }, ⟨⟨x, rfl⟩, y, rfl⟩, rfl⟩

theorem coerced_jobId {spec : AnySpec} (h : s.coerced = .ok spec) : spec.jobId = .str s.jobId.joined := by
  unfold coerced at h
  cases hx : s.worstSlack.value.toFloat with
  | error e => rw [hx] at h; cases h
  | ok x =>
    cases hy : s.durationSeconds.value.toFloat with
    | error e => rw [hx, hy] at h; cases h
    | ok y =>
      rw [hx, hy] at h
      obtain rfl := Except.ok.inj h
      rfl

/-- **Directly or over HTTP, whatever the server answers in between, the spec hashes alike.** -/
def SamePath (rt : ServerRuntime) (s : TypedSpec) : Prop := ∃ h, s.any.specHash rt.sha256 = some h ∧
  ∀ (client : JobClient) (replies : Nat → HttpReply) (random : Nat → ℚ), ∃ x, client.submit s.any replies random = some x ∧
    x.sent ≠ [] ∧ ∀ r ∈ x.sent, ∃ spec, r.spec rt.utf8 = .ok spec ∧ spec.specHash rt.sha256 = some h

theorem samePath_iff {rt : ServerRuntime} (hsha : Function.Injective rt.sha256) (s : TypedSpec) :
    s.SamePath rt ↔ s.AllFloats := by
  constructor
  · rintro ⟨h, hhash, hpath⟩
    have hw : s.Writable := ((specHash_eq_iff hsha s s).1 ⟨h, hhash, hhash⟩).1
    obtain ⟨text, htext, hspec⟩ := request_spec rt hw
    obtain ⟨x, hx, hne, hall⟩ := hpath ⟨0, 0, le_rfl⟩ (fun _ => .failed) (fun _ => 0)
    rw [JobClient.submit, htext, Option.map_some, Option.some.injEq] at hx
    subst hx
    obtain ⟨r, hr⟩ := List.exists_mem_of_ne_nil _ hne
    obtain ⟨spec, hread, hhash'⟩ := hall r hr
    rw [(JobClient.exchange_sent _ _ _ _ _ _).2.2 r hr, hspec] at hread
    obtain ⟨t, ht, rfl⟩ := coerced_ok hread
    have hn := ((specHash_eq_iff hsha s t).1 ⟨h, hhash, hhash'⟩).2.1
    obtain ⟨⟨x, hx⟩, y, hy⟩ := ht
    exact ⟨⟨x, hn.worstSlack.trans hx⟩, y, hn.durationSeconds.trans hy⟩
  · intro hf
    obtain ⟨h, hhash, hjoined⟩ := (specHash_eq_iff hsha s s.joined).2 ⟨hf.writable, ⟨rfl, rfl⟩, sameJoined_joined s⟩
    refine ⟨h, hhash, ?_⟩
    intro client replies random
    obtain ⟨text, htext, hspec⟩ := request_spec rt hf.writable
    have hsent := JobClient.exchange_sent client (JobClient.jobsRequest text) replies random
      client.maxBackpressureRetries 0
    refine ⟨_, by rw [JobClient.submit, htext]; rfl, hsent.1, ?_⟩
    intro r hr
    refine ⟨s.joined.any, ?_, hjoined⟩
    rw [hsent.2.2 r hr, hspec, hf.coerced]

/-! ## Submitting again by the other path -/

theorem joined_of_encoded {k : PyStr} (h : k.encoded.isSome = true) : k.joined = k := by
  have hall : ∀ c ∈ k, c.isSurrogate = false := by
    unfold PyStr.encoded at h
    split at h
    · rename_i hall
      simpa using hall
    · cases h
  clear h
  induction k using PyStr.joined.induct with
  | case1 u l k hpair _ =>
    have hhigh : u.isHigh = true := (Bool.and_eq_true_iff.1 hpair).1
    have hu := hall u List.mem_cons_self
    simp only [CodePoint.isHigh, CodePoint.isSurrogate, decide_eq_true_eq, decide_eq_false_iff_not] at hhigh hu
    omega
  | case2 u l k hpair ih =>
    rw [PyStr.joined, if_neg hpair, ih (fun c hc => hall c (List.mem_cons_of_mem u hc))]
  | case3 k hk =>
    rw [PyStr.joined]
    exact hk

/-- How a spec gets to `submit`. -/
inductive Entry
  | direct
  | http

/-- What `submit` is called with. -/
def Entry.Submits (rt : ServerRuntime) (s : TypedSpec) (spec : AnySpec) : Entry → Prop
  | direct => spec = s.any
  | http   => ∃ (client : JobClient) (replies : Nat → HttpReply) (random : Nat → ℚ) (x : Exchange),
    client.submit s.any replies random = some x ∧ ∃ r ∈ x.sent, r.spec rt.utf8 = .ok spec

/-- A job that one path had accepted as a new one is answered on the other with the Run that is there, however much later
and by whatever service, as long as its Run is kept. -/
def Resubmitted (rt : ServerRuntime) (s : TypedSpec) : Prop :=
  ∀ (e e' : Entry) (spec spec' : AnySpec), e ≠ e' → e.Submits rt s spec → e'.Submits rt s spec' →
    ∀ (svc svc' : Service) (running running' : Nat) (now now' : Time) (d d' : ServerDb) (a : Submitted) (c : Conn ServerDb),
      (∀ j, column rt spec.jobId = .ok (some j) → d.central.runs.get j = none) →
      submit rt svc running now spec (.clean d) = (.ok a, c) →
      (∀ j r, c.committed.central.runs.get j = some r → ∃ r', d'.central.runs.get j = some r' ∧ r'.specHash = r.specHash) →
      ∃ j v, column rt (.str s.jobId) = .ok (some j) ∧ Store.getRun d'.central j = some v ∧
        submit rt svc' running' now' spec' (.clean d') = (.ok ⟨some v, false⟩, .clean d')

theorem any_valid (s : TypedSpec) : s.any.IsValid := ⟨trivial, trivial, trivial, trivial, trivial, trivial⟩

theorem submits_http {rt : ServerRuntime} (hw : s.Writable) (spec : AnySpec) :
    Entry.http.Submits rt s spec ↔ s.coerced = .ok spec := by
  obtain ⟨text, htext, hspec⟩ := request_spec rt hw
  constructor
  · rintro ⟨client, replies, random, x, hx, r, hr, hread⟩
    rw [JobClient.submit, htext, Option.map_some, Option.some.injEq] at hx
    subst hx
    rw [(JobClient.exchange_sent _ _ _ _ _ _).2.2 r hr, hspec] at hread
    exact hread
  · intro h
    refine ⟨⟨0, 0, le_rfl⟩, fun _ => .failed, fun _ => 0, _, by rw [JobClient.submit, htext]; rfl, _,
      List.mem_singleton_self _, ?_⟩
    rw [hspec, h]

theorem column_str {rt : ServerRuntime} {k : PyStr} {j : String} (h : column rt (.str k) = .ok (some j)) :
    k.encoded = some j := by
  simp only [column, PyValue.parameter] at h
  cases hk : k.encoded with
  | none => rw [hk] at h; cases h
  | some t =>
    have hcol : (Except.ok (some t) : Except HttpError (Option String)) = .ok (some j) := by rwa [hk] at h
    rw [Option.some.inj (Except.ok.inj hcol)]

/-- Where the spec that was sent is stored, the id of the caller's can be looked up. -/
def SameId (s : TypedSpec) : Prop := s.joined.any.jobId.Encodes → s.joined.any.Encodes → s.any.jobId.Encodes

theorem resubmitted_of_floats {rt : ServerRuntime} (hsha : Function.Injective rt.sha256) (hf : s.AllFloats)
    (hid : s.SameId) : s.Resubmitted rt := by
  obtain ⟨h, hhash, hjoined⟩ := (specHash_eq_iff hsha s s.joined).2 ⟨hf.writable, ⟨rfl, rfl⟩, sameJoined_joined s⟩
  have hcoerced : ∀ spec, Entry.http.Submits rt s spec → spec = s.joined.any := by
    intro spec hspec
    rw [submits_http hf.writable, hf.coerced] at hspec
    exact (Except.ok.inj hspec).symm
  intro e e' spec spec' hne hsub hsub' svc svc' running running' now now' d d' a c hnew hok hkeep
  -- the id under which the first path stored the Run, which is the caller's own
  have hfirst : ∃ j r, column rt (.str s.jobId) = .ok (some j) ∧ s.jobId.joined = s.jobId ∧
      c.committed.central.runs.get j = some r ∧ r.specHash = some h := by
    cases e with
    | direct =>
      obtain rfl : spec = s.any := hsub
      obtain ⟨j, r, hj, hr, hrh⟩ := submit_ok (any_valid s) hhash hok
      exact ⟨j, r, hj, joined_of_encoded (by rw [column_str hj]; rfl), hr, hrh⟩
    | http =>
      obtain rfl := hcoerced spec hsub
      obtain ⟨j, r, hj, hr, hrh⟩ := submit_ok (any_valid s.joined) hjoined hok
      have henc := submit_encodes (any_valid s.joined) hjoined hj (hnew j hj) hok
      have hkey : s.jobId.joined.encoded = some j := column_str hj
      have hown : s.any.jobId.Encodes := hid (by
        show s.jobId.joined.encoded.isSome = true
        rw [hkey]
        rfl) henc
      have hsame : s.jobId.joined = s.jobId := joined_of_encoded hown
      have hcol : column rt (.str s.jobId.joined) = .ok (some j) := hj
      rw [hsame] at hcol
      exact ⟨j, r, hcol, hsame, hr, hrh⟩
  obtain ⟨j, r, hj, hsame, hr, hrh⟩ := hfirst
  obtain ⟨r', hr', hrh'⟩ := hkeep j r hr
  have hspec' : spec'.specHash rt.sha256 = some h ∧ column rt spec'.jobId = .ok (some j) := by
    cases e' with
    | direct =>
      obtain rfl : spec' = s.any := hsub'
      exact ⟨hhash, hj⟩
    | http =>
      obtain rfl := hcoerced spec' hsub'
      refine ⟨hjoined, ?_⟩
      show column rt (.str s.jobId.joined) = _
      rw [hsame]
      exact hj
  obtain ⟨v, hv, hsubmit⟩ := submit_same svc' running' now' hspec'.1 hspec'.2 hr' (hrh'.trans hrh)
  exact ⟨j, v, hj, hv, hsubmit⟩

/-- A service that takes any number of Runs. -/
def openService : Service := ⟨"service", .external, 1, 1, 1, 1, none, by norm_num, by norm_num⟩

theorem openService_any (n : Nat) : openService.maxInFlight.any (fun b => decide (b ≤ n)) = false := rfl

theorem sameId_of_resubmitted {rt : ServerRuntime} (hsha : Function.Injective rt.sha256) (hf : s.AllFloats)
    (h : s.Resubmitted rt) : s.SameId := by
  intro hjob henc
  obtain ⟨hash, hhash, hjoined⟩ := (specHash_eq_iff hsha s s.joined).2 ⟨hf.writable, ⟨rfl, rfl⟩, sameJoined_joined s⟩
  rcases column_text rt (any_valid s.joined).jobId with ⟨-, j, hj⟩ | ⟨hno, -⟩
  · have hempty : (⟨.empty, []⟩ : ServerDb).central.runs.get j = none := rfl
    rcases insertRun_text 0 hash true (any_valid s.joined) hj hempty with
      ⟨-, d', r, hins, hr, hrh⟩ | ⟨hno, -⟩
    · have hok := (submit_new 0 hjoined hj hempty (openService_any 0) (openService_any _)).1 d' hins
      have hhttp : Entry.http.Submits rt s s.joined.any := by rw [submits_http hf.writable, hf.coerced]
      obtain ⟨j', v, hcol, -⟩ := h .http .direct _ _ (by simp) hhttp rfl openService openService 0 0 0 0 ⟨.empty, []⟩ d' _ _
        (fun _ _ => rfl) hok (fun _ r hr => ⟨r, hr, rfl⟩)
      have hkey := column_str hcol
      show s.jobId.encoded.isSome = true
      rw [hkey]
      rfl
    · exact absurd henc hno
  · exact absurd hjob hno

/-- **With an integer for a number the other path is a conflict.** -/
theorem conflict_of_int {rt : ServerRuntime} (hsha : Function.Injective rt.sha256) (hf : ¬ s.AllFloats)
    (hkey : s.jobId.joined = s.jobId) {spec' : AnySpec} (hspec' : Entry.http.Submits rt s spec') {svc svc' : Service}
    {running running' : Nat} {now now' : Time} {d d' : ServerDb} {a : Submitted} {c : Conn ServerDb}
    (hok : submit rt svc running now s.any (.clean d) = (.ok a, c))
    (hkeep : ∀ j r, c.committed.central.runs.get j = some r → ∃ r', d'.central.runs.get j = some r' ∧
      r'.specHash = r.specHash) :
    submit rt svc' running' now' spec' (.clean d') = (.error .idempotencyConflict, .clean d') := by
  have hw : s.Writable := by
    rcases dumps_payload .spaced rfl s with ⟨hw, -⟩ | ⟨-, hno⟩
    · exact hw
    · obtain ⟨client, replies, random, x, hx, -⟩ := hspec'
      rw [JobClient.submit, hno] at hx
      cases hx
  obtain ⟨h, hhash, -⟩ := (specHash_eq_iff hsha s s).2 ⟨hw, ⟨rfl, rfl⟩, ⟨rfl, rfl, rfl, rfl, rfl, rfl⟩⟩
  obtain ⟨j, r, hj, hr, hrh⟩ := submit_ok (any_valid s) hhash hok
  obtain ⟨r', hr', hrh'⟩ := hkeep j r hr
  have hcoerced := (submits_http hw spec').1 hspec'
  have hid : spec'.jobId = .str s.jobId := by
    rw [← hkey]
    exact coerced_jobId hcoerced
  obtain ⟨t, ht, rfl⟩ := coerced_ok hcoerced
  obtain ⟨h', hhash', -⟩ := (specHash_eq_iff hsha t t).2 ⟨ht.writable, ⟨rfl, rfl⟩, ⟨rfl, rfl, rfl, rfl, rfl, rfl⟩⟩
  refine submit_other hhash' (by rw [hid]; exact hj) hr' ?_
  rw [hrh', hrh]
  rintro hsame
  obtain rfl := Option.some.inj hsame
  -- the hashes are alike only if the numbers are
  have hn := ((specHash_eq_iff hsha s t).1 ⟨h, hhash, hhash'⟩).2.1
  obtain ⟨⟨x, hx⟩, y, hy⟩ := ht
  exact hf ⟨⟨x, hn.worstSlack.trans hx⟩, y, hn.durationSeconds.trans hy⟩

/-! ## One identity -/

/-- The hash of a spec is its identity, beside another and on either path. -/
structure OneIdentity (rt : ServerRuntime) (s t : TypedSpec) : Prop where
  hash        : (∃ h, s.any.specHash rt.sha256 = some h ∧ t.any.specHash rt.sha256 = some h) ↔ s.Equal t
  path        : s.SamePath rt
  resubmitted : s.Resubmitted rt

/-- The numbers are floats, equal numbers are written alike, and no surrogate pair stands where a character could. -/
structure Canonical (s t : TypedSpec) : Prop where
  floats  : s.AllFloats
  numbers : s.Equal t → s.SameNumbers t
  texts   : s.SameNumbers t → s.SameJoined t → s.SameTexts t
  id      : s.SameId

theorem SameTexts.equal (ht : s.SameTexts t) (hn : s.SameNumbers t) : s.Equal t where
  jobId           := ht.jobId
  designId        := ht.designId
  ipFamily        := ht.ipFamily
  flowName        := ht.flowName
  corner          := ht.corner
  worstSlack      := by rw [hn.worstSlack]
  unit            := ht.unit
  durationSeconds := by rw [hn.durationSeconds]

theorem Equal.sameTexts (h : s.Equal t) : s.SameTexts t := ⟨h.jobId, h.designId, h.ipFamily, h.flowName, h.corner, h.unit⟩

theorem SameTexts.sameJoined (h : s.SameTexts t) : s.SameJoined t where
  jobId    := by rw [h.jobId]
  designId := by rw [h.designId]
  ipFamily := by rw [h.ipFamily]
  flowName := by rw [h.flowName]
  corner   := by rw [h.corner]
  unit     := by rw [h.unit]

/-- **The hash of a spec is its identity exactly when its numbers are floats, the numbers of an equal spec are written
like its own, and its texts have no surrogate pair where another has the character.** -/
theorem oneIdentity_iff {rt : ServerRuntime} (hsha : Function.Injective rt.sha256) (s t : TypedSpec) :
    s.OneIdentity rt t ↔ s.Canonical t := by
  constructor
  · intro h
    have hf := (samePath_iff hsha s).1 h.path
    refine ⟨hf, ?_, ?_, sameId_of_resubmitted hsha hf h.resubmitted⟩
    · intro heq
      exact ((specHash_eq_iff hsha s t).1 (h.hash.2 heq)).2.1
    · intro hn hj
      exact (h.hash.1 ((specHash_eq_iff hsha s t).2 ⟨hf.writable, hn, hj⟩)).sameTexts
  · intro h
    refine ⟨?_, (samePath_iff hsha s).2 h.floats, resubmitted_of_floats hsha h.floats h.id⟩
    rw [specHash_eq_iff hsha]
    constructor
    · rintro ⟨-, hn, hj⟩
      exact (h.texts hn hj).equal hn
    · intro heq
      exact ⟨h.floats.writable, h.numbers heq, heq.sameTexts.sameJoined⟩

/-! ## Two specs of the repository's callers -/

/-- A hash that spells its input out. -/
def spelled (b : ByteArray) : String := String.ofList (b.data.toList.map (fun u => Char.ofNat u.toNat))

theorem spelled_injective : Function.Injective spelled := by
  intro a b h
  have hlist : a.data.toList.map (fun u => Char.ofNat u.toNat) = b.data.toList.map (fun u => Char.ofNat u.toNat) := by
    rw [← String.toList_ofList (l := a.data.toList.map _), ← spelled, h, spelled, String.toList_ofList]
  have hchar : Function.Injective (fun u : UInt8 => Char.ofNat u.toNat) := by
    intro u v huv
    have hval : ∀ w : UInt8, (Char.ofNat w.toNat).toNat = w.toNat := by
      intro w
      have hw := w.toNat_lt
      rw [Char.ofNat, dif_pos (Or.inl (by omega))]
      rfl
    have hnat : u.toNat = v.toNat := by
      rw [← hval u, ← hval v]
      exact congrArg Char.toNat huv
    exact UInt8.toNat_inj.1 hnat
  have hdata := List.map_injective_iff.2 hchar hlist
  exact ByteArray.ext (Array.toList_inj.1 hdata)

def spelledRuntime : ServerRuntime := ⟨spelled, loadUtf8, fun _ => [], fun _ => "", ⟨fun _ => "", id, id⟩⟩

/-- `JobSpec(job_id, "tiny", "tiny", "normal", "TT", 0.0, "ns", 0.0)`. -/
def floatSpec (jobId : String) : TypedSpec where
  jobId           := .ofString jobId
  designId        := .ofString "tiny"
  ipFamily        := .ofString "tiny"
  flowName        := .ofString "normal"
  corner          := .ofString "TT"
  worstSlack      := ⟨.float (.finite 0), PyFloat.isDouble_zero⟩
  unit            := .ofString "ns"
  durationSeconds := ⟨.float (.finite 0), PyFloat.isDouble_zero⟩

/-- The same with `0` for the slack. -/
def intSpec (jobId : String) : TypedSpec := { floatSpec jobId with worstSlack := ⟨.int 0, trivial⟩ }

/-- The bytes that `_spec_hash` hashes. -/
def hashed (s : TypedSpec) : Option ByteArray :=
  ((PyValue.object s.any.payload).dumps .compact).map (fun t => (String.ofList t).toByteArray)

/-- The digests of three specs; any other text is spelled out, and marked. -/
def digest (payload : ByteArray) : String :=
  if some payload = (floatSpec "a").hashed then "a5dfa1deaa593cc5d863794bf6a75431ce1d3932fea7e39bc6545ba2f670662a"
  else if some payload = (floatSpec "b").hashed then "153430bf5fa59164b802bd0206efcf188b98fe8062eb872da13bc0c35d33641d"
  else if some payload = (intSpec "a").hashed then "54345d0612957dbdec2339f025e6f63737e88a83a2c7de3fb239bd35e24e82a4"
  else spelled payload ++ "#"

/-- A digest carries no mark. -/
theorem ne_marked {d : String} (hd : d.toList.getLast? ≠ some '#') (s : String) : d ≠ s ++ "#" := by
  rintro rfl
  rw [String.toList_append] at hd
  exact hd List.getLast?_concat

theorem digest_injective : Function.Injective digest := by
  intro x y h
  have hsame : ∀ o : Option ByteArray, some x = o → some y = o → x = y := fun o hx hy => Option.some.inj (hx.trans hy.symm)
  have hmark : ∀ s t : String, s ++ "#" = t ++ "#" → s = t := by
    intro s t hst
    have hlist := congrArg String.toList hst
    rw [String.toList_append, String.toList_append] at hlist
    exact String.toList_inj.1 (List.append_cancel_right hlist)
  unfold digest at h
  split at h
  · rename_i hx
    split at h
    · rename_i hy
      exact hsame _ hx hy
    · split at h
      · exact absurd h (by decide)
      · split at h
        · exact absurd h (by decide)
        · exact absurd h (ne_marked (by decide) _)
  · split at h
    · rename_i hx
      split at h
      · exact absurd h (by decide)
      · split at h
        · rename_i hy
          exact hsame _ hx hy
        · split at h
          · exact absurd h (by decide)
          · exact absurd h (ne_marked (by decide) _)
    · split at h
      · rename_i hx
        split at h
        · exact absurd h (by decide)
        · split at h
          · exact absurd h (by decide)
          · split at h
            · rename_i hy
              exact hsame _ hx hy
            · exact absurd h (ne_marked (by decide) _)
      · split at h
        · exact absurd h.symm (ne_marked (by decide) _)
        · split at h
          · exact absurd h.symm (ne_marked (by decide) _)
          · split at h
            · exact absurd h.symm (ne_marked (by decide) _)
            · exact spelled_injective (hmark _ _ h)

def digestRuntime : ServerRuntime := { spelledRuntime with sha256 := digest }

theorem floatSpec_oneIdentity : (floatSpec "a").OneIdentity digestRuntime (floatSpec "b") := by
  refine (oneIdentity_iff digest_injective (floatSpec "a") (floatSpec "b")).2 ⟨⟨⟨_, rfl⟩, _, rfl⟩, ?_, ?_, ?_⟩
  · intro _
    exact ⟨rfl, rfl⟩
  · rintro - hj
    exact absurd hj.jobId (by decide)
  · intro _ _
    rfl

/-- **Equal specs, two hashes.** -/
theorem int_slack_not_oneIdentity : (intSpec "a").Equal (floatSpec "a") ∧
    ¬ (intSpec "a").OneIdentity digestRuntime (floatSpec "a") := by
  have hequal : (intSpec "a").Equal (floatSpec "a") :=
    ⟨rfl, rfl, rfl, rfl, rfl, by simp [intSpec, floatSpec, PyValue.exact], rfl, rfl⟩
  refine ⟨hequal, ?_⟩
  intro h
  obtain ⟨-, hn, -⟩ := (specHash_eq_iff digest_injective (intSpec "a") (floatSpec "a")).1 (h.hash.2 hequal)
  exact absurd hn.worstSlack (by simp [intSpec, floatSpec])

end TypedSpec

end EdaLab
