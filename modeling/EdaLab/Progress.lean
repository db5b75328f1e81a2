import EdaLab.RunPages
import EdaLab.SpecHash
/-!
# Progress — what is published of a Run

`publish` writes an event as the JSON of a dictionary with its members sorted, and whoever reads the message reads the
event (`loads_message`), to the last bit of the time.
-/
namespace EdaLab

open PyValue

/-! ## `publish` -/

/-- What `_publish_progress` is called with. -/
structure ProgressEvent where
  jobId      : String
  status     : RunStatus
  attemptNo  : Option Nat := none
  /-- `host_id` and `supervisor_id`. -/
  supervisor : Option (String × String) := none
  deriving DecidableEq

/-- What `time.time` gives. -/
abbrev ObservedAt := { x : PyDouble // (PyValue.float x).Scalar }

namespace ProgressEvent

variable (e : ProgressEvent) (observedAt : ObservedAt)

/-- `**fields`. -/
def fields : List (PyStr × PyValue) :=
  e.attemptNo.toList.map (fun n => (.ofString "attempt_no", .int n)) ++
  e.supervisor.toList.flatMap (fun x =>
    [(.ofString "host_id", .str (.ofString x.1)), (.ofString "supervisor_id", .str (.ofString x.2))])

def event : List (PyStr × PyValue) :=
  [(.ofString "job_id", .str (.ofString e.jobId)), (.ofString "status", .str (.ofString e.status.text)),
    (.ofString "observed_at", .float observedAt.val)] ++ e.fields

/-- What `json.dumps` writes of the event; `none` is its `ValueError`. -/
def message : Option (List Char) := (PyValue.object (e.event observedAt)).dumps .compact

end ProgressEvent

inductive Publisher
  | absent
  | null
  | redis
  deriving DecidableEq

/-- The text that goes to `client.publish`, if any does. -/
def Publisher.sends (p : Publisher) (e : ProgressEvent) (observedAt : ObservedAt) : Option (List Char) :=
  match p with
  | redis => e.message observedAt
  | _     => none

/-! ### An event is read as it was written -/

theorem CodePoint.isSurrogate_ofChar (c : Char) : (CodePoint.ofChar c).isSurrogate = false := by
  have hval : (CodePoint.ofChar c).val = c.toNat := CodePoint.val_ofNat (by have := Json.toNat_valid c; omega)
  have hvalid := Json.toNat_valid c
  simp only [CodePoint.isSurrogate, hval, decide_eq_false_iff_not]
  omega

theorem PyStr.joined_ofString (s : String) : (PyStr.ofString s).joined = .ofString s := by
  have hall : ∀ c ∈ PyStr.ofString s, c.isSurrogate = false := by
    intro c hc
    obtain ⟨x, -, rfl⟩ := List.mem_map.1 hc
    exact CodePoint.isSurrogate_ofChar x
  generalize PyStr.ofString s = k at hall
  induction k using PyStr.joined.induct with
  | case1 u l k hpair _ =>
    have hhigh : u.isHigh = true := (Bool.and_eq_true_iff.1 hpair).1
    have hu := hall u List.mem_cons_self
    simp only [CodePoint.isHigh, CodePoint.isSurrogate, decide_eq_true_eq, decide_eq_false_iff_not] at hhigh hu
    omega
  | case2 u l k hpair ih =>
    rw [PyStr.joined, if_neg hpair, ih (fun c hc => hall c (List.mem_cons_of_mem u hc))]
  | case3 k hk =>
    rw [PyStr.joined]
    exact hk

namespace ProgressEvent

variable (e : ProgressEvent) (observedAt : ObservedAt)

/-- The members in the order of their names. -/
def sorted : List (PyStr × PyValue) := (e.event observedAt).insertionSort (fun a b => a.1 ≤ b.1)

/-- Every member is a text or a number and comes back as it is. -/
theorem event_member {x : PyStr × PyValue} (hx : x ∈ e.event observedAt) : x.2.Scalar ∧ memberBack x = x := by
  have htext : ∀ k v : String,
      memberBack (PyStr.ofString k, PyValue.str (.ofString v)) = (.ofString k, .str (.ofString v)) :=
    fun k v => by simp only [memberBack, readBack_str, PyStr.joined_ofString]
  simp only [event, fields, List.cons_append, List.nil_append, List.mem_cons, List.mem_append, List.mem_map,
    List.mem_flatMap, List.not_mem_nil, or_false] at hx
  rcases hx with rfl | rfl | rfl | ⟨n, -, rfl⟩ | ⟨h, -, rfl | rfl⟩
  · exact ⟨trivial, htext _ _⟩
  · exact ⟨trivial, htext _ _⟩
  · exact ⟨observedAt.property, by simp only [memberBack, PyStr.joined_ofString, readBack]⟩
  · exact ⟨trivial, by simp only [memberBack, PyStr.joined_ofString, readBack]⟩
  · exact ⟨trivial, htext _ _⟩
  · exact ⟨trivial, htext _ _⟩

theorem event_nodup : ((e.event observedAt).map (·.1)).Nodup := by
  obtain ⟨j, st, n, sup⟩ := e
  cases n <;> cases sup <;> exact of_decide_eq_true rfl

/-- **A message is read as the event it was written for.** -/
theorem loads_message {text : List Char} (h : e.message observedAt = some text) :
    loads text = some (.object (e.sorted observedAt)) := by
  rw [message, dumps] at h
  obtain ⟨ts, hts, rfl⟩ := Option.map_eq_some_iff.1 h
  have hperm : (e.sorted observedAt).Perm (e.event observedAt) := List.perm_insertionSort _ _
  have htexts := (texts_of_dumpsMembers (fun x hx => (event_member e observedAt hx).1) hts).insertionSort
  have hread := loads_flat compact_separates htexts (fun hnil => by
    have hlen := (hperm.length_eq).symm
    rw [sorted, hnil] at hlen
    cases hlen)
  have hback : (e.sorted observedAt).map memberBack = e.sorted observedAt :=
    (List.map_congr_left (fun x hx => (event_member e observedAt (hperm.subset hx)).2)).trans (List.map_id _)
  have hnodup : ((e.sorted observedAt).map (·.1)).Nodup := (hperm.map _).nodup_iff.2 (event_nodup e observedAt)
  rw [← sorted, hback, dict_of_nodup hnodup] at hread
  exact hread

end ProgressEvent

end EdaLab
