import EdaLab.FlatJson
/-!
# SpecHash — the identity of a JobSpec

`_spec_hash` is a hash of the JSON of the fields, sorted by name.  `AnySpec` is what the class takes, any value in any
field; `TypedSpec` is a spec as it is declared.  `specHash_eq_iff`: two of these hash alike exactly when their numbers are
written alike, their texts are alike with their surrogate pairs joined, and no number is an integer too long to write.
-/
namespace EdaLab

open PyValue

/-- A `JobSpec` with any value in any field. -/
structure AnySpec where
  jobId           : PyValue
  designId        : PyValue
  ipFamily        : PyValue
  flowName        : PyValue
  corner          : PyValue
  worstSlack      : PyValue
  unit            : PyValue
  durationSeconds : PyValue

namespace AnySpec

variable (s : AnySpec)

/-- The dictionary of `_spec_hash`, and of the client's `_payload`. -/
def payload : List (PyStr × PyValue) :=
  [(.ofString "job_id", s.jobId), (.ofString "design_id", s.designId), (.ofString "ip_family", s.ipFamily),
    (.ofString "flow_name", s.flowName), (.ofString "corner", s.corner), (.ofString "worst_slack", s.worstSlack),
    (.ofString "unit", s.unit), (.ofString "duration_seconds", s.durationSeconds)]

/-- `_spec_hash`; `none` where `json.dumps` raises. -/
def specHash (sha256 : ByteArray → String) : Option String :=
  ((PyValue.object s.payload).dumps .compact).map (fun t => sha256 (String.ofList t).toByteArray)

end AnySpec

/-! ## A spec as it is declared -/

/-- An integer, or a float that is not NaN. -/
def PyValue.IsNumber : PyValue → Prop
  | int _             => True
  | float (.finite q) => PyFloat.IsDouble q
  | float .nan        => False
  | float _           => True
  | _                 => False

structure SpecNumber where
  value    : PyValue
  isNumber : value.IsNumber

structure TypedSpec where
  jobId           : PyStr
  designId        : PyStr
  ipFamily        : PyStr
  flowName        : PyStr
  corner          : PyStr
  worstSlack      : SpecNumber
  unit            : PyStr
  durationSeconds : SpecNumber

def TypedSpec.any (s : TypedSpec) : AnySpec where
  jobId           := .str s.jobId
  designId        := .str s.designId
  ipFamily        := .str s.ipFamily
  flowName        := .str s.flowName
  corner          := .str s.corner
  worstSlack      := s.worstSlack.value
  unit            := .str s.unit
  durationSeconds := s.durationSeconds.value

/-- The number that `==` compares: an integer and a float can be the same one, and the two zeros are. -/
def PyValue.exact : PyValue → PyFloat
  | int i             => .finite i
  | float (.finite q) => .finite q
  | float .negZero    => .finite 0
  | float (.inf n)    => .inf n
  | _                 => .nan

/-- `json.dumps` writes it: an integer has at most 4300 digits. -/
def PyValue.Writable : PyValue → Prop
  | int i => (Numeral.ofInt i).whole.length ≤ 4300
  | _     => True

namespace TypedSpec

/-- `s == t`. -/
structure Equal (s t : TypedSpec) : Prop where
  jobId           : s.jobId = t.jobId
  designId        : s.designId = t.designId
  ipFamily        : s.ipFamily = t.ipFamily
  flowName        : s.flowName = t.flowName
  corner          : s.corner = t.corner
  worstSlack      : s.worstSlack.value.exact = t.worstSlack.value.exact
  unit            : s.unit = t.unit
  durationSeconds : s.durationSeconds.value.exact = t.durationSeconds.value.exact

/-- The texts are the same. -/
structure SameTexts (s t : TypedSpec) : Prop where
  jobId    : s.jobId = t.jobId
  designId : s.designId = t.designId
  ipFamily : s.ipFamily = t.ipFamily
  flowName : s.flowName = t.flowName
  corner   : s.corner = t.corner
  unit     : s.unit = t.unit

/-- The texts are the same, or differ in surrogate pairs that stand for one character. -/
structure SameJoined (s t : TypedSpec) : Prop where
  jobId    : s.jobId.joined = t.jobId.joined
  designId : s.designId.joined = t.designId.joined
  ipFamily : s.ipFamily.joined = t.ipFamily.joined
  flowName : s.flowName.joined = t.flowName.joined
  corner   : s.corner.joined = t.corner.joined
  unit     : s.unit.joined = t.unit.joined

/-- The numbers are of the same types, and their zeros of the same signs. -/
structure SameNumbers (s t : TypedSpec) : Prop where
  worstSlack      : s.worstSlack.value = t.worstSlack.value
  durationSeconds : s.durationSeconds.value = t.durationSeconds.value

structure Writable (s : TypedSpec) : Prop where
  worstSlack      : s.worstSlack.value.Writable
  durationSeconds : s.durationSeconds.value.Writable

end TypedSpec

/-! ## What is written of a spec -/

theorem PyValue.IsNumber.scalar {v : PyValue} (h : v.IsNumber) : v.Scalar := by
  cases v with
  | float x =>
    cases x with
    | finite q => exact h
    | _ => trivial
  | int i => trivial
  | _ => cases h

theorem PyValue.IsNumber.readBack_eq {v : PyValue} (h : v.IsNumber) : v.readBack = v := by
  cases v with
  | str k => cases h
  | _ => rfl

/-- A number is written in every style alike. -/
theorem PyValue.IsNumber.dumps_isSome_iff {v : PyValue} (h : v.IsNumber) (st : JsonStyle) :
    (∃ t, v.dumps st = some t) ↔ v.Writable := by
  cases v with
  | int i =>
    simp only [PyValue.dumps, PyValue.Writable]
    constructor
    · rintro ⟨t, ht⟩
      by_contra hlen
      rw [if_neg hlen] at ht
      cases ht
    · intro hlen
      exact ⟨_, if_pos hlen⟩
  | float x => exact ⟨fun _ => trivial, fun _ => ⟨_, rfl⟩⟩
  | _ => cases h

section Sorted

variable {st : JsonStyle} {m : List (PyStr × PyValue)} {ts : List (PyStr × List Char)}

theorem PyValue.Texts.orderedInsert {k : PyStr} {v : PyValue} {t : List Char} (hv : v.Scalar) (ht : v.dumps st = some t)
    (h : Texts st m ts) : Texts st (m.orderedInsert (fun a b => a.1 ≤ b.1) (k, v))
      (ts.orderedInsert (fun a b => a.1 ≤ b.1) (k, t)) := by
  induction h with
  | nil => exact .cons hv ht .nil
  | @cons k' v' t' m ts hv' ht' hrest ih =>
    simp only [List.orderedInsert]
    by_cases hk : k ≤ k'
    · rw [if_pos hk, if_pos hk]
      exact .cons hv ht (.cons hv' ht' hrest)
    · rw [if_neg hk, if_neg hk]
      exact .cons hv' ht' ih

/-- Sorting the members sorts their texts. -/
theorem PyValue.Texts.insertionSort (h : Texts st m ts) :
    Texts st (m.insertionSort (fun a b => a.1 ≤ b.1)) (ts.insertionSort (fun a b => a.1 ≤ b.1)) := by
  induction h with
  | nil => exact .nil
  | cons hv ht _ ih => exact ih.orderedInsert hv ht

end Sorted

namespace TypedSpec

variable {s t : TypedSpec} {st : JsonStyle}

/-- The members as they are sorted. -/
def sorted (s : TypedSpec) : List (PyStr × PyValue) :=
  [(.ofString "corner", .str s.corner), (.ofString "design_id", .str s.designId),
    (.ofString "duration_seconds", s.durationSeconds.value), (.ofString "flow_name", .str s.flowName),
    (.ofString "ip_family", .str s.ipFamily), (.ofString "job_id", .str s.jobId), (.ofString "unit", .str s.unit),
    (.ofString "worst_slack", s.worstSlack.value)]

theorem payload_sorted (s : TypedSpec) : s.any.payload.insertionSort (fun a b => a.1 ≤ b.1) = s.sorted := rfl

/-- **The JSON of a spec**: what is written is written of its sorted members, and it is written unless a number is not. -/
theorem dumps_payload (st : JsonStyle) (hst : st.sortKeys = true) (s : TypedSpec) :
    (s.Writable ∧ ∃ ts, Texts st s.sorted ts ∧ (PyValue.object s.any.payload).dumps st = some (objectText st ts)) ∨
    (¬ s.Writable ∧ (PyValue.object s.any.payload).dumps st = none) := by
  by_cases hslack : s.worstSlack.value.Writable
  · by_cases hdur : s.durationSeconds.value.Writable
    · obtain ⟨slack, hs⟩ := (s.worstSlack.isNumber.dumps_isSome_iff st).2 hslack
      obtain ⟨dur, hd⟩ := (s.durationSeconds.isNumber.dumps_isSome_iff st).2 hdur
      have htexts : ∃ ts, Texts st s.any.payload ts ∧ PyValue.dumpsMembers st s.any.payload = some ts := by
        refine ⟨_, .cons trivial rfl (.cons trivial rfl (.cons trivial rfl (.cons trivial rfl (.cons trivial rfl
          (.cons s.worstSlack.isNumber.scalar hs (.cons trivial rfl
            (.cons s.durationSeconds.isNumber.scalar hd .nil))))))), ?_⟩
        simp [AnySpec.payload, any, PyValue.dumpsMembers, PyValue.dumps, hs, hd]
      obtain ⟨ts, hts, hdumps⟩ := htexts
      refine Or.inl ⟨⟨hslack, hdur⟩, ts.insertionSort (fun a b => a.1 ≤ b.1), ?_, ?_⟩
      · rw [← payload_sorted]
        exact hts.insertionSort
      · simp [PyValue.dumps, hdumps, objectText, JsonStyle.inOrder, hst]
    · have hno : s.durationSeconds.value.dumps st = none := Option.eq_none_iff_forall_ne_some.2 (fun t ht =>
        hdur ((s.durationSeconds.isNumber.dumps_isSome_iff st).1 ⟨t, ht⟩))
      refine Or.inr ⟨fun h => hdur h.durationSeconds, ?_⟩
      simp [PyValue.dumps, AnySpec.payload, any, PyValue.dumpsMembers, hno]
  · have hno : s.worstSlack.value.dumps st = none := Option.eq_none_iff_forall_ne_some.2 (fun t ht =>
      hslack ((s.worstSlack.isNumber.dumps_isSome_iff st).1 ⟨t, ht⟩))
    refine Or.inr ⟨fun h => hslack h.worstSlack, ?_⟩
    simp [PyValue.dumps, AnySpec.payload, any, PyValue.dumpsMembers, hno]

theorem sorted_back (s t : TypedSpec) :
    s.sorted.map memberBack = t.sorted.map memberBack ↔ s.SameNumbers t ∧ s.SameJoined t := by
  simp only [sorted, List.map_cons, List.map_nil, memberBack, List.cons.injEq, Prod.mk.injEq, true_and, and_true,
    s.worstSlack.isNumber.readBack_eq, t.worstSlack.isNumber.readBack_eq, s.durationSeconds.isNumber.readBack_eq,
    t.durationSeconds.isNumber.readBack_eq, readBack_str, PyValue.str.injEq]
  constructor
  · rintro ⟨hcorner, hdesign, hdur, hflow, hip, hjob, hunit, hslack⟩
    exact ⟨⟨hslack, hdur⟩, ⟨hjob, hdesign, hip, hflow, hcorner, hunit⟩⟩
  · rintro ⟨⟨hslack, hdur⟩, hjob, hdesign, hip, hflow, hcorner, hunit⟩
    exact ⟨hcorner, hdesign, hdur, hflow, hip, hjob, hunit, hslack⟩

theorem quoted_eq_iff (k j : PyStr) : k.quoted = j.quoted ↔ k.joined = j.joined := by
  rw [← escaped_eq_iff, PyStr.quoted, PyStr.quoted]
  simp

/-- Specs that come back alike are written alike. -/
theorem dumps_congr (st : JsonStyle) (hn : s.SameNumbers t) (hj : s.SameJoined t) :
    (PyValue.object s.any.payload).dumps st = (PyValue.object t.any.payload).dumps st := by
  simp only [PyValue.dumps, AnySpec.payload, any, PyValue.dumpsMembers, hn.worstSlack, hn.durationSeconds,
    (quoted_eq_iff _ _).2 hj.jobId, (quoted_eq_iff _ _).2 hj.designId, (quoted_eq_iff _ _).2 hj.ipFamily,
    (quoted_eq_iff _ _).2 hj.flowName, (quoted_eq_iff _ _).2 hj.corner, (quoted_eq_iff _ _).2 hj.unit]

theorem bytes_inj {a b : List Char} (h : (String.ofList a).toByteArray = (String.ofList b).toByteArray) : a = b := by
  have hs : String.ofList a = String.ofList b := String.toByteArray_inj.1 h
  rw [← String.toList_ofList (l := a), hs, String.toList_ofList]

/-- **When two specs hash alike.** -/
theorem specHash_eq_iff {sha256 : ByteArray → String} (hsha : Function.Injective sha256) (s t : TypedSpec) :
    (∃ h, s.any.specHash sha256 = some h ∧ t.any.specHash sha256 = some h) ↔
      s.Writable ∧ s.SameNumbers t ∧ s.SameJoined t := by
  rcases dumps_payload .compact rfl s with ⟨hws, ts, hts, hs⟩ | ⟨hws, hs⟩
  · constructor
    · rintro ⟨h, hhash, hhash'⟩
      rcases dumps_payload .compact rfl t with ⟨-, ts', hts', ht⟩ | ⟨-, ht⟩
      · rw [AnySpec.specHash, hs, Option.map_some, Option.some.injEq] at hhash
        rw [AnySpec.specHash, ht, Option.map_some, Option.some.injEq] at hhash'
        have htext : objectText .compact ts = objectText .compact ts' := bytes_inj (hsha (hhash.trans hhash'.symm))
        exact ⟨hws, (sorted_back s t).1 (flat_unique compact_separates hts hts' (by simp [sorted]) (by simp [sorted]) htext)⟩
      · rw [AnySpec.specHash, ht] at hhash'
        cases hhash'
    · rintro ⟨-, hn, hj⟩
      refine ⟨sha256 (String.ofList (objectText .compact ts)).toByteArray, ?_, ?_⟩
      · rw [AnySpec.specHash, hs]
        rfl
      · rw [AnySpec.specHash, ← dumps_congr .compact hn hj, hs]
        rfl
  · constructor
    · rintro ⟨h, hhash, -⟩
      rw [AnySpec.specHash, hs] at hhash
      cases hhash
    · rintro ⟨hw, -⟩
      exact absurd hw hws

end TypedSpec

end EdaLab
