import EdaLab.ProfileReport
/-!
# RoundedReport — reports whose numbers are rounded

A report of the profile that prints every number rounded to six decimals is read without a contradiction, except where the
slack is below zero and rounds to zero: its label is then `VIOLATED` and its printed slack is none below zero.
-/
namespace EdaLab

/-- A way to print numbers rounded to six decimals, each to a nearest one. -/
structure SixDecimals where
  numeral  : ℚ → Numeral
  wf       : ∀ x, (numeral x).Wf
  plain    : ∀ x, (numeral x).exponent = none
  fraction : ∀ x, ∃ f, (numeral x).fraction = some f ∧ f.length = 6
  near     : ∀ x, |(numeral x).value - x| ≤ 1 / (2 * 10 ^ 6)

/-- The white space before the numbers. -/
structure Indents where
  arrival         : Nat
  required        : Nat
  summaryRequired : Nat
  summaryArrival  : Nat
  slack           : Nat
  worst           : Nat

namespace SixDecimals

variable (p : SixDecimals)

def figure (indent : Nat) (x : ℚ) : Figure := ⟨indent, p.numeral x, p.wf x, p.plain x⟩

/-- The report of a path with this required time and arrival time. -/
def profile (i : Indents) (required arrival : ℚ) : Profile where
  arrival := p.figure i.arrival arrival
  required := p.figure i.required required
  summaryRequired := p.figure i.summaryRequired required
  summaryArrival := p.figure i.summaryArrival (-arrival)
  slack := p.figure i.slack (required - arrival)
  worst := p.figure i.worst (required - arrival)
  met := decide (0 ≤ required - arrival)

/-! ## Rounded numbers -/

theorem value_multiple (x : ℚ) : ∃ n : ℤ, (p.numeral x).value = n / 10 ^ 6 := by
  obtain ⟨f, hf, hlen⟩ := p.fraction x
  rw [Numeral.value_plain (p.plain x), hf, Option.getD_some, hlen]
  by_cases hneg : (p.numeral x).negative = true
  · refine ⟨-(natOf ((p.numeral x).whole ++ f) : ℤ), ?_⟩
    rw [if_pos hneg]
    push_cast
    ring
  · refine ⟨natOf ((p.numeral x).whole ++ f), ?_⟩
    rw [if_neg hneg]
    push_cast
    ring

/-- Rounding keeps what is from zero on there. -/
theorem value_nonneg {x : ℚ} (h : 0 ≤ x) : 0 ≤ (p.numeral x).value := by
  obtain ⟨n, hn⟩ := p.value_multiple x
  have hnear := abs_le.1 (p.near x)
  rw [hn] at hnear ⊢
  have hlow : (-1 : ℚ) < n := by
    have := hnear.1
    rw [le_sub_iff_add_le, le_div_iff₀ (by norm_num)] at this
    norm_num at this
    linarith
  have hint : (-1 : ℤ) < n := by exact_mod_cast hlow
  have hzero : (0 : ℚ) ≤ n := by exact_mod_cast (by omega : 0 ≤ n)
  positivity

theorem value_nonpos {x : ℚ} (h : x < 0) : (p.numeral x).value ≤ 0 := by
  obtain ⟨n, hn⟩ := p.value_multiple x
  have hnear := abs_le.1 (p.near x)
  rw [hn] at hnear ⊢
  have hhigh : (n : ℚ) < 1 := by
    have := hnear.2
    rw [sub_le_iff_le_add, div_le_iff₀ (by norm_num)] at this
    norm_num at this
    linarith
  have hint : n < 1 := by exact_mod_cast hhigh
  have hzero : (n : ℚ) ≤ 0 := by exact_mod_cast (by omega : n ≤ 0)
  exact div_nonpos_of_nonpos_of_nonneg hzero (by norm_num)

end SixDecimals

/-! ## Contradictions in exact arithmetic -/

/-- In exact arithmetic a report has no contradiction where its sums are within the tolerances and its label has the sign
of its slack. -/
theorem semanticErrors_exact (met : Bool) (required signedArrival arrival slack worst : ℚ) :
    Arithmetic.exact.semanticErrors "max" (if met then "MET" else "VIOLATED") (.finite required) (.finite signedArrival)
      (.finite arrival) (.finite slack) (.finite worst) = [] ↔
    |required + signedArrival + -slack| ≤ 2 / 10 ^ 6 ∧ |signedArrival + arrival| ≤ 2 / 10 ^ 6 ∧
      |worst + -slack| ≤ 5 / 10 ^ 7 ∧ (met = true ↔ 0 ≤ slack) := by
  have hif : ∀ (P : Prop) [Decidable P] (e : String), (if P then [e] else []) = [] ↔ ¬P := by
    intro P _ e
    by_cases hP : P
    · simp [hP]
    · simp [hP]
  have hgt : ∀ a b : ℚ, (PyFloat.finite a).gt (.finite b) = true ↔ ¬a ≤ b := by
    intro a b
    simp [PyFloat.gt]
  have hlabel : ¬(((if met then "MET" else "VIOLATED") = "MET" ∧ (PyFloat.finite 0).gt (.finite slack) = true) ∨
      ((if met then "MET" else "VIOLATED") = "VIOLATED" ∧ (PyFloat.finite 0).gt (.finite slack) = false)) ↔
      (met = true ↔ 0 ≤ slack) := by
    rw [← Bool.not_eq_true, hgt]
    cases met
    · simp
    · simp
  unfold Arithmetic.semanticErrors
  simp only [List.append_eq_nil_iff, hif, hlabel]
  simp only [Arithmetic.exact, Arithmetic.sub, Arithmetic.add, PyFloat.neg, PyFloat.abs, hgt, not_not, ne_eq,
    not_true_eq_false,
    not_false_eq_true, true_and, and_assoc]

/-- A report is accepted with the verdict of the slack `s`. -/
def AcceptedFor (py : Interpreter) (text : String) (s : ℚ) : Prop :=
  ∃ r, Arithmetic.exact.parseReport py text.toUTF8 = .ok r ∧ r.parseStatus = .ok ∧ r.semanticStatus = .valid ∧
    (r.checkStatus = .pass ↔ 0 ≤ s)

/-- The statuses of a profile that is read in exact arithmetic. -/
theorem openStaResult_statuses {t : Profile} {v : OpenStaValues} (hv : Profile.Read Arithmetic.exact t v) (sha : String) :
    (Arithmetic.exact.openStaResult v sha).parseStatus = .ok ∧
    ((Arithmetic.exact.openStaResult v sha).semanticStatus = .valid ↔
      Arithmetic.exact.semanticErrors "max" t.label (.finite t.summaryRequired.number.value)
        (.finite t.summaryArrival.number.value) (.finite t.arrival.number.value) (.finite t.slack.number.value)
        (.finite t.worst.number.value) = []) ∧
    ((Arithmetic.exact.openStaResult v sha).semanticStatus = .valid →
      ((Arithmetic.exact.openStaResult v sha).checkStatus = .pass ↔ t.met = true)) := by
  obtain ⟨required, signedArrival, slack, arrival, worst, label, version, revision, start, stop, pathGroup, pathType⟩ := v
  obtain ⟨h1, h2, h3, h4, h5, h6, h7⟩ := hv
  simp only at h1 h2 h3 h4 h5 h6 h7
  subst h1 h2 h3 h4 h5 h6 h7
  have hlabel : t.label = "MET" ↔ t.met = true := by
    unfold Profile.label
    cases t.met
    · simp
    · simp
  have hexact : ∀ q, Arithmetic.exact.float q = .finite q := fun _ => rfl
  simp only [Arithmetic.openStaResult, hexact]
  by_cases hno : Arithmetic.exact.semanticErrors "max" t.label (.finite t.summaryRequired.number.value)
    (.finite t.summaryArrival.number.value) (.finite t.arrival.number.value) (.finite t.slack.number.value)
    (.finite t.worst.number.value) = []
  · simp [hno, ← hlabel]
  · simp [hno]

theorem acceptedFor_iff (py : Interpreter) (t : Profile) {s : ℚ} (hmet : t.met = true ↔ 0 ≤ s) :
    AcceptedFor py t.text s ↔ Arithmetic.exact.semanticErrors "max" t.label (.finite t.summaryRequired.number.value)
      (.finite t.summaryArrival.number.value) (.finite t.arrival.number.value) (.finite t.slack.number.value)
      (.finite t.worst.number.value) = [] := by
  obtain ⟨v, hv, hparse⟩ := t.parseReport_profile Arithmetic.exact py
  obtain ⟨hok, hvalid, hcheck⟩ := openStaResult_statuses hv (py.sha256 t.text.toUTF8)
  unfold AcceptedFor
  rw [hparse]
  constructor
  · rintro ⟨r, hr, -, hr', -⟩
    cases hr
    exact hvalid.1 hr'
  · intro h
    exact ⟨_, rfl, hok, hvalid.2 h, (hcheck (hvalid.2 h)).trans hmet⟩

/-- What a rounded report contradicts itself in, if anything, is its label. -/
theorem contradictions_profile (p : SixDecimals) (i : Indents) (required arrival : ℚ) {t : Profile}
    (ht : t = p.profile i required arrival) : Arithmetic.exact.semanticErrors "max" t.label
      (.finite t.summaryRequired.number.value) (.finite t.summaryArrival.number.value) (.finite t.arrival.number.value)
      (.finite t.slack.number.value) (.finite t.worst.number.value) = [] ↔
    0 ≤ required - arrival ∨ (p.numeral (required - arrival)).value ≠ 0 := by
  subst ht
  unfold Profile.label
  rw [semanticErrors_exact]
  simp only [SixDecimals.profile, SixDecimals.figure, decide_eq_true_eq]
  generalize hs : required - arrival = s
  have hrequired := abs_le.1 (p.near required)
  have harrival := abs_le.1 (p.near arrival)
  have hnegated := abs_le.1 (p.near (-arrival))
  have hslack := abs_le.1 (p.near s)
  norm_num at hrequired harrival hnegated hslack
  have hsum : |(p.numeral required).value + (p.numeral (-arrival)).value + -(p.numeral s).value| ≤ 2 / 10 ^ 6 := by
    rw [abs_le]
    constructor
    · norm_num
      linarith
    · norm_num
      linarith
  have hrows : |(p.numeral (-arrival)).value + (p.numeral arrival).value| ≤ 2 / 10 ^ 6 := by
    rw [abs_le]
    constructor
    · norm_num
      linarith
    · norm_num
      linarith
  have hworst : |(p.numeral s).value + -(p.numeral s).value| ≤ 5 / 10 ^ 7 := by
    rw [add_neg_cancel, abs_zero]
    norm_num
  have hsign : (0 ≤ s ↔ 0 ≤ (p.numeral s).value) ↔ 0 ≤ s ∨ (p.numeral s).value ≠ 0 := by
    by_cases hneg : 0 ≤ s
    · simp [hneg, p.value_nonneg hneg]
    · have hle := p.value_nonpos (lt_of_not_ge hneg)
      simp only [hneg, false_iff, false_or, not_le]
      exact ⟨fun h => ne_of_lt h, fun h => lt_of_le_of_ne hle h⟩
  rw [hsign]
  exact ⟨fun h => h.2.2.2, fun h => ⟨hsum, hrows, hworst, h⟩⟩

theorem profile_met (p : SixDecimals) (i : Indents) (required arrival : ℚ) :
    (p.profile i required arrival).met = true ↔ 0 ≤ required - arrival := by
  simp [SixDecimals.profile]

/-- **A rounded report is accepted exactly where its slack is not below zero or does not round to zero.** -/
theorem rounded_accepted_iff (py : Interpreter) (p : SixDecimals) (i : Indents) (required arrival : ℚ) :
    AcceptedFor py (p.profile i required arrival).text (required - arrival) ↔
      0 ≤ required - arrival ∨ (p.numeral (required - arrival)).value ≠ 0 := by
  rw [acceptedFor_iff py _ (profile_met p i required arrival)]
  exact contradictions_profile p i required arrival rfl

/-! ## A slack that rounds to zero -/

namespace SixDecimals

/-- The six digits of a number below `10 ^ 6`. -/
def sixDigits (m : Nat) : List Nat := [5, 4, 3, 2, 1, 0].map (fun k => m / 10 ^ k % 10)

/-- The numeral of `n / 10 ^ 6`, with a sign where `negative`. -/
def fixed (negative : Bool) (n : Nat) : Numeral where
  negative
  whole := if n / 10 ^ 6 = 0 then [0] else Numeral.digitsOf (n / 10 ^ 6)
  fraction := some (sixDigits (n % 10 ^ 6))

theorem fixed_wf (negative : Bool) (n : Nat) : (fixed negative n).Wf := by
  refine ⟨?_, ?_, ?_, by simp [fixed]⟩
  · by_cases hzero : n / 10 ^ 6 = 0
    · exact Or.inl (if_pos hzero)
    · have hpos : 0 < n / 10 ^ 6 := Nat.pos_of_ne_zero hzero
      refine Or.inr ?_
      unfold fixed
      rw [if_neg hzero]
      exact ⟨Numeral.digitsOf_ne_nil hpos, Numeral.digitsOf_head hpos⟩
  · intro d hd
    unfold fixed at hd
    dsimp only at hd
    split at hd
    · rw [List.mem_singleton.1 hd]
      norm_num
    · exact Numeral.digitsOf_lt_ten hd
  · intro f hf
    cases hf
    refine ⟨by simp [sixDigits], fun d hd => ?_⟩
    obtain ⟨k, -, rfl⟩ := List.mem_map.1 hd
    exact Nat.mod_lt _ (by norm_num)

theorem natOf_sixDigits {m : Nat} (h : m < 10 ^ 6) : natOf (sixDigits m) = m := by
  simp only [sixDigits, natOf, List.map_cons, List.map_nil, List.foldl_cons, List.foldl_nil]
  omega

theorem fixed_value (negative : Bool) (n : Nat) :
    (fixed negative n).value = if negative then -(n / 10 ^ 6 : ℚ) else n / 10 ^ 6 := by
  have hwhole : natOf (fixed negative n).whole = n / 10 ^ 6 := by
    unfold fixed
    dsimp only
    by_cases hzero : n / 10 ^ 6 = 0
    · rw [if_pos hzero, hzero]
      rfl
    · rw [if_neg hzero, natOf_digitsOf]
  have hdigits : natOf ((fixed negative n).whole ++ sixDigits (n % 10 ^ 6)) = n := by
    rw [natOf_append_digits, hwhole, natOf_sixDigits (Nat.mod_lt _ (by norm_num))]
    simp only [sixDigits, List.length_map, List.length_cons, List.length_nil]
    omega
  rw [Numeral.value_plain rfl]
  simp only [fixed, Option.getD_some] at hdigits ⊢
  rw [hdigits]
  rfl

/-- To the nearest, ties up. -/
def nearest (x : ℚ) : Numeral := fixed (decide (x < 0)) (round (x * 10 ^ 6)).natAbs

theorem nearest_value (x : ℚ) : (nearest x).value = round (x * 10 ^ 6) / 10 ^ 6 := by
  unfold nearest
  rw [fixed_value]
  by_cases hneg : x < 0
  · have hle : round (x * 10 ^ 6) ≤ 0 := by
      rw [round_eq, ← Int.lt_add_one_iff, Int.floor_lt]
      push_cast
      linarith
    rw [decide_eq_true hneg, if_pos rfl]
    have habs : ((round (x * 10 ^ 6)).natAbs : ℚ) = -round (x * 10 ^ 6) := by
      rw [Nat.cast_natAbs, abs_of_nonpos hle, Int.cast_neg]
    rw [habs]
    ring
  · have hle : 0 ≤ round (x * 10 ^ 6) := by
      rw [round_eq, Int.le_floor]
      push_cast
      linarith
    rw [decide_eq_false hneg, if_neg Bool.false_ne_true]
    have habs : ((round (x * 10 ^ 6)).natAbs : ℚ) = round (x * 10 ^ 6) := by
      rw [Nat.cast_natAbs, abs_of_nonneg hle]
    rw [habs]

/-- As the C library prints them. -/
def printed : SixDecimals where
  numeral := nearest
  wf x := fixed_wf _ _
  plain x := rfl
  fraction x := ⟨_, rfl, rfl⟩
  near x := by
    have hround := abs_sub_round (x * 10 ^ 6)
    have hscale : (nearest x).value - x = (round (x * 10 ^ 6) - x * 10 ^ 6) / 10 ^ 6 := by
      rw [nearest_value]
      ring
    rw [hscale, abs_div, abs_sub_comm]
    rw [abs_of_pos (show (0 : ℚ) < 10 ^ 6 by norm_num), div_le_div_iff₀ (by norm_num) (by norm_num)]
    norm_num at hround ⊢
    linarith

end SixDecimals

/-- The digest is that of the report below. -/
def roundedPy : Interpreter :=
  { fixturePy with sha256 := fun _ => "12737b470db315102a734697f74b1e79e2e40ea7128074a17474a021743e0fdf" }

/-- The slack is below zero by less than half of the last decimal. -/
theorem rounded_to_zero : ¬AcceptedFor roundedPy
    (SixDecimals.printed.profile ⟨15, 15, 15, 14, 14, 0⟩ (21 / 50) (4200004 / 10 ^ 7)).text
      (21 / 50 - 4200004 / 10 ^ 7) := by
  have hround : round (((21 : ℚ) / 50 - 4200004 / 10 ^ 7) * 10 ^ 6) = 0 := by
    rw [round_eq_zero_iff]
    constructor <;> norm_num
  have hzero : (SixDecimals.printed.numeral (21 / 50 - 4200004 / 10 ^ 7)).value = 0 := by
    show (SixDecimals.nearest _).value = 0
    rw [SixDecimals.nearest_value, hround]
    norm_num
  rw [acceptedFor_iff roundedPy _ (profile_met _ _ _ _), contradictions_profile _ _ _ _ rfl]
  rintro (h | h)
  · norm_num at h
  · exact h hzero

end EdaLab
