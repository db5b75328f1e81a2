import EdaLab.PyText
import Mathlib.Algebra.Order.Field.Power
import Mathlib.Data.Nat.Digits.Defs
import Mathlib.Tactic.Linarith
import Mathlib.Tactic.NormNum
import Mathlib.Tactic.Ring
import Mathlib.Tactic.Positivity
/-!
# FloatRepr — the digits `repr` writes of a float

`shortest` is the fewest decimal digits that `float` reads back as the same double, and of these the closest.  There are
always some: seventeen digits come within `1 / (2 · 10 ^ 16)` of a double, which is less than half of the unit in the
last place on either side of it (`nearest_of_seventeen`).
-/
namespace EdaLab.PyFloat

/-! ## Rounding -/

theorem roundHalfEven_of_close {q : ℚ} {n : ℤ} (h : |q - n| < 1 / 2) : roundHalfEven q = n := by
  obtain ⟨hlo, hhi⟩ := abs_lt.1 h
  unfold roundHalfEven
  by_cases hn : (n : ℚ) ≤ q
  · have hfloor : ⌊q⌋ = n := Int.floor_eq_iff.2 ⟨hn, by linarith⟩
    have hfloor : q.floor = n := hfloor
    simp only [hfloor]
    rw [if_pos (by linarith)]
  · have hlt : q < n := lt_of_not_ge hn
    have hfloor : ⌊q⌋ = n - 1 := Int.floor_eq_iff.2 ⟨by push_cast; linarith, by push_cast; linarith⟩
    have hfloor : q.floor = n - 1 := hfloor
    simp only [hfloor]
    rw [if_neg (by push_cast; linarith), if_pos (by push_cast; linarith)]
    omega

theorem abs_roundHalfEven_sub_le (q : ℚ) : |(roundHalfEven q : ℚ) - q| ≤ 1 / 2 := by
  have hle : (q.floor : ℚ) ≤ q := Int.floor_le q
  have hlt : q < q.floor + 1 := Int.lt_floor_add_one q
  unfold roundHalfEven
  simp only
  by_cases h₁ : q - q.floor < 1 / 2
  · rw [if_pos h₁, abs_le]
    constructor <;> linarith
  · rw [if_neg h₁]
    by_cases h₂ : 1 / 2 < q - q.floor
    · rw [if_pos h₂, abs_le]
      push_cast
      constructor <;> linarith
    · rw [if_neg h₂]
      have htie : q - q.floor = 1 / 2 := le_antisymm (not_lt.1 h₂) (not_lt.1 h₁)
      by_cases h₃ : q.floor % 2 = 0
      · rw [if_pos h₃, abs_le]
        constructor <;> linarith
      · rw [if_neg h₃, abs_le]
        push_cast
        constructor <;> linarith

/-- The unit in the last place of the doubles around `q`. -/
def unit (q : ℚ) : ℚ := 2 ^ max (Int.log 2 |q| - 52) (-1074)

theorem unit_pos (q : ℚ) : 0 < unit q := by
  unfold unit
  positivity

theorem nearest_eq {q : ℚ} (h : q ≠ 0) : nearest q = roundHalfEven (q / unit q) * unit q := by
  rw [nearest, if_neg h]
  rfl

theorem roundHalfEven_neg (q : ℚ) : roundHalfEven (-q) = -roundHalfEven q := by
  have hle : (q.floor : ℚ) ≤ q := Int.floor_le q
  have hlt : q < q.floor + 1 := Int.lt_floor_add_one q
  by_cases h₁ : q - q.floor < 1 / 2
  · have hq : roundHalfEven q = q.floor := roundHalfEven_of_close (by rw [abs_lt]; constructor <;> linarith)
    rw [hq]
    exact roundHalfEven_of_close (by push_cast; rw [abs_lt]; constructor <;> linarith)
  · by_cases h₂ : 1 / 2 < q - q.floor
    · have hq : roundHalfEven q = q.floor + 1 :=
        roundHalfEven_of_close (by push_cast; rw [abs_lt]; constructor <;> linarith)
      rw [hq]
      exact roundHalfEven_of_close (by push_cast; rw [abs_lt]; constructor <;> linarith)
    · -- a tie: the two floors have different parities
      have htie : q - q.floor = 1 / 2 := le_antisymm (not_lt.1 h₂) (not_lt.1 h₁)
      have hfloor : ⌊-q⌋ = -q.floor - 1 := Int.floor_eq_iff.2 ⟨by push_cast; linarith, by push_cast; linarith⟩
      have hfloor : (-q).floor = -q.floor - 1 := hfloor
      have htie' : -q - ((-q.floor - 1 : ℤ) : ℚ) = 1 / 2 := by
        push_cast
        linarith
      simp only [roundHalfEven, htie, htie', lt_irrefl, if_false, hfloor]
      by_cases h₃ : q.floor % 2 = 0
      · rw [if_pos h₃, if_neg (by omega)]
        omega
      · rw [if_neg h₃, if_pos (by omega)]
        omega

theorem nearest_neg (q : ℚ) : nearest (-q) = -nearest q := by
  by_cases hq : q = 0
  · rw [hq, neg_zero, nearest, if_pos rfl, neg_zero]
  · have hu : unit (-q) = unit q := by rw [unit, unit, abs_neg]
    rw [nearest_eq (neg_ne_zero.2 hq), nearest_eq hq, hu, neg_div, roundHalfEven_neg]
    push_cast
    ring

/-- A multiple of the unit of `y` that is nearer than half of it. -/
theorem nearest_of_close {x y : ℚ} {m : ℤ} (hy : y ≠ 0) (hx : x = m * unit y) (h : |y - x| < unit y / 2) :
    nearest y = x := by
  have hu := unit_pos y
  have hquot : |y / unit y - m| < 1 / 2 := by
    have heq : y / unit y - m = (y - x) / unit y := by
      rw [hx]
      field_simp
    rw [heq, abs_div, abs_of_pos hu, div_lt_iff₀ hu]
    linarith
  rw [nearest_eq hy, roundHalfEven_of_close hquot, hx]

/-- A double: a value that `float` does not have to round. -/
def IsDouble (q : ℚ) : Prop := ofRat q = finite q

theorem IsDouble.nearest {q : ℚ} (h : IsDouble q) : nearest q = q ∧ |q| < 2 ^ 1024 := by
  unfold IsDouble ofRat at h
  by_cases hlt : |PyFloat.nearest q| < 2 ^ 1024
  · rw [if_pos hlt, PyFloat.finite.injEq] at h
    exact ⟨h, by rwa [h] at hlt⟩
  · rw [if_neg hlt] at h
    cases h

theorem ofRat_of_nearest {x y : ℚ} (h : nearest y = x) (hx : |x| < 2 ^ 1024) : ofRat y = finite x := by
  rw [ofRat, h, if_pos hx]

theorem IsDouble.neg {q : ℚ} (h : IsDouble q) : IsDouble (-q) :=
  ofRat_of_nearest (by rw [nearest_neg, h.nearest.1]) (by rw [abs_neg]; exact h.nearest.2)

theorem IsDouble.abs {q : ℚ} (h : IsDouble q) : IsDouble |q| := by
  by_cases hq : 0 ≤ q
  · rwa [abs_of_nonneg hq]
  · rw [abs_of_neg (not_le.1 hq)]
    exact h.neg

theorem ofRat_neg {x y : ℚ} (h : ofRat y = finite x) : ofRat (-y) = finite (-x) := by
  unfold ofRat at h
  by_cases hlt : |PyFloat.nearest y| < 2 ^ 1024
  · rw [if_pos hlt, PyFloat.finite.injEq] at h
    exact ofRat_of_nearest (by rw [nearest_neg, h]) (by rwa [abs_neg, ← h])
  · rw [if_neg hlt] at h
    cases h

theorem isDouble_zero : IsDouble 0 := ofRat_of_nearest (by rw [PyFloat.nearest, if_pos rfl]) (by norm_num)

/-- A double is a multiple of its own unit. -/
theorem IsDouble.multiple {x : ℚ} (hx : x ≠ 0) (h : IsDouble x) : ∃ m : ℤ, x = m * unit x := by
  refine ⟨roundHalfEven (x / unit x), ?_⟩
  rw [← nearest_eq hx, h.nearest.1]

/-! ## Seventeen digits -/

section Seventeen

variable {x y : ℚ}

theorem unit_of_pos (h : 0 < x) : unit x = 2 ^ max (Int.log 2 x - 52) (-1074) := by rw [unit, abs_of_pos h]

theorem le_of_zpow_le_zpow {a b : ℤ} (h : (2 : ℚ) ^ a ≤ 2 ^ b) : a ≤ b := (zpow_le_zpow_iff_right₀ (by norm_num)).1 h

/-- The power of two above a double is out of reach of a value that close. -/
theorem log_le_of_close (hx : 0 < x) (hd : IsDouble x) (hy : 0 < y) (h : |y - x| ≤ x / (2 * 10 ^ 16)) :
    Int.log 2 y ≤ Int.log 2 x := by
  obtain ⟨m, hm⟩ := hd.multiple hx.ne'
  rw [unit_of_pos hx] at hm
  have hlow : (2 : ℚ) ^ Int.log 2 x ≤ x := Int.zpow_log_le_self (by norm_num) hx
  have hhigh : x < (2 : ℚ) ^ (Int.log 2 x + 1) := Int.lt_zpow_succ_log_self (by norm_num) x
  have hylow : (2 : ℚ) ^ Int.log 2 y ≤ y := Int.zpow_log_le_self (by norm_num) hy
  generalize hex : Int.log 2 x = ex at hm hlow hhigh ⊢
  generalize hey : Int.log 2 y = ey at hylow ⊢
  by_contra hlt
  have hstep : (2 : ℚ) ^ (ex + 1) ≤ 2 ^ ey := zpow_le_zpow_right₀ (by norm_num) (by omega)
  have hu : (0 : ℚ) < 2 ^ max (ex - 52) (-1074) := by positivity
  have hmpos : 0 < m := by
    by_contra hneg
    have hm0 : (m : ℚ) ≤ 0 := by exact_mod_cast not_lt.1 hneg
    nlinarith
  -- `x` is no less than its unit, so the power of two above it is a multiple of that unit
  have hxu : (2 : ℚ) ^ max (ex - 52) (-1074) ≤ x := by
    have hm1 : (1 : ℚ) ≤ m := by exact_mod_cast hmpos
    rw [hm]
    nlinarith
  have hexp : max (ex - 52) (-1074) ≤ ex + 1 := le_of_zpow_le_zpow (hxu.trans hhigh.le)
  obtain ⟨k, hk⟩ := Int.eq_ofNat_of_zero_le (sub_nonneg.2 hexp)
  have hpow : (2 : ℚ) ^ (ex + 1) = ((2 ^ k : ℤ) : ℚ) * 2 ^ max (ex - 52) (-1074) := by
    have : ex + 1 = (k : ℤ) + max (ex - 52) (-1074) := by omega
    rw [this, zpow_add₀ (by norm_num), zpow_natCast]
    push_cast
    rfl
  have hmk : m < 2 ^ k := by
    have : (m : ℚ) * 2 ^ max (ex - 52) (-1074) < ((2 ^ k : ℤ) : ℚ) * 2 ^ max (ex - 52) (-1074) := by
      rw [← hm, ← hpow]
      exact hhigh
    exact_mod_cast lt_of_mul_lt_mul_right this hu.le
  have hgap : x + 2 ^ max (ex - 52) (-1074) ≤ 2 ^ (ex + 1) := by
    have hm1 : (m : ℚ) + 1 ≤ ((2 ^ k : ℤ) : ℚ) := by exact_mod_cast hmk
    rw [hpow]
    nth_rewrite 1 [hm]
    nlinarith
  have hunit : (2 : ℚ) ^ (ex - 52) ≤ 2 ^ max (ex - 52) (-1074) := zpow_le_zpow_right₀ (by norm_num) (le_max_left _ _)
  have hsucc : (2 : ℚ) ^ (ex + 1) = 2 * 2 ^ ex := by
    rw [zpow_add₀ (by norm_num), zpow_one]
    ring
  have hdown : (2 : ℚ) ^ (ex - 52) = 2 ^ ex / 2 ^ 52 := by
    rw [zpow_sub₀ (by norm_num)]
    norm_cast
  have hp : (0 : ℚ) < 2 ^ ex := by positivity
  have hclose := (abs_le.1 h).2
  rw [hsucc] at hhigh
  rw [hdown] at hunit
  norm_num at hunit hclose
  linarith

/-- **Seventeen digits tell doubles apart**: what comes that close to a double is rounded to it. -/
theorem nearest_of_seventeen (hx : 0 < x) (hd : IsDouble x) (h : |y - x| ≤ x / (2 * 10 ^ 16)) : nearest y = x := by
  obtain ⟨hlo, hhi⟩ := abs_le.1 h
  have hy : 0 < y := by
    norm_num at hlo
    linarith
  have hlog := log_le_of_close hx hd hy h
  obtain ⟨m, hm⟩ := hd.multiple hx.ne'
  have hyhigh : y < (2 : ℚ) ^ (Int.log 2 y + 1) := Int.lt_zpow_succ_log_self (by norm_num) y
  rw [unit_of_pos hx] at hm
  obtain ⟨k, hk⟩ : ∃ k : ℕ, max (Int.log 2 x - 52) (-1074) = (k : ℤ) + max (Int.log 2 y - 52) (-1074) := by
    refine ⟨(max (Int.log 2 x - 52) (-1074) - max (Int.log 2 y - 52) (-1074)).toNat, ?_⟩
    omega
  have hmult : x = ((m * 2 ^ k : ℤ) : ℚ) * unit y := by
    rw [unit_of_pos hy, hm, hk, zpow_add₀ (by norm_num), zpow_natCast]
    push_cast
    ring
  refine nearest_of_close hy.ne' hmult ?_
  have hunit : (2 : ℚ) ^ (Int.log 2 y - 52) ≤ unit y := by
    rw [unit_of_pos hy]
    exact zpow_le_zpow_right₀ (by norm_num) (le_max_left _ _)
  have hsucc : (2 : ℚ) ^ (Int.log 2 y + 1) = 2 * 2 ^ Int.log 2 y := by
    rw [zpow_add₀ (by norm_num), zpow_one]
    ring
  have hdown : (2 : ℚ) ^ (Int.log 2 y - 52) = 2 ^ Int.log 2 y / 2 ^ 52 := by
    rw [zpow_sub₀ (by norm_num)]
    norm_cast
  have hp : (0 : ℚ) < 2 ^ Int.log 2 y := by positivity
  rw [hsucc] at hyhigh
  rw [hdown] at hunit
  norm_num at hunit hlo hhi
  rw [abs_lt]
  constructor <;> linarith

end Seventeen

/-! ## The shortest digits -/

/-- The two `n`-digit decimals around a positive `q`, as an integer and a power of ten: the closer one first. -/
def around (q : ℚ) (n : Nat) : List (Nat × Int) :=
  let e : Int := Int.log 10 q - (n - 1 : Nat)
  let s := q / 10 ^ e
  let near := roundHalfEven s
  let far := if near = s.floor then near + 1 else s.floor
  [(near.toNat, e), (far.toNat, e)]

def decimal (d : Nat × Int) : ℚ := d.1 * 10 ^ d.2

/-- Those that `float` reads as `q`. -/
def reads (q : ℚ) (d : Nat × Int) : Bool := decide (ofRat (decimal d) = finite q)

def shortest (q : ℚ) : Nat × Int :=
  ((List.range 17).findSome? (fun n => (around q (n + 1)).find? (reads q))).getD (0, 0)

theorem near_reads {q : ℚ} (hq : 0 < q) (hd : IsDouble q) : ∃ d ∈ around q 17, reads q d = true := by
  have hten : (0 : ℚ) < 10 ^ (Int.log 10 q - ((17 - 1 : Nat) : Int)) := by positivity
  have hlow : (10 : ℚ) ^ Int.log 10 q ≤ q := Int.zpow_log_le_self (by norm_num) hq
  have hscale : (10 : ℚ) ^ (Int.log 10 q - ((17 - 1 : Nat) : Int)) = 10 ^ Int.log 10 q / 10 ^ 16 := by
    rw [zpow_sub₀ (by norm_num)]
    norm_cast
  have hround := abs_roundHalfEven_sub_le (q / 10 ^ (Int.log 10 q - ((17 - 1 : Nat) : Int)))
  have hnonneg : 0 ≤ roundHalfEven (q / 10 ^ (Int.log 10 q - ((17 - 1 : Nat) : Int))) := by
    have hpos : 0 < q / 10 ^ (Int.log 10 q - ((17 - 1 : Nat) : Int)) := div_pos hq hten
    have := (abs_le.1 hround).1
    by_contra hneg
    have : (roundHalfEven (q / 10 ^ (Int.log 10 q - ((17 - 1 : Nat) : Int))) : ℚ) ≤ -1 := by
      exact_mod_cast Int.le_sub_one_of_lt (not_le.1 hneg)
    linarith
  refine ⟨_, List.mem_cons_self, ?_⟩
  unfold reads decimal
  rw [decide_eq_true_eq]
  refine ofRat_of_nearest (nearest_of_seventeen hq hd ?_) hd.nearest.2
  have hcast : ((roundHalfEven (q / 10 ^ (Int.log 10 q - ((17 - 1 : Nat) : Int)))).toNat : ℚ) =
      roundHalfEven (q / 10 ^ (Int.log 10 q - ((17 - 1 : Nat) : Int))) := by
    exact_mod_cast Int.toNat_of_nonneg hnonneg
  simp only [hcast]
  have hfactor : (roundHalfEven (q / 10 ^ (Int.log 10 q - ((17 - 1 : Nat) : Int))) : ℚ) *
      10 ^ (Int.log 10 q - ((17 - 1 : Nat) : Int)) - q =
      (roundHalfEven (q / 10 ^ (Int.log 10 q - ((17 - 1 : Nat) : Int))) -
        q / 10 ^ (Int.log 10 q - ((17 - 1 : Nat) : Int))) * 10 ^ (Int.log 10 q - ((17 - 1 : Nat) : Int)) := by
    rw [sub_mul, div_mul_cancel₀ _ hten.ne']
  rw [hfactor, abs_mul, abs_of_pos hten]
  calc _ ≤ 1 / 2 * (10 : ℚ) ^ (Int.log 10 q - ((17 - 1 : Nat) : Int)) := by
        exact mul_le_mul_of_nonneg_right hround hten.le
    _ ≤ q / (2 * 10 ^ 16) := by
        rw [hscale]
        norm_num
        linarith

/-- **The digits of a double are read back as that double.** -/
theorem shortest_reads {q : ℚ} (hq : 0 < q) (hd : IsDouble q) : ofRat (decimal (shortest q)) = finite q := by
  have hsome : ((List.range 17).findSome? (fun n => (around q (n + 1)).find? (reads q))).isSome = true := by
    obtain ⟨d, hmem, hreads⟩ := near_reads hq hd
    rw [List.findSome?_isSome_iff]
    refine ⟨16, by simp, ?_⟩
    rw [List.find?_isSome]
    exact ⟨d, hmem, hreads⟩
  obtain ⟨d, hd⟩ := Option.isSome_iff_exists.1 hsome
  obtain ⟨n, -, hfind⟩ := List.exists_of_findSome?_eq_some hd
  have hreads : reads q d = true := List.find?_some hfind
  rw [shortest, hd]
  exact of_decide_eq_true hreads

end EdaLab.PyFloat
