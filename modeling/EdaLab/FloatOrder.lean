import EdaLab.Numeral
/-!
# FloatOrder — rounding keeps the order

`nearest_mono` carries bounds over a rounding.  With it the numeral `repr` writes has an exponent exactly for the doubles
below `0.0001` and from `1e16` on (`repr_exponent_iff`), though the digits it is made of only round to the double.
-/
namespace EdaLab

namespace PyFloat

variable {x y q : ℚ}

theorem le_roundHalfEven {n : ℤ} (h : (n : ℚ) ≤ q) : n ≤ roundHalfEven q := by
  have hround := (abs_le.1 (abs_roundHalfEven_sub_le q)).1
  have hlt : ((n - 1 : ℤ) : ℚ) < roundHalfEven q := by
    push_cast
    linarith
  have := Int.cast_lt.1 hlt
  omega

theorem roundHalfEven_le {n : ℤ} (h : q ≤ n) : roundHalfEven q ≤ n := by
  have hround := (abs_le.1 (abs_roundHalfEven_sub_le q)).2
  have hlt : (roundHalfEven q : ℚ) < (n + 1 : ℤ) := by
    push_cast
    linarith
  have := Int.cast_lt.1 hlt
  omega

theorem roundHalfEven_mono (h : x ≤ y) : roundHalfEven x ≤ roundHalfEven y := by
  by_contra hlt
  have hstep : ((roundHalfEven y + 1 : ℤ) : ℚ) ≤ roundHalfEven x := Int.cast_le.2 (by omega)
  have hx := (abs_le.1 (abs_roundHalfEven_sub_le x)).2
  have hy := (abs_le.1 (abs_roundHalfEven_sub_le y)).1
  push_cast at hstep
  -- both are the tie between the two
  have hsame : x = y := by linarith
  rw [hsame] at hlt
  exact hlt le_rfl

/-- A multiple of the unit stays. -/
theorem nearest_of_multiple {m : ℤ} (h : q = m * unit q) : nearest q = q := by
  by_cases hq : q = 0
  · rw [hq, nearest, if_pos rfl]
  · refine nearest_of_close hq h ?_
    rw [sub_self, abs_zero]
    exact half_pos (unit_pos q)

/-- A power of two that is a multiple of the unit separates the numbers below it from those above it. -/
theorem nearest_le_of_unit {z : ℚ} {m : ℤ} (hx : 0 < x) (hz : z = m * unit x) (h : x ≤ z) : nearest x ≤ z := by
  rw [nearest_eq hx.ne', hz]
  refine mul_le_mul_of_nonneg_right ?_ (unit_pos x).le
  rw [Int.cast_le]
  refine roundHalfEven_le ?_
  rw [div_le_iff₀ (unit_pos x), ← hz]
  exact h

theorem le_nearest_of_unit {z : ℚ} {m : ℤ} (hy : 0 < y) (hz : z = m * unit y) (h : z ≤ y) : z ≤ nearest y := by
  rw [nearest_eq hy.ne', hz]
  refine mul_le_mul_of_nonneg_right ?_ (unit_pos y).le
  rw [Int.cast_le]
  refine le_roundHalfEven ?_
  rw [le_div_iff₀ (unit_pos y), ← hz]
  exact h

/-- A power of two above one with a smaller exponent is a multiple of it. -/
theorem zpow_multiple {a k : ℤ} (h : k ≤ a) : ∃ m : ℤ, (2 : ℚ) ^ a = m * 2 ^ k := by
  refine ⟨2 ^ (a - k).toNat, ?_⟩
  push_cast
  rw [← zpow_natCast, ← zpow_add₀ (by norm_num), Int.toNat_of_nonneg (by omega)]
  congr 1
  omega

/-- **Rounding keeps the order.** -/
theorem nearest_mono (hx : 0 < x) (h : x ≤ y) : nearest x ≤ nearest y := by
  have hy : 0 < y := lt_of_lt_of_le hx h
  have hlog : Int.log 2 x ≤ Int.log 2 y := Int.log_mono_right hx h
  by_cases hunit : unit x = unit y
  · rw [nearest_eq hx.ne', nearest_eq hy.ne', hunit]
    refine mul_le_mul_of_nonneg_right ?_ (unit_pos y).le
    rw [Int.cast_le]
    exact roundHalfEven_mono (div_le_div_of_nonneg_right h (unit_pos y).le)
  · -- the power of two where `y` begins lies between them
    rw [unit_of_pos hx, unit_of_pos hy] at hunit
    have hexp : max (Int.log 2 x - 52) (-1074) ≠ max (Int.log 2 y - 52) (-1074) := fun heq => hunit (by rw [heq])
    have hlt : Int.log 2 x < Int.log 2 y := by omega
    have hbelow : x ≤ 2 ^ Int.log 2 y := by
      have hsucc : x < (2 : ℕ) ^ (Int.log 2 x + 1) := Int.lt_zpow_succ_log_self (by norm_num) x
      refine hsucc.le.trans ?_
      push_cast
      exact zpow_le_zpow_right₀ (by norm_num) (by omega)
    have habove : (2 : ℚ) ^ Int.log 2 y ≤ y := Int.zpow_log_le_self (by norm_num) hy
    obtain ⟨m, hm⟩ := zpow_multiple (show max (Int.log 2 x - 52) (-1074) ≤ Int.log 2 y by omega)
    obtain ⟨n, hn⟩ := zpow_multiple (show max (Int.log 2 y - 52) (-1074) ≤ Int.log 2 y by omega)
    rw [← unit_of_pos hx] at hm
    rw [← unit_of_pos hy] at hn
    exact (nearest_le_of_unit hx hm hbelow).trans (le_nearest_of_unit hy hn habove)

theorem nearest_nonneg (hx : 0 ≤ x) : 0 ≤ nearest x := by
  rcases hx.eq_or_lt with rfl | hpos
  · rw [nearest, if_pos rfl]
  · exact le_nearest_of_unit (m := 0) hpos (by simp) hpos.le

/-- What was rounded is not rounded again. -/
theorem nearest_nearest_of_pos (hx : 0 < x) : nearest (nearest x) = nearest x := by
  have hunit := unit_of_pos hx
  have hleast : -1074 ≤ max (Int.log 2 x - 52) (-1074) := le_max_right _ _
  have hbelow : x < 2 ^ (max (Int.log 2 x - 52) (-1074) + 53) := by
    have hsucc : x < (2 : ℕ) ^ (Int.log 2 x + 1) := Int.lt_zpow_succ_log_self (by norm_num) x
    refine hsucc.trans_le ?_
    push_cast
    exact zpow_le_zpow_right₀ (by norm_num) (by omega)
  have hround : nearest x = roundHalfEven (x / unit x) * unit x := nearest_eq hx.ne'
  have hnonneg : 0 ≤ nearest x := le_nearest_of_unit (m := 0) hx (by simp) hx.le
  generalize max (Int.log 2 x - 52) (-1074) = e at hunit hleast hbelow
  obtain ⟨n, hn⟩ := zpow_multiple (show e ≤ e + 53 by omega)
  have hle : nearest x ≤ 2 ^ (e + 53) := nearest_le_of_unit hx (by rw [hunit, hn]) hbelow.le
  generalize nearest x = v at hround hnonneg hle ⊢
  rcases hle.lt_or_eq with hlt | htop
  · rcases hnonneg.lt_or_eq with hpos | hzero
    · -- below the power of two the unit has not grown
      have hlog : Int.log 2 v < e + 53 := (Int.lt_zpow_iff_log_lt (by norm_num) hpos).1 (by exact_mod_cast hlt)
      obtain ⟨k, hk⟩ := zpow_multiple (show max (Int.log 2 v - 52) (-1074) ≤ e by omega)
      refine nearest_of_multiple (m := roundHalfEven (x / unit x) * k) ?_
      rw [unit_of_pos hpos]
      push_cast
      rw [mul_assoc, ← hk, ← hunit]
      exact hround
    · rw [← hzero, nearest, if_pos rfl]
  · have hlog : Int.log 2 v = e + 53 := by
      rw [htop]
      exact_mod_cast Int.log_zpow (R := ℚ) (b := 2) (by norm_num) (e + 53)
    have hpos : 0 < v := by
      rw [htop]
      positivity
    obtain ⟨k, hk⟩ := zpow_multiple (show max (Int.log 2 v - 52) (-1074) ≤ e + 53 by omega)
    refine nearest_of_multiple (m := k) ?_
    rw [unit_of_pos hpos, ← hk, htop]

/-- A sum of a rounded number and one that is not negative stays above the first when it is rounded. -/
theorem nearest_le_nearest_add (hx : 0 ≤ x) (hy : 0 ≤ y) : nearest x ≤ nearest (nearest x + y) := by
  rcases (nearest_nonneg hx).eq_or_lt with hzero | hpos
  · rw [← hzero]
    exact nearest_nonneg (add_nonneg le_rfl hy)
  · have hx0 : 0 < x := by
      rcases hx.eq_or_lt with rfl | h
      · rw [nearest, if_pos rfl] at hpos
        exact absurd hpos (lt_irrefl 0)
      · exact h
    calc nearest x = nearest (nearest x) := (nearest_nearest_of_pos hx0).symm
      _ ≤ nearest (nearest x + y) := nearest_mono hpos (le_add_of_nonneg_right hy)

/-- **What `float` makes of a number is a double.** -/
theorem isDouble_of_ofRat (h : ofRat y = finite q) : IsDouble q := by
  unfold ofRat at h
  by_cases hlt : |nearest y| < 2 ^ 1024
  · rw [if_pos hlt, PyFloat.finite.injEq] at h
    subst h
    refine ofRat_of_nearest ?_ hlt
    rcases lt_trichotomy y 0 with hneg | rfl | hpos
    · have hflip : nearest y = -nearest (-y) := by rw [nearest_neg, neg_neg]
      rw [hflip, nearest_neg, nearest_nearest_of_pos (neg_pos.2 hneg)]
    · have hzero : nearest 0 = 0 := by rw [nearest, if_pos rfl]
      rw [hzero, hzero]
    · exact nearest_nearest_of_pos hpos
  · rw [if_neg hlt] at h
    cases h

end PyFloat

namespace Numeral

/-- The digits of a number span its powers of ten. -/
theorem digitsOf_bounds {m : Nat} (h : 0 < m) :
    (10 : ℚ) ^ ((digitsOf m).length - 1 : ℤ) ≤ m ∧ (m : ℚ) < 10 ^ ((digitsOf m).length : ℤ) := by
  have hlen : 0 < (digitsOf m).length := List.length_pos_of_ne_nil (digitsOf_ne_nil h)
  have hdigits : (digitsOf m).length = (Nat.digits 10 m).length := List.length_reverse
  have hlow : 10 ^ ((digitsOf m).length - 1) ≤ m := by
    have hle := Nat.base_pow_length_digits_le 10 m (by norm_num) (by omega)
    rw [← hdigits] at hle
    obtain ⟨k, hk⟩ := Nat.exists_eq_succ_of_ne_zero (Nat.pos_iff_ne_zero.1 hlen)
    rw [hk, Nat.succ_eq_add_one, Nat.pow_succ] at hle
    rw [hk]
    simp only [Nat.succ_eq_add_one, Nat.add_sub_cancel]
    omega
  have hhigh : m < 10 ^ (digitsOf m).length := by
    rw [hdigits]
    exact Nat.lt_base_pow_length_digits (by norm_num)
  constructor
  · have hcast : (((digitsOf m).length : ℤ) - 1) = (((digitsOf m).length - 1 : ℕ) : ℤ) := by omega
    rw [hcast, zpow_natCast]
    exact_mod_cast hlow
  · rw [zpow_natCast]
    exact_mod_cast hhigh

theorem layout_exponent (negative : Bool) (ds : List Nat) (point : Int) :
    (layout negative ds point).exponent = none ↔ -4 < point ∧ point ≤ 16 := by
  unfold layout
  by_cases hfix : -4 < point ∧ point ≤ 16
  · rw [if_pos hfix]
    split
    · simp [hfix]
    · split
      · simp [hfix]
      · simp [hfix]
  · rw [if_neg hfix]
    simp [hfix]

/-- A decimal is written without an exponent from `0.0001` on and below `1e16`. -/
theorem ofDecimal_exponent (negative : Bool) {d : Nat × Int} (h : 0 < d.1) :
    (ofDecimal negative d).exponent = none ↔ 1 / 10 ^ 4 ≤ PyFloat.decimal d ∧ PyFloat.decimal d < 10 ^ 16 := by
  obtain ⟨hpos, hval⟩ := trimZeros_value d.1 d.1 d.2 h
  unfold ofDecimal
  dsimp only
  rw [layout_exponent, ← hval]
  generalize trimZeros d.1 d.1 d.2 = t at hpos
  obtain ⟨m, e⟩ := t
  dsimp only at hpos ⊢
  have hten : (1 : ℚ) < 10 := by norm_num
  obtain ⟨hlow, hhigh⟩ := digitsOf_bounds hpos
  have hscale : (0 : ℚ) < 10 ^ e := by positivity
  have hfirst : (10 : ℚ) ^ ((digitsOf m).length - 1 + e) ≤ PyFloat.decimal (m, e) := by
    rw [zpow_add₀ (by norm_num)]
    exact mul_le_mul_of_nonneg_right hlow hscale.le
  have hlast : PyFloat.decimal (m, e) < 10 ^ ((digitsOf m).length + e) := by
    rw [zpow_add₀ (by norm_num)]
    exact mul_lt_mul_of_pos_right hhigh hscale
  have hsmall : (1 : ℚ) / 10 ^ 4 = 10 ^ (-4 : ℤ) := by norm_num
  have hlarge : (10 : ℚ) ^ 16 = 10 ^ (16 : ℤ) := by norm_num
  rw [hsmall, hlarge]
  constructor
  · rintro ⟨hlo, hhi⟩
    exact ⟨(zpow_le_zpow_right₀ hten.le (by omega)).trans hfirst, hlast.trans_le (zpow_le_zpow_right₀ hten.le hhi)⟩
  · rintro ⟨hlo, hhi⟩
    have hmore := (zpow_lt_zpow_iff_right₀ hten).1 (hlo.trans_lt hlast)
    have hless := (zpow_lt_zpow_iff_right₀ hten).1 (hfirst.trans_lt hhi)
    exact ⟨hmore, by omega⟩

end Numeral

namespace PyFloat

theorem shortest_tenThousandth : nearest (1 / 10 ^ 4) = 7378697629483821 / 73786976294838206464 ∧
    shortest (7378697629483821 / 73786976294838206464) = (1, -4) := by
  decide +kernel

theorem shortest_tenPow : nearest (10 ^ 16) = 10 ^ 16 ∧ shortest (10 ^ 16) = (1, 16) := by
  decide +kernel

/-- The digits of a double lie in the range of plain numerals where it does. -/
theorem decimal_bounds {q : ℚ} (hq : 0 < q) (hd : IsDouble q) :
    (1 / 10 ^ 4 ≤ decimal (shortest q) ↔ 1 / 10 ^ 4 ≤ q) ∧ (decimal (shortest q) < 10 ^ 16 ↔ q < 10 ^ 16) := by
  have hpos : 0 < decimal (shortest q) := by
    have hfirst : (0 : ℚ) < (shortest q).1 := Nat.cast_pos.2 (shortest_pos hq hd)
    unfold decimal
    positivity
  have hround : nearest (decimal (shortest q)) = q := by
    have h := shortest_reads hq hd
    unfold ofRat at h
    split at h
    · exact PyFloat.finite.inj h
    · cases h
  obtain ⟨hnear, hshort⟩ := shortest_tenThousandth
  obtain ⟨hnear', hshort'⟩ := shortest_tenPow
  constructor
  · constructor
    · intro h
      have hmono := nearest_mono (by norm_num) h
      rw [hround, hnear] at hmono
      exact le_trans (by norm_num) hmono
    · intro h
      by_contra hlt
      -- then `q` is the double of `0.0001` itself
      have hup := nearest_mono hpos (not_le.1 hlt).le
      have hdown := nearest_mono (by norm_num) h
      rw [hround, hnear] at hup
      rw [hd.nearest.1, hnear] at hdown
      rw [le_antisymm hup hdown, hshort] at hlt
      exact hlt (by norm_num [decimal])
  · constructor
    · intro h
      by_contra hge
      have hup := nearest_mono hpos h.le
      rw [hround, hnear'] at hup
      rw [le_antisymm hup (not_lt.1 hge), hshort'] at h
      norm_num [decimal] at h
    · intro h
      by_contra hge
      have hmono := nearest_mono (by norm_num) (not_lt.1 hge)
      rw [hround, hnear'] at hmono
      exact absurd h (not_lt.2 hmono)

/-- **`repr` writes an exponent exactly below `0.0001` and from `1e16` on.** -/
theorem repr_exponent_iff {q : ℚ} (hd : IsDouble q) :
    (repr q).exponent = none ↔ q = 0 ∨ 1 / 10 ^ 4 ≤ |q| ∧ |q| < 10 ^ 16 := by
  unfold repr
  by_cases hq : q = 0
  · rw [if_pos hq]
    simp [hq]
  · have habs := abs_pos.2 hq
    obtain ⟨hlow, hhigh⟩ := decimal_bounds habs hd.abs
    rw [if_neg hq, Numeral.ofDecimal_exponent _ (shortest_pos habs hd.abs), hlow, hhigh]
    simp [hq]

end PyFloat

end EdaLab
