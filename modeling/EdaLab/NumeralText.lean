import EdaLab.Arithmetic
import EdaLab.PyJson
import EdaLab.ReportRun
/-!
# NumeralText — written numbers in a report

A numeral without an exponent is a `NUMBER`, and `float` reads it as what it is worth.  One with an exponent is not.
-/
namespace EdaLab

open Pattern (Matches)

namespace Numeral

theorem decimalValue_digitChar {d : Nat} (h : d < 10) : decimalValue d.digitChar = some d := by
  interval_cases d <;> decide

theorem isDecimal_digitChar {d : Nat} (h : d < 10) : isDecimal d.digitChar = true := by
  unfold isDecimal
  rw [decimalValue_digitChar h]
  rfl

theorem isDecimal_digits {ds : List Nat} (h : ∀ d ∈ ds, d < 10) : ∀ c ∈ digits ds, isDecimal c = true := by
  intro c hc
  obtain ⟨d, hd, rfl⟩ := List.mem_map.1 hc
  exact isDecimal_digitChar (h d hd)

theorem filterMap_digits {ds : List Nat} (h : ∀ d ∈ ds, d < 10) : (digits ds).filterMap decimalValue = ds := by
  unfold digits
  rw [List.filterMap_map]
  have hsame : ds.filterMap (decimalValue ∘ Nat.digitChar) = ds.filterMap some :=
    List.filterMap_congr (fun d hd => decimalValue_digitChar (h d hd))
  rw [hsame, List.filterMap_some]

variable {n : Numeral}

theorem whole_ne_nil (h : n.Wf) : n.whole ≠ [] := by
  rcases h.whole with hzero | ⟨hne, -⟩
  · simp [hzero]
  · exact hne

theorem digits_ne_nil {ds : List Nat} (h : ds ≠ []) : digits ds ≠ [] := by
  unfold digits
  rwa [Ne, List.map_eq_nil_iff]

/-- The text of a numeral without an exponent. -/
theorem text_plain (he : n.exponent = none) :
    n.text = (if n.negative then ['-'] else []) ++ (digits n.whole ++ fractionText n.fraction) := by
  unfold text
  rw [he]
  simp [exponentText]

theorem matches_number (h : n.Wf) (he : n.exponent = none) : Matches numberPattern n.text := by
  have hwhole := Pattern.matches_many1 (digits_ne_nil (whole_ne_nil h)) (isDecimal_digits h.lt_ten)
  have hsign : Matches (.opt (.one (fun c => decide (c = '-' ∨ c = '+')))) (if n.negative then ['-'] else []) := by
    by_cases hn : n.negative = true
    · rw [if_pos hn]
      exact .left (.one (by decide))
    · rw [if_neg hn]
      exact .right .empty
  have hfraction : Matches (.opt (.seq (.text ".") (.many1 (.one isDecimal)))) (fractionText n.fraction) := by
    cases hf : n.fraction with
    | none => exact .right .empty
    | some f =>
      obtain ⟨hne, hten⟩ := h.fraction f hf
      exact .left (.seq (v := ['.']) (.seq (v := ['.']) (.one (by decide)) .empty)
        (Pattern.matches_many1 (digits_ne_nil hne) (isDecimal_digits hten)))
  rw [text_plain he]
  have hall := Matches.seq hsign (Matches.seq hwhole (Matches.seq hfraction Matches.empty))
  rw [List.append_nil] at hall
  exact hall

theorem signed_text (h : n.Wf) (he : n.exponent = none) :
    signed n.text = (n.negative, digits n.whole ++ fractionText n.fraction) := by
  rw [text_plain he]
  by_cases hn : n.negative = true
  · rw [if_pos hn, hn]
    rfl
  · rw [if_neg hn, Bool.not_eq_true] at *
    rw [hn]
    cases hd : digits n.whole with
    | nil => exact absurd hd (digits_ne_nil (whole_ne_nil h))
    | cons c ds =>
      have hc : isDecimal c = true := isDecimal_digits h.lt_ten c (by rw [hd]; exact List.mem_cons_self)
      simp only [List.nil_append, List.cons_append]
      unfold signed
      split
      · rename_i heq
        cases heq
        exact absurd hc (by decide)
      · rename_i heq
        cases heq
        exact absurd hc (by decide)
      · rfl

theorem span_text (h : n.Wf) :
    (digits n.whole ++ fractionText n.fraction).takeWhile isDecimal = digits n.whole ∧
    (digits n.whole ++ fractionText n.fraction).dropWhile isDecimal = fractionText n.fraction := by
  have hall := isDecimal_digits h.lt_ten
  have hdot : isDecimal '.' = false := by decide
  rw [List.takeWhile_append_of_pos hall, List.dropWhile_append_of_pos hall]
  cases n.fraction with
  | none => simp [fractionText]
  | some f => simp [fractionText, hdot]

theorem value_plain (he : n.exponent = none) :
    n.value = if n.negative then -(natOf (n.whole ++ n.fraction.getD []) / 10 ^ (n.fraction.getD []).length : ℚ)
      else natOf (n.whole ++ n.fraction.getD []) / 10 ^ (n.fraction.getD []).length := by
  unfold value power
  rw [he]
  simp only [zero_sub, zpow_neg, zpow_natCast, div_eq_mul_inv]

/-- **`float` reads a numeral as what it is worth.** -/
theorem parse_text (A : Arithmetic) (py : Interpreter) (h : n.Wf) (he : n.exponent = none) :
    A.parse py n.text = .ok (A.float n.value) := by
  obtain ⟨htake, hdrop⟩ := span_text h
  unfold Arithmetic.parse
  rw [signed_text h he]
  simp only [htake, hdrop, if_neg (digits_ne_nil (whole_ne_nil h)), value_plain he]
  cases hf : n.fraction with
  | none =>
    simp only [fractionText, List.append_nil, filterMap_digits h.lt_ten, Option.getD_none, List.length_nil]
  | some f =>
    obtain ⟨hne, hten⟩ := h.fraction f hf
    have hfits : digits f ≠ [] ∧ (digits f).all isDecimal = true :=
      ⟨digits_ne_nil hne, List.all_eq_true.2 (isDecimal_digits hten)⟩
    simp only [fractionText, if_pos hfits, List.filterMap_append, filterMap_digits h.lt_ten, filterMap_digits hten,
      Option.getD_some]
    simp only [digits, List.length_map]

end Numeral

end EdaLab
