import EdaLab.FloatRepr
import Mathlib.Data.Nat.Digits.Lemmas
/-!
# Numeral — numbers as they are written

A numeral is a sign, digits, perhaps a fraction and perhaps an exponent, apart from what it is worth.  `PyFloat.repr` is the
numeral Python writes of a float: `repr_value` says that it is worth the float it was made of, `readNumber_text` that the
scanner of `json` finds it again in the text.
-/
namespace EdaLab

/-- A number as it is written. -/
structure Numeral where
  negative : Bool
  whole    : List Nat
  fraction : Option (List Nat) := none
  /-- Whether it is negative, and its digits. -/
  exponent : Option (Bool × List Nat) := none

namespace Numeral

def digits (ds : List Nat) : List Char := ds.map Nat.digitChar

def fractionText : Option (List Nat) → List Char
  | none   => []
  | some f => '.' :: digits f

def exponentText : Option (Bool × List Nat) → List Char
  | none        => []
  | some (s, x) => 'e' :: (if s then '-' else '+') :: digits x

def text (n : Numeral) : List Char :=
  (if n.negative then ['-'] else []) ++ (digits n.whole ++ (fractionText n.fraction ++ exponentText n.exponent))

def power (n : Numeral) : Int :=
  match n.exponent with
  | none            => 0
  | some (true, x)  => -(natOf x : Int)
  | some (false, x) => natOf x

def value (n : Numeral) : ℚ :=
  let q : ℚ := natOf (n.whole ++ n.fraction.getD []) * 10 ^ (n.power - (n.fraction.getD []).length)
  if n.negative then -q else q

/-- The digits of a number, the first one not zero. -/
def digitsOf (m : Nat) : List Nat := (Nat.digits 10 m).reverse

/-- `m · 10 ^ e` without the zeros `m` ends in. -/
def trimZeros : Nat → Nat → Int → Nat × Int
  | 0, m, e     => (m, e)
  | f + 1, m, e => if m % 10 = 0 then trimZeros f (m / 10) (e + 1) else (m, e)

/-- The digits `ds` with the point `point` places in, as `repr` lays them out: with an exponent below `0.0001` and from
`1e16` on. -/
def layout (negative : Bool) (ds : List Nat) (point : Int) : Numeral :=
  if -4 < point ∧ point ≤ 16 then
    if point ≤ 0 then { negative, whole := [0], fraction := some (List.replicate (-point).toNat 0 ++ ds) }
    else if (ds.length : Int) ≤ point then
      { negative, whole := ds ++ List.replicate (point - ds.length).toNat 0, fraction := some [0] }
    else { negative, whole := ds.take point.toNat, fraction := some (ds.drop point.toNat) }
  else
    let x := (point - 1).natAbs
    { negative
      whole    := ds.take 1
      fraction := if ds.length ≤ 1 then none else some (ds.drop 1)
      exponent := some (decide (point - 1 < 0), if x < 10 then [0, x] else digitsOf x) }

/-- `m · 10 ^ e`. -/
def ofDecimal (negative : Bool) (d : Nat × Int) : Numeral :=
  let (m, e) := trimZeros d.1 d.1 d.2
  layout negative (digitsOf m) ((digitsOf m).length + e)

end Numeral

/-- `repr` of a finite float. -/
def PyFloat.repr (q : ℚ) : Numeral :=
  if q = 0 then { negative := false, whole := [0], fraction := some [0] }
  else Numeral.ofDecimal (decide (q < 0)) (shortest |q|)

/-! ### What a numeral is worth -/

theorem natOf_append_digits (a b : List Nat) : natOf (a ++ b) = natOf a * 10 ^ b.length + natOf b := by
  unfold natOf
  induction b using List.reverseRecOn with
  | nil => simp
  | append_singleton b d ih =>
    rw [← List.append_assoc, List.foldl_append, ih, List.foldl_append, List.length_append, List.length_singleton, pow_succ]
    simp only [List.foldl_cons, List.foldl_nil]
    ring

theorem natOf_zeros (k : Nat) : natOf (List.replicate k 0) = 0 := by
  induction k with
  | zero => rfl
  | succ k ih =>
    rw [List.replicate_succ', natOf_append_digits, ih]
    rfl

theorem natOf_digitsOf (m : Nat) : natOf (Numeral.digitsOf m) = m := by
  rw [natOf, Numeral.digitsOf, List.foldl_reverse]
  conv => rhs; rw [← Nat.ofDigits_digits 10 m, Nat.ofDigits_eq_foldr]
  congr 1
  funext d n
  simp only [Nat.cast_id]
  ring

namespace Numeral

/-- The value of the digits `ds` with the point `point` places in. -/
def pointed (negative : Bool) (ds : List Nat) (point : Int) : ℚ :=
  let q : ℚ := natOf ds * 10 ^ (point - ds.length)
  if negative then -q else q

theorem layout_value (negative : Bool) {ds : List Nat} (hne : ds ≠ []) (point : Int) :
    (layout negative ds point).value = pointed negative ds point := by
  have hlen : 0 < ds.length := List.length_pos_of_ne_nil hne
  unfold layout
  by_cases hfix : -4 < point ∧ point ≤ 16
  · rw [if_pos hfix]
    by_cases hzero : point ≤ 0
    · rw [if_pos hzero]
      have hexp : (0 : Int) - ((-point).toNat + ds.length : Nat) = point - ds.length := by omega
      have hdigits : natOf ([0] ++ (List.replicate (-point).toNat 0 ++ ds)) = natOf ds := by
        rw [natOf_append_digits, natOf_append_digits, natOf_zeros]
        simp [natOf]
      simp only [value, pointed, power, Option.getD_some, hdigits, List.length_append, List.length_replicate, hexp]
    · rw [if_neg hzero]
      by_cases hlong : (ds.length : Int) ≤ point
      · rw [if_pos hlong]
        have hdigits : natOf (ds ++ List.replicate (point - ds.length).toNat 0 ++ [0]) =
            natOf ds * 10 ^ ((point - ds.length).toNat + 1) := by
          rw [List.append_assoc, natOf_append_digits, natOf_append_digits, natOf_zeros]
          simp [natOf]
        have hpow : (10 : ℚ) ^ ((point - ds.length).toNat + 1) * 10 ^ (-1 : Int) = 10 ^ (point - ds.length) := by
          rw [← zpow_natCast, ← zpow_add₀ (by norm_num)]
          congr 1
          omega
        simp only [value, pointed, power, Option.getD_some, hdigits, List.length_singleton]
        push_cast
        rw [mul_assoc, hpow]
      · rw [if_neg hlong]
        have hexp : (0 : Int) - (ds.length - point.toNat : Nat) = point - ds.length := by omega
        simp only [value, pointed, power, Option.getD_some, List.take_append_drop, List.length_drop, hexp]
  · rw [if_neg hfix]
    have hdigits : natOf (if (point - 1).natAbs < 10 then [0, (point - 1).natAbs] else digitsOf (point - 1).natAbs) =
        (point - 1).natAbs := by
      by_cases hx : (point - 1).natAbs < 10
      · rw [if_pos hx]
        simp [natOf]
      · rw [if_neg hx, natOf_digitsOf]
    have hfrac : (if ds.length ≤ 1 then none else some (ds.drop 1)).getD [] = ds.drop 1 := by
      by_cases h1 : ds.length ≤ 1
      · rw [if_pos h1, List.drop_eq_nil_of_le h1]
        rfl
      · rw [if_neg h1]
        rfl
    have hpower : (if point - 1 < 0 then -((point - 1).natAbs : Int) else (point - 1).natAbs) = point - 1 := by
      by_cases hneg : point - 1 < 0
      · rw [if_pos hneg]
        omega
      · rw [if_neg hneg]
        omega
    have hexp : point - 1 - (ds.length - 1 : Nat) = point - ds.length := by omega
    unfold value pointed power
    simp only [hfrac, List.take_append_drop, List.length_drop]
    by_cases hneg : point - 1 < 0
    · rw [if_pos hneg] at hpower
      simp only [decide_eq_true hneg, hdigits, hpower, hexp]
    · rw [if_neg hneg] at hpower
      simp only [decide_eq_false hneg, hdigits, hpower, hexp]

theorem trimZeros_value (f : Nat) : ∀ (m : Nat) (e : Int), 0 < m →
    0 < (trimZeros f m e).1 ∧ PyFloat.decimal (trimZeros f m e) = PyFloat.decimal (m, e) := by
  induction f with
  | zero =>
    intro m e hm
    exact ⟨hm, rfl⟩
  | succ f ih =>
    intro m e hm
    unfold trimZeros
    by_cases hz : m % 10 = 0
    · rw [if_pos hz]
      obtain ⟨hpos, hval⟩ := ih (m / 10) (e + 1) (by omega)
      refine ⟨hpos, hval.trans ?_⟩
      have hm10 : (m : ℚ) = (m / 10 : Nat) * 10 := by
        have : m = m / 10 * 10 := by omega
        exact_mod_cast this
      simp only [PyFloat.decimal]
      rw [zpow_add₀ (by norm_num), zpow_one, hm10]
      ring
    · rw [if_neg hz]
      exact ⟨hm, rfl⟩

theorem digitsOf_ne_nil {m : Nat} (h : 0 < m) : digitsOf m ≠ [] := by
  unfold digitsOf
  rw [List.reverse_ne_nil_iff]
  exact Nat.digits_ne_nil_iff_ne_zero.2 (by omega)

theorem ofDecimal_value (negative : Bool) {d : Nat × Int} (h : 0 < d.1) :
    (ofDecimal negative d).value = if negative then -PyFloat.decimal d else PyFloat.decimal d := by
  obtain ⟨hpos, hval⟩ := trimZeros_value d.1 d.1 d.2 h
  have hpoint : (digitsOf (trimZeros d.1 d.1 d.2).1).length + (trimZeros d.1 d.1 d.2).2 -
      ((digitsOf (trimZeros d.1 d.1 d.2).1).length : Int) = (trimZeros d.1 d.1 d.2).2 := by omega
  have hdec : (natOf (digitsOf (trimZeros d.1 d.1 d.2).1) : ℚ) * 10 ^ (trimZeros d.1 d.1 d.2).2 = PyFloat.decimal d := by
    rw [natOf_digitsOf]
    exact hval
  unfold ofDecimal
  simp only
  rw [layout_value _ (digitsOf_ne_nil hpos), pointed, hpoint, hdec]

end Numeral

theorem PyFloat.shortest_pos {q : ℚ} (hq : 0 < q) (hd : IsDouble q) : 0 < (shortest q).1 := by
  have h := shortest_reads hq hd
  by_contra hz
  have hz : (shortest q).1 = 0 := by omega
  have hdec : decimal (shortest q) = 0 := by rw [decimal, hz, Nat.cast_zero, zero_mul]
  rw [hdec, isDouble_zero, PyFloat.finite.injEq] at h
  exact hq.ne h

/-- **`float(repr(q))` is `q`.** -/
theorem PyFloat.repr_value {q : ℚ} (hd : IsDouble q) : ofRat (repr q).value = finite q := by
  unfold repr
  by_cases hq : q = 0
  · have hzero : Numeral.value { negative := false, whole := [0], fraction := some [0] } = 0 := by
      simp [Numeral.value, natOf]
    rw [if_pos hq, hzero, hq]
    exact isDouble_zero
  · have habs : 0 < |q| := abs_pos.2 hq
    have hreads := shortest_reads habs hd.abs
    rw [if_neg hq, Numeral.ofDecimal_value _ (shortest_pos habs hd.abs)]
    by_cases hneg : q < 0
    · rw [if_pos (decide_eq_true hneg), ofRat_neg hreads, abs_of_neg hneg, neg_neg]
    · rw [if_neg (by simpa using hneg), hreads, abs_of_nonneg (not_lt.1 hneg)]

/-! ### Reading one -/

namespace Json

def digitValue (c : Char) : Option Nat := if '0' ≤ c ∧ c ≤ '9' then some (c.toNat - 48) else none

/-- The digits a text starts with, and what follows them. -/
def readDigits : List Char → List Nat × List Char
  | []     => ([], [])
  | c :: s =>
    match digitValue c with
    | none   => ([], c :: s)
    | some d => (d :: (readDigits s).1, (readDigits s).2)

/-- `0|[1-9]\d*`. -/
def readWhole : List Char → Option (List Nat × List Char)
  | []     => none
  | c :: s => if c = '0' then some ([0], s) else if (readDigits (c :: s)).1 = [] then none else some (readDigits (c :: s))

/-- `(\.\d+)?`. -/
def readFraction : List Char → Option (List Nat) × List Char
  | []     => (none, [])
  | c :: s => if c = '.' ∧ (readDigits s).1 ≠ [] then (some (readDigits s).1, (readDigits s).2) else (none, c :: s)

/-- `([eE][-+]?\d+)?`. -/
def readExponent : List Char → Option (Bool × List Nat) × List Char
  | []     => (none, [])
  | c :: s =>
    let (negative, body) := signed s
    if (c = 'e' ∨ c = 'E') ∧ (readDigits body).1 ≠ [] then (some (negative, (readDigits body).1), (readDigits body).2)
    else (none, c :: s)

def readNumber (s : List Char) : Option (Numeral × List Char) :=
  let (negative, body) := if s.head? = some '-' then (true, s.tail) else (false, s)
  (readWhole body).map fun w =>
    let f := readFraction w.2
    let x := readExponent f.2
    (⟨negative, w.1, f.1, x.1⟩, x.2)

/-- A text that a run of digits does not run into. -/
def Stops (s : List Char) : Prop := ∀ c ∈ s.head?, digitValue c = none

theorem digitValue_digitChar {d : Nat} (h : d < 10) : digitValue d.digitChar = some d := by
  have hall : ∀ i : Fin 10, digitValue (Nat.digitChar i.val) = some i.val := by decide
  exact hall ⟨d, h⟩

theorem readDigits_stop {s : List Char} (h : Stops s) : readDigits s = ([], s) := by
  cases s with
  | nil => rfl
  | cons c s => rw [readDigits, h c rfl]

theorem readDigits_digits {ds : List Nat} (hd : ∀ d ∈ ds, d < 10) {s : List Char} (h : Stops s) :
    readDigits (Numeral.digits ds ++ s) = (ds, s) := by
  induction ds with
  | nil => exact readDigits_stop h
  | cons d ds ih =>
    have hrest := ih (fun x hx => hd x (List.mem_cons_of_mem _ hx))
    rw [Numeral.digits, List.map_cons, List.cons_append, readDigits, digitValue_digitChar (hd d List.mem_cons_self)]
    rw [Numeral.digits] at hrest
    simp only [hrest]

end Json

/-- The numerals that JSON allows. -/
structure Numeral.Wf (n : Numeral) : Prop where
  whole    : n.whole = [0] ∨ n.whole ≠ [] ∧ n.whole.head? ≠ some 0
  lt_ten   : ∀ d ∈ n.whole, d < 10
  fraction : ∀ f ∈ n.fraction, f ≠ [] ∧ ∀ d ∈ f, d < 10
  exponent : ∀ x ∈ n.exponent, x.2 ≠ [] ∧ ∀ d ∈ x.2, d < 10

namespace Json

/-- A text that goes on with no number. -/
def Ends (s : List Char) : Prop := ∀ c ∈ s.head?, digitValue c = none ∧ c ≠ '.' ∧ c ≠ 'e' ∧ c ≠ 'E'

variable {n : Numeral} {s : List Char}

theorem Ends.stops (h : Ends s) : Stops s := fun c hc => (h c hc).1

theorem readExponent_text (hx : ∀ x ∈ n.exponent, x.2 ≠ [] ∧ ∀ d ∈ x.2, d < 10) (h : Ends s) :
    readExponent (Numeral.exponentText n.exponent ++ s) = (n.exponent, s) := by
  cases he : n.exponent with
  | none =>
    cases s with
    | nil => rfl
    | cons c s =>
      obtain ⟨-, -, h₁, h₂⟩ := h c rfl
      have hc : ¬ ((c = 'e' ∨ c = 'E') ∧ (readDigits (signed s).2).1 ≠ []) := fun hc => hc.1.elim h₁ h₂
      rw [Numeral.exponentText, List.nil_append]
      unfold readExponent
      simp only
      rw [if_neg hc]
  | some x =>
    obtain ⟨negative, ds⟩ := x
    obtain ⟨hne, hd⟩ := hx _ he
    have hsign : signed ((if negative then '-' else '+') :: (Numeral.digits ds ++ s)) =
        (negative, Numeral.digits ds ++ s) := by
      by_cases hn : negative = true
      · rw [hn]
        rfl
      · rw [Bool.not_eq_true] at hn
        rw [hn]
        rfl
    simp only [Numeral.exponentText, List.cons_append, readExponent, hsign, readDigits_digits hd h.stops]
    rw [if_pos ⟨Or.inl trivial, hne⟩]

theorem stops_exponent (h : Ends s) : Stops (Numeral.exponentText n.exponent ++ s) := by
  cases n.exponent with
  | none => exact h.stops
  | some x =>
    intro c hc
    obtain rfl : 'e' = c := by simpa [Numeral.exponentText] using hc
    decide

theorem readFraction_text (hf : ∀ f ∈ n.fraction, f ≠ [] ∧ ∀ d ∈ f, d < 10) (h : Ends s) :
    readFraction (Numeral.fractionText n.fraction ++ (Numeral.exponentText n.exponent ++ s)) =
      (n.fraction, Numeral.exponentText n.exponent ++ s) := by
  have hstops := stops_exponent (n := n) h
  cases hn : n.fraction with
  | none =>
    have hpoint : ∀ c ∈ (Numeral.exponentText n.exponent ++ s).head?, c ≠ '.' := by
      intro c hc
      cases he : n.exponent with
      | none =>
        rw [he] at hc
        exact (h c hc).2.1
      | some x =>
        rw [he] at hc
        obtain rfl : 'e' = c := by simpa [Numeral.exponentText] using hc
        decide
    rw [Numeral.fractionText, List.nil_append]
    cases ht : Numeral.exponentText n.exponent ++ s with
    | nil => rfl
    | cons c t =>
      rw [ht] at hpoint
      rw [readFraction, if_neg (fun hc => hpoint c rfl hc.1)]
  | some f =>
    obtain ⟨hne, hd⟩ := hf f hn
    simp only [Numeral.fractionText, List.cons_append, readFraction, readDigits_digits hd hstops]
    rw [if_pos ⟨trivial, hne⟩]

theorem stops_fraction (h : Ends s) :
    Stops (Numeral.fractionText n.fraction ++ (Numeral.exponentText n.exponent ++ s)) := by
  cases n.fraction with
  | none => exact stops_exponent h
  | some f =>
    intro c hc
    obtain rfl : '.' = c := by simpa [Numeral.fractionText] using hc
    decide

theorem digitChar_ne_zero {d : Nat} (h : d < 10) (hz : d ≠ 0) : d.digitChar ≠ '0' := by
  intro hc
  have hv := digitValue_digitChar h
  rw [hc] at hv
  exact hz (Option.some.inj hv).symm

theorem readWhole_text (hw : n.whole = [0] ∨ n.whole ≠ [] ∧ n.whole.head? ≠ some 0) (hd : ∀ d ∈ n.whole, d < 10)
    (h : Stops s) : readWhole (Numeral.digits n.whole ++ s) = some (n.whole, s) := by
  have hread := readDigits_digits hd h
  rcases hw with hw | ⟨hne, hhead⟩
  · rw [hw]
    rfl
  · cases hl : n.whole with
    | nil => exact absurd hl hne
    | cons d ds =>
      have hfirst : d.digitChar ≠ '0' := by
        apply digitChar_ne_zero (hd d (by rw [hl]; exact List.mem_cons_self))
        intro hz
        exact hhead (by rw [hl, hz]; rfl)
      rw [hl] at hread
      rw [Numeral.digits, List.map_cons, List.cons_append] at hread ⊢
      rw [readWhole, if_neg hfirst, hread, if_neg (by simp)]

theorem digitChar_ne_minus {d : Nat} (h : d < 10) : d.digitChar ≠ '-' := by
  intro hc
  have hv := digitValue_digitChar h
  rw [hc] at hv
  cases hv

/-- **A numeral is read back from its text.** -/
theorem readNumber_text (hn : n.Wf) (h : Ends s) : readNumber (n.text ++ s) = some (n, s) := by
  obtain ⟨hw, hd, hf, hx⟩ := hn
  have hwhole := readWhole_text hw hd (stops_fraction (n := n) h)
  have hfraction := readFraction_text hf h
  have hexponent := readExponent_text hx h
  have hbody : (if (n.text ++ s).head? = some '-' then (true, (n.text ++ s).tail) else (false, n.text ++ s)) =
      (n.negative, Numeral.digits n.whole ++ (Numeral.fractionText n.fraction ++
        (Numeral.exponentText n.exponent ++ s))) := by
    by_cases hneg : n.negative = true
    · simp only [Numeral.text, hneg, if_true, List.cons_append, List.nil_append, List.head?_cons, List.tail_cons,
        List.append_assoc]
    · rw [Bool.not_eq_true] at hneg
      have hhead : (n.text ++ s).head? ≠ some '-' := by
        have hne : n.whole ≠ [] := by
          rcases hw with hw | hw
          · rw [hw]
            simp
          · exact hw.1
        obtain ⟨d, ds, hl⟩ := List.exists_cons_of_ne_nil hne
        have hfirst := digitChar_ne_minus (hd d (by rw [hl]; exact List.mem_cons_self))
        simp [Numeral.text, hneg, hl, Numeral.digits, hfirst]
      rw [if_neg hhead]
      simp [Numeral.text, hneg]
  unfold readNumber
  rw [hbody]
  simp only [hwhole, Option.map_some, hfraction, hexponent]

end Json

namespace Numeral

/-! ### What `repr` writes can be read -/

theorem digitsOf_lt_ten {m d : Nat} (h : d ∈ digitsOf m) : d < 10 :=
  Nat.digits_lt_base (by norm_num) (List.mem_reverse.1 h)

theorem digitsOf_head {m : Nat} (h : 0 < m) : (digitsOf m).head? ≠ some 0 := by
  have hne : Nat.digits 10 m ≠ [] := Nat.digits_ne_nil_iff_ne_zero.2 (by omega)
  have hlast := Nat.getLast_digit_ne_zero 10 (m := m) (by omega)
  rw [digitsOf, List.head?_reverse, List.getLast?_eq_some_getLast hne]
  intro hz
  exact hlast (Option.some.inj hz)

theorem layout_wf (negative : Bool) {ds : List Nat} (hne : ds ≠ []) (hhead : ds.head? ≠ some 0) (hd : ∀ d ∈ ds, d < 10)
    (point : Int) : (layout negative ds point).Wf := by
  have hlen : 0 < ds.length := List.length_pos_of_ne_nil hne
  have hzeros : ∀ k, ∀ d ∈ List.replicate k 0, d < 10 := by
    intro k d hmem
    rw [List.eq_of_mem_replicate hmem]
    norm_num
  unfold layout
  by_cases hfix : -4 < point ∧ point ≤ 16
  · rw [if_pos hfix]
    by_cases hzero : point ≤ 0
    · rw [if_pos hzero]
      refine ⟨Or.inl rfl, by simp, ?_, by simp⟩
      intro f hf
      obtain rfl := Option.some.inj hf
      refine ⟨by simp [hne], fun d hmem => ?_⟩
      rcases List.mem_append.1 hmem with h | h
      · exact hzeros _ d h
      · exact hd d h
    · rw [if_neg hzero]
      by_cases hlong : (ds.length : Int) ≤ point
      · rw [if_pos hlong]
        refine ⟨Or.inr ⟨by simp [hne], ?_⟩, fun d hmem => ?_, by simp, by simp⟩
        · rw [List.head?_append_of_ne_nil _ hne]
          exact hhead
        · rcases List.mem_append.1 hmem with h | h
          · exact hd d h
          · exact hzeros _ d h
      · rw [if_neg hlong]
        refine ⟨Or.inr ⟨?_, ?_⟩, fun d hmem => hd d (List.mem_of_mem_take hmem), ?_, by simp⟩
        · have hk : point.toNat ≠ 0 := by omega
          simp [hne, hk]
        · rw [List.head?_take, if_neg (by omega)]
          exact hhead
        · intro f hf
          obtain rfl := Option.some.inj hf
          refine ⟨?_, fun d hmem => hd d (List.mem_of_mem_drop hmem)⟩
          rw [ne_eq, List.drop_eq_nil_iff]
          omega
  · rw [if_neg hfix]
    refine ⟨Or.inr ⟨?_, ?_⟩, fun d hmem => hd d (List.mem_of_mem_take hmem), ?_, ?_⟩
    · simp [hne]
    · rw [List.head?_take, if_neg (by omega)]
      exact hhead
    · intro f hf
      by_cases h1 : ds.length ≤ 1
      · simp [h1] at hf
      · obtain rfl : ds.drop 1 = f := by simpa [h1] using hf
        refine ⟨?_, fun d hmem => hd d (List.mem_of_mem_drop hmem)⟩
        rw [ne_eq, List.drop_eq_nil_iff]
        omega
    · intro x hx
      obtain rfl := Option.some.inj hx
      by_cases h10 : (point - 1).natAbs < 10
      · simp only [if_pos h10]
        exact ⟨by simp, by simpa using h10⟩
      · simp only [if_neg h10]
        exact ⟨digitsOf_ne_nil (by omega), fun d => digitsOf_lt_ten⟩

theorem ofDecimal_wf (negative : Bool) {d : Nat × Int} (h : 0 < d.1) : (ofDecimal negative d).Wf := by
  have hpos := (trimZeros_value d.1 d.1 d.2 h).1
  exact layout_wf negative (digitsOf_ne_nil hpos) (digitsOf_head hpos) (fun d => digitsOf_lt_ten) _

/-- `repr` of a float is no spelling of an integer. -/
def isFloat (n : Numeral) : Bool := n.fraction.isSome || n.exponent.isSome

theorem layout_isFloat (negative : Bool) (ds : List Nat) (point : Int) : (layout negative ds point).isFloat = true := by
  unfold layout isFloat
  by_cases hfix : -4 < point ∧ point ≤ 16
  · rw [if_pos hfix]
    by_cases hzero : point ≤ 0
    · rw [if_pos hzero]
      rfl
    · rw [if_neg hzero]
      by_cases hlong : (ds.length : Int) ≤ point
      · rw [if_pos hlong]
        rfl
      · rw [if_neg hlong]
        rfl
  · rw [if_neg hfix]
    simp

end Numeral

namespace PyFloat

variable {q : ℚ}

theorem repr_wf (hd : IsDouble q) : (repr q).Wf := by
  unfold repr
  by_cases hq : q = 0
  · rw [if_pos hq]
    exact ⟨Or.inl rfl, by simp, by simp, by simp⟩
  · rw [if_neg hq]
    exact Numeral.ofDecimal_wf _ (shortest_pos (abs_pos.2 hq) hd.abs)

theorem repr_isFloat (q : ℚ) : (repr q).isFloat = true := by
  unfold repr
  by_cases hq : q = 0
  · rw [if_pos hq]
    rfl
  · rw [if_neg hq]
    exact Numeral.layout_isFloat _ _ _

end PyFloat

end EdaLab
