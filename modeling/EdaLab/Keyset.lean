import Mathlib.Data.List.Sort
import Mathlib.Order.Basic
/-!
# Keyset — pages of a changing collection, newest first

A page is the first rows below a bound, in descending order of their keys (`select`), and the bound of the next page is the
key the page ends with.  Between the selection and the answer rows may be read again and have changed; `S` are those that
stand still.  `Progress` says what the pages so far have returned of them: exactly those at or above the bound, in
descending order.  A page that is turned keeps it (`Progress.turn`), where the row it ends with was re-read at the key it
was selected at; the last page completes it (`Progress.finish`).
-/
namespace Keyset

variable {ρ κ : Type} [LinearOrder κ] {key : ρ → κ}

/-- Below the bound, if there is one. -/
def below (bound : Option κ) (k : κ) : Bool := bound.all (fun b => decide (k < b))

def descending (key : ρ → κ) (rows : List ρ) : List ρ := rows.insertionSort (fun a b => key b ≤ key a)

/-- The first `n` rows below the bound. -/
def select (key : ρ → κ) (rows : List ρ) (bound : Option κ) (n : Nat) : List ρ :=
  (descending key (rows.filter (fun r => below bound (key r)))).take n

theorem below_none (k : κ) : below none k = true := rfl

theorem below_some {b k : κ} : below (some b) k = true ↔ k < b := by simp [below]

section Select

variable {rows : List ρ} {bound : Option κ} {n : Nat}

theorem descending_pairwise (key : ρ → κ) (rows : List ρ) : (descending key rows).Pairwise (fun a b => key b ≤ key a) := by
  have : Std.Total (fun a b : ρ => key b ≤ key a) := ⟨fun a b => le_total (key b) (key a)⟩
  have : IsTrans ρ (fun a b : ρ => key b ≤ key a) := ⟨fun a b c hab hbc => hbc.trans hab⟩
  exact List.pairwise_insertionSort _ _

theorem mem_descending {r : ρ} : r ∈ descending key rows ↔ r ∈ rows :=
  (List.perm_insertionSort _ rows).mem_iff

theorem mem_select {r : ρ} (h : r ∈ select key rows bound n) : r ∈ rows ∧ below bound (key r) = true := by
  have hmem := mem_descending.1 (List.mem_of_mem_take h)
  simpa using List.mem_filter.1 hmem

/-- A row below the bound is selected, or a full selection is above it. -/
theorem select_complete {r : ρ} (hr : r ∈ rows) (hb : below bound (key r) = true) : r ∈ select key rows bound n ∨
    (select key rows bound n).length = n ∧ ∀ x ∈ select key rows bound n, key r ≤ key x := by
  have hmem : r ∈ descending key (rows.filter (fun r => below bound (key r))) :=
    mem_descending.2 (List.mem_filter.2 ⟨hr, hb⟩)
  have hsorted := descending_pairwise key (rows.filter (fun r => below bound (key r)))
  unfold select
  generalize descending key (rows.filter (fun r => below bound (key r))) = l at hmem hsorted ⊢
  rw [← List.take_append_drop n l, List.mem_append] at hmem
  rw [← List.take_append_drop n l, List.pairwise_append] at hsorted
  rcases hmem with h | h
  · exact Or.inl h
  · refine Or.inr ⟨?_, fun x hx => hsorted.2.2 x hx r h⟩
    have hpos := List.length_pos_of_mem h
    rw [List.length_drop] at hpos
    rw [List.length_take]
    omega

theorem select_pairwise (hinj : (rows.map key).Nodup) :
    (select key rows bound n).Pairwise (fun a b => key b < key a) := by
  have hsorted := descending_pairwise key (rows.filter (fun r => below bound (key r)))
  have hnodup : ((descending key (rows.filter (fun r => below bound (key r)))).map key).Nodup := by
    have hperm := (List.perm_insertionSort (fun a b => key b ≤ key a)
      (rows.filter (fun r => below bound (key r)))).map key
    exact hperm.nodup_iff.2 (hinj.sublist (List.filter_sublist.map key))
  have hstrict : (descending key (rows.filter (fun r => below bound (key r)))).Pairwise (fun a b => key b < key a) := by
    have hne := List.pairwise_map.1 hnodup
    exact hsorted.imp₂ (fun a b hle hne => lt_of_le_of_ne hle (Ne.symm hne)) hne
  exact hstrict.sublist (List.take_sublist _ _)

theorem select_length_le : (select key rows bound n).length ≤ n := by
  rw [select, List.length_take]
  exact Nat.min_le_left _ _

/-- **The first rows shown of a list with hidden rows** are the first of those it shows, where the cut hides none of its
rows or leaves out none that is shown. -/
theorem take_filter {l : List ρ} {p : ρ → Bool} (hnodup : (l.filter p).Nodup)
    (h : (∃ x ∈ l.take n, p x = false) → ∀ x ∈ l, p x = true → x ∈ l.take n) :
    (l.take n).filter p = (l.filter p).take n := by
  have hsplit : l.filter p = (l.take n).filter p ++ (l.drop n).filter p :=
    by rw [← List.filter_append, List.take_append_drop]
  by_cases hhidden : ∃ x ∈ l.take n, p x = false
  · have hrest : (l.drop n).filter p = [] := by
      rw [List.filter_eq_nil_iff]
      intro x hx hpx
      have hfirst := List.mem_filter.2 ⟨h hhidden x (List.mem_of_mem_drop hx) hpx, hpx⟩
      rw [hsplit] at hnodup
      exact (List.disjoint_of_nodup_append hnodup) hfirst (List.mem_filter.2 ⟨hx, hpx⟩)
    have hlength : ((l.take n).filter p).length ≤ n := (List.length_filter_le _ _).trans (List.length_take_le _ _)
    rw [hsplit, hrest, List.append_nil, List.take_of_length_le hlength]
  · have hall : (l.take n).filter p = l.take n := by
      rw [List.filter_eq_self]
      intro x hx
      by_contra hpx
      exact hhidden ⟨x, hx, by simpa using hpx⟩
    rw [hsplit, hall]
    by_cases hle : n ≤ l.length
    · rw [List.take_left' (by rw [List.length_take, Nat.min_eq_left hle])]
    · have hdrop : l.drop n = [] := List.drop_eq_nil_of_le (by omega)
      rw [hdrop, List.filter_nil, List.append_nil, List.take_take, Nat.min_self]

end Select

/-! ## What pages return of the rows that stand still -/

/-- What the rows were when they were selected and what they are when they are read again: those of `S` are the same. -/
def Reread (S : ρ → Prop) (selected reread : List ρ) : Prop := List.Forall₂ (fun a b => S a ∨ S b → a = b) selected reread

structure Progress (key : ρ → κ) (S : ρ → Prop) (bound : Option κ) (out : List ρ) : Prop where
  returned : ∀ r, S r → (r ∈ out ↔ below bound (key r) = false)
  ordered  : out.Pairwise (fun a b => S a → S b → key b < key a)

variable {S : ρ → Prop}

theorem Progress.start : Progress key S none [] := ⟨fun r _ => by simp [below_none], List.Pairwise.nil⟩

theorem Reread.mem_iff {l m : List ρ} (h : Reread S l m) {r : ρ} (hr : S r) : r ∈ m ↔ r ∈ l := by
  induction h with
  | nil => rfl
  | @cons a b l m hab _ ih =>
    rw [List.mem_cons, List.mem_cons, ih]
    constructor
    · rintro (rfl | h)
      · exact Or.inl (hab (Or.inr hr)).symm
      · exact Or.inr h
    · rintro (rfl | h)
      · exact Or.inl (hab (Or.inl hr))
      · exact Or.inr h

theorem Reread.pairwise {l m : List ρ} (h : Reread S l m) (hl : l.Pairwise (fun a b => key b < key a)) :
    m.Pairwise (fun a b => S a → S b → key b < key a) := by
  induction h with
  | nil => exact List.Pairwise.nil
  | @cons a b l m hab hrest ih =>
    obtain ⟨hhead, htail⟩ := List.pairwise_cons.1 hl
    refine List.pairwise_cons.2 ⟨fun c hc hb hcs => ?_, ih htail⟩
    have hmem : c ∈ l := (Reread.mem_iff hrest hcs).1 hc
    have hsame := hab (Or.inr hb)
    subst hsame
    exact hhead c hmem

theorem Reread.take {l m : List ρ} (h : Reread S l m) (n : Nat) : Reread S (l.take n) (m.take n) :=
  List.forall₂_take n h

section Turn

variable {rows reread out : List ρ} {bound : Option κ} {n : Nat}

/-- The rows of a page are below all that was returned before. -/
theorem Progress.append (hp : Progress key S bound out) {page selected : List ρ} (hpage : Reread S selected page)
    (hbelow : ∀ r ∈ selected, below bound (key r) = true) (hsorted : selected.Pairwise (fun a b => key b < key a)) :
    (out ++ page).Pairwise (fun a b => S a → S b → key b < key a) := by
  refine List.pairwise_append.2 ⟨hp.ordered, hpage.pairwise hsorted, fun a ha b hb hsa hsb => ?_⟩
  have habove := (hp.returned a hsa).1 ha
  have hb := hbelow b ((hpage.mem_iff hsb).1 hb)
  cases bound with
  | none => cases habove
  | some k =>
    have hka : ¬ key a < k := by
      intro hlt
      rw [below_some.2 hlt] at habove
      cases habove
    exact lt_of_lt_of_le (below_some.1 hb) (not_lt.1 hka)

/-- **The last page completes the scan.** -/
theorem Progress.finish (hp : Progress key S bound out) (hS : ∀ r, S r → r ∈ rows) (hinj : (rows.map key).Nodup)
    (hread : Reread S (select key rows bound (n + 1)) reread) (hlast : (select key rows bound (n + 1)).length ≤ n) :
    (∀ r, S r → r ∈ out ++ reread) ∧ (out ++ reread).Pairwise (fun a b => S a → S b → key b < key a) := by
  refine ⟨fun r hr => ?_, hp.append hread (fun r hr => (mem_select hr).2) (select_pairwise hinj)⟩
  rw [List.mem_append]
  by_cases hb : below bound (key r) = true
  · rcases select_complete (n := n + 1) (hS r hr) hb with hsel | ⟨hfull, -⟩
    · exact Or.inr ((hread.mem_iff hr).2 hsel)
    · omega
  · exact Or.inl ((hp.returned r hr).2 (by simpa using hb))

/-- **A page that is turned keeps the progress**, with the key of the row it ends with as the new bound. -/
theorem Progress.turn (hp : Progress key S bound out) (hS : ∀ r, S r → r ∈ rows) (hinj : (rows.map key).Nodup)
    (hread : Reread S (select key rows bound (n + 1)) reread) (hfull : (select key rows bound (n + 1)).length = n + 1)
    {x : ρ} (hx : (select key rows bound (n + 1))[n - 1]? = some x) (hn : 0 < n) :
    Progress key S (some (key x)) (out ++ reread.take n) := by
  have hsorted : (select key rows bound (n + 1)).Pairwise (fun a b => key b < key a) := select_pairwise hinj
  have hbelow : ∀ r ∈ select key rows bound (n + 1), below bound (key r) = true := fun r hr => (mem_select hr).2
  generalize hsel : select key rows bound (n + 1) = selected at hread hfull hx hsorted hbelow
  have hpage := hread.take n
  have hxmem : x ∈ selected := List.mem_of_getElem? hx
  obtain ⟨i, hi⟩ : ∃ i, i + 1 = n := ⟨n - 1, by omega⟩
  subst hi
  rw [Nat.add_sub_cancel] at hx
  obtain ⟨hlt, hget⟩ := List.getElem?_eq_some_iff.1 hx
  have hsplit : selected.take (i + 1) = selected.take i ++ [x] := by
    rw [List.take_add_one, hx]
    rfl
  -- the page is at or above `x`, the rest of the selection below it
  have habove : ∀ r ∈ selected.take (i + 1), key x ≤ key r := by
    have hs := hsorted.sublist (List.take_sublist (i + 1) selected)
    rw [hsplit, List.pairwise_append] at hs
    intro r hr
    rw [hsplit, List.mem_append, List.mem_singleton] at hr
    rcases hr with hr | rfl
    · exact (hs.2.2 r hr x List.mem_cons_self).le
    · exact le_refl _
  have hrest : ∀ r ∈ selected.drop (i + 1), key r < key x := by
    have hs := hsorted
    rw [← List.take_append_drop (i + 1) selected, List.pairwise_append] at hs
    intro r hr
    exact hs.2.2 x (by rw [hsplit]; simp) r hr
  refine ⟨fun r hr => ?_, hp.append hpage (fun r hr => hbelow r (List.mem_of_mem_take hr))
    (hsorted.sublist (List.take_sublist _ _))⟩
  rw [List.mem_append, hp.returned r hr, hpage.mem_iff hr, ← Bool.not_eq_true, ← Bool.not_eq_true, below_some, not_lt]
  constructor
  · rintro (hb | hmem)
    · -- what was at or above the old bound is above the new one
      have hxb := hbelow x hxmem
      cases bound with
      | none => exact absurd (below_none _) hb
      | some k => exact ((below_some.1 hxb).trans_le (not_lt.1 (fun h => hb (below_some.2 h)))).le
    · exact habove r hmem
  · intro hle
    by_cases hb : below bound (key r) = true
    · right
      rcases select_complete (n := i + 1 + 1) (hS r hr) hb with hmem | ⟨-, hall⟩
      · rw [hsel, ← List.take_append_drop (i + 1) selected, List.mem_append] at hmem
        rcases hmem with hmem | hmem
        · exact hmem
        · exact absurd (hrest r hmem) (not_lt.2 hle)
      · -- a full selection holds a row below `x`, so `r` is below it too
        rw [hsel] at hall
        have hdrop : selected.drop (i + 1) ≠ [] := by
          rw [ne_eq, List.drop_eq_nil_iff]
          omega
        obtain ⟨y, ys, hy⟩ := List.exists_cons_of_ne_nil hdrop
        have hy : y ∈ selected.drop (i + 1) := by
          rw [hy]
          exact List.mem_cons_self
        exact absurd ((hall y (List.mem_of_mem_drop hy)).trans_lt (hrest y hy)) (not_lt.2 hle)
    · exact Or.inl hb

end Turn

end Keyset
