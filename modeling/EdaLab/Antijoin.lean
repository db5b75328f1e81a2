import Mathlib.Data.List.Sort
/-!
# Antijoin — `SELECT … WHERE NOT EXISTS … ORDER BY`

The rows of one side whose identity no row of the other side has, projected and ordered by a key of the projected columns.
Where the key tells the projections apart the answer is the canonical list of its multiset, so it depends on neither the
order of the rows nor the way they are scanned (`query_congr`).
-/
namespace Antijoin

variable {ρ ι ν κ : Type} [DecidableEq ι] [LinearOrder κ] {identity : ρ → ι} {project : ρ → ν} {key : ν → κ}

/-- `EXISTS (SELECT 1 FROM right WHERE …)`. -/
def inRight (identity : ρ → ι) (right : List ρ) (r : ρ) : Bool := right.any (fun b => decide (identity b = identity r))

def query (identity : ρ → ι) (project : ρ → ν) (key : ν → κ) (left right : List ρ) : List ν :=
  ((left.filter (fun r => !inRight identity right r)).map project).insertionSort (fun a b => key a ≤ key b)

theorem inRight_iff {right : List ρ} {r : ρ} : inRight identity right r = true ↔ ∃ b ∈ right, identity b = identity r := by
  simp [inRight]

theorem inRight_congr {right right' : List ρ} (h : right.Perm right') (r : ρ) :
    inRight identity right r = inRight identity right' r := by
  rw [Bool.eq_iff_iff, inRight_iff, inRight_iff]
  simp only [h.mem_iff]

/-- The answer, with multiplicity. -/
theorem query_perm (left right : List ρ) :
    (query identity project key left right).Perm ((left.filter (fun r => !inRight identity right r)).map project) :=
  List.perm_insertionSort _ _

/-- **Each row of the left is answered or matched, and not both**, where the projection shows the identity. -/
theorem mem_query_iff (hshows : ∀ r r', project r = project r' → identity r = identity r') {left right : List ρ} {r : ρ}
    (hr : r ∈ left) : project r ∈ query identity project key left right ↔ ¬ ∃ b ∈ right, identity b = identity r := by
  rw [(query_perm left right).mem_iff, List.mem_map]
  constructor
  · rintro ⟨r', hr', heq⟩ ⟨b, hb, hid⟩
    obtain ⟨-, hnot⟩ := List.mem_filter.1 hr'
    have hmatch : inRight identity right r' = true := inRight_iff.2 ⟨b, hb, hid.trans (hshows r r' heq.symm)⟩
    rw [hmatch] at hnot
    cases hnot
  · intro hnone
    refine ⟨r, List.mem_filter.2 ⟨hr, ?_⟩, rfl⟩
    rw [Bool.not_eq_true', ← Bool.not_eq_true, inRight_iff]
    exact hnone

/-- A side minus itself. -/
theorem query_self (rows : List ρ) : query identity project key rows rows = [] := by
  have hnone : rows.filter (fun r => !inRight identity rows r) = [] := by
    rw [List.filter_eq_nil_iff]
    intro r hr
    have hmatch : inRight identity rows r = true := inRight_iff.2 ⟨r, hr, rfl⟩
    rw [hmatch]
    exact Bool.false_ne_true
  rw [query, hnone]
  rfl

/-- **The answer is canonical**: permuted rows answer with the same list. -/
theorem query_congr (hinj : Function.Injective key) {left left' right right' : List ρ} (hl : left.Perm left')
    (hr : right.Perm right') : query identity project key left right = query identity project key left' right' := by
  have htotal : Std.Total (fun a b : ν => key a ≤ key b) := ⟨fun a b => le_total (key a) (key b)⟩
  have htrans : IsTrans ν (fun a b : ν => key a ≤ key b) := ⟨fun a b c hab hbc => hab.trans hbc⟩
  have hperm : (query identity project key left right).Perm (query identity project key left' right') := by
    have hrows : (left.filter (fun r => !inRight identity right r)).Perm
        (left'.filter (fun r => !inRight identity right' r)) := by
      have hsame : (fun r => !inRight identity right r) = fun r => !inRight identity right' r := by
        funext r
        rw [inRight_congr hr r]
      rw [hsame]
      exact hl.filter _
    exact (query_perm left right).trans ((hrows.map project).trans (query_perm left' right').symm)
  refine hperm.eq_of_pairwise (fun a b _ _ hab hba => hinj (le_antisymm hab hba)) ?_ ?_
  · exact List.pairwise_insertionSort _ _
  · exact List.pairwise_insertionSort _ _

/-- **The answer depends on no column that neither the identity nor the projection reads.** -/
theorem query_map {σ : Type} (f : ρ → σ) (identity' : σ → ι) (project' : σ → ν) (key : ν → κ) (left right : List ρ) :
    query (fun r => identity' (f r)) (fun r => project' (f r)) key left right =
      query identity' project' key (left.map f) (right.map f) := by
  have hin : ∀ r, inRight (fun r => identity' (f r)) right r = inRight identity' (right.map f) (f r) := by
    intro r
    simp only [inRight, List.any_map, Function.comp_def]
  simp only [query, hin, List.filter_map, List.map_map, Function.comp_def]

end Antijoin
