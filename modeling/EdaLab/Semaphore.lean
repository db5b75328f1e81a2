import Mathlib.Data.Finset.Card
/-!
# Semaphore — a bounded counting semaphore and its holders

A semaphore is a number of free permits under a bound.  It counts a set of parties where the permits that are free and the
parties that hold one make up the bound; taking and giving back a permit keeps the count, and a party that holds one can
always give it back.
-/
namespace EdaLab

structure Semaphore where
  bound : Nat
  value : Nat
  deriving DecidableEq

namespace Semaphore

def new (bound : Nat) : Semaphore := ⟨bound, bound⟩

/-- Where no permit is free the caller waits. -/
def acquire (x : Semaphore) : Option Semaphore := if 0 < x.value then some { x with value := x.value - 1 } else none

/-- A release beyond the bound is an error. -/
def release (x : Semaphore) : Option Semaphore := if x.value < x.bound then some { x with value := x.value + 1 } else none

variable {α : Type} {x y : Semaphore} {P Q : α → Prop}

@[simp] theorem new_bound (bound : Nat) : (new bound).bound = bound := rfl

theorem acquire_bound (h : x.acquire = some y) : y.bound = x.bound := by
  unfold acquire at h
  split at h
  · cases h; rfl
  · cases h

theorem release_bound (h : x.release = some y) : y.bound = x.bound := by
  unfold release at h
  split at h
  · cases h; rfl
  · cases h

/-- The parties that hold a permit, with those that are free, make up the bound. -/
def Counts (x : Semaphore) (P : α → Prop) : Prop :=
  ∃ holders : Finset α, (∀ q, q ∈ holders ↔ P q) ∧ holders.card + x.value = x.bound

theorem counts_new (bound : Nat) (h : ∀ q, ¬P q) : (new bound).Counts P :=
  ⟨∅, (fun q => iff_of_false (Finset.notMem_empty q) (h q)), by simp [new]⟩

theorem Counts.congr (h : x.Counts P) (heq : ∀ q, P q ↔ Q q) : x.Counts Q := by
  obtain ⟨holders, hmem, hcard⟩ := h
  exact ⟨holders, (fun q => (hmem q).trans (heq q)), hcard⟩

/-- **A permit is taken** by a party that had none. -/
theorem Counts.acquire (h : x.Counts P) {q : α} (hacquire : x.acquire = some y) (hq : ¬P q)
    (hholds : ∀ p, Q p ↔ p = q ∨ P p) : y.Counts Q := by
  classical
  obtain ⟨holders, hmem, hcard⟩ := h
  unfold Semaphore.acquire at hacquire
  split at hacquire
  · rename_i hfree
    cases hacquire
    refine ⟨insert q holders, fun p => ?_, ?_⟩
    · rw [Finset.mem_insert, hmem, hholds]
    · rw [Finset.card_insert_of_notMem (fun hin => hq ((hmem q).1 hin))]
      simp only
      omega
  · cases hacquire

/-- **A permit is given back** by a party that holds one, and this is no error. -/
theorem Counts.release (h : x.Counts P) {q : α} (hq : P q) (hholds : ∀ p, Q p ↔ p ≠ q ∧ P p) :
    ∃ y, x.release = some y ∧ y.Counts Q := by
  classical
  obtain ⟨holders, hmem, hcard⟩ := h
  have hin := (hmem q).2 hq
  have hpos := Finset.card_pos.2 ⟨q, hin⟩
  refine ⟨{ x with value := x.value + 1 }, if_pos (by omega), holders.erase q, fun p => ?_, ?_⟩
  · rw [Finset.mem_erase, hmem, hholds]
  · rw [Finset.card_erase_of_mem hin]
    simp only
    omega

/-- No more parties than the bound hold a permit. -/
theorem Counts.card_le (h : x.Counts P) (held : Finset α) (hheld : ∀ q ∈ held, P q) : held.card ≤ x.bound := by
  obtain ⟨holders, hmem, hcard⟩ := h
  have hle := Finset.card_le_card (fun q hq => (hmem q).2 (hheld q hq))
  omega

/-- A party waits exactly while as many as the bound hold a permit. -/
theorem Counts.waits_iff (h : x.Counts P) :
    x.acquire = none ↔ ∃ held : Finset α, (∀ q ∈ held, P q) ∧ held.card = x.bound := by
  have hle := h.card_le
  obtain ⟨holders, hmem, hcard⟩ := h
  have hnone : x.acquire = none ↔ x.value = 0 := by
    unfold Semaphore.acquire
    split
    · simp only [reduceCtorEq, false_iff]; omega
    · simp only [true_iff]; omega
  rw [hnone]
  constructor
  · intro hvalue
    exact ⟨holders, (fun q hq => (hmem q).1 hq), by omega⟩
  · rintro ⟨held, hheld, hbound⟩
    have hsub := Finset.card_le_card (fun q hq => (hmem q).2 (hheld q hq))
    omega

/-- Where nobody holds a permit, all are free. -/
theorem Counts.all_free (h : x.Counts P) (hnone : ∀ q, ¬P q) : x.value = x.bound := by
  obtain ⟨holders, hmem, hcard⟩ := h
  have hempty : holders = ∅ := Finset.eq_empty_of_forall_notMem (fun q hq => hnone q ((hmem q).1 hq))
  rw [hempty, Finset.card_empty] at hcard
  omega

end Semaphore

end EdaLab
