import Mathlib.Data.List.Pairwise
import Mathlib.Order.Basic
/-!
# Fifo — queues that are served by the time of entry

Entries of several classes wait with the time they entered at, and one that is taken is the oldest of its class that waits.
Whatever else enters, leaves or is withdrawn, the entries of a class are taken in the order in which they entered, and none
is taken before one that still waits (`Ordered`).  The three rules are what a step of such a queue has to show.
-/
namespace Fifo

variable {ι κ τ : Type} [Preorder τ]

/-- What was entered, with its class and time, and what was taken, while `waiting` waits at the time `now`. -/
structure Ordered (entered : List (ι × κ × τ)) (taken : List ι) (waiting : ι → Option (κ × τ)) (now : τ) : Prop where
  once : ∀ i x y, (i, x) ∈ entered → (i, y) ∈ entered → x = y
  past : ∀ i c t, (i, c, t) ∈ entered → t ≤ now
  of_waiting : ∀ i x, waiting i = some x → (i, x) ∈ entered
  of_taken : ∀ i ∈ taken, ∃ x, (i, x) ∈ entered
  /-- Entries of one class are taken in the order of their times. -/
  sorted : taken.Pairwise (fun i j => ∀ c t u, (i, c, t) ∈ entered → (j, c, u) ∈ entered → t ≤ u)
  /-- None is taken before one that waits. -/
  before : ∀ i ∈ taken, ∀ j c t u, (i, c, t) ∈ entered → waiting j = some (c, u) → t ≤ u

variable {entered : List (ι × κ × τ)} {taken : List ι} {waiting waiting' : ι → Option (κ × τ)} {now now' : τ} {i : ι}
  {c : κ} {t : τ}

theorem Ordered.nil : Ordered ([] : List (ι × κ × τ)) [] (fun _ => none) now where
  once _ _ _ h := by cases h
  past _ _ _ h := by cases h
  of_waiting _ _ h := by cases h
  of_taken _ h := by cases h
  sorted := List.Pairwise.nil
  before _ h := by cases h

/-- Time passes, and entries are withdrawn. -/
theorem Ordered.rest (h : Ordered entered taken waiting now) (hw : ∀ j x, waiting' j = some x → waiting j = some x)
    (hnow : now ≤ now') : Ordered entered taken waiting' now' where
  once := h.once
  past j d u hj := le_trans (h.past j d u hj) hnow
  of_waiting j x hj := h.of_waiting j x (hw j x hj)
  of_taken := h.of_taken
  sorted := h.sorted
  before j hj l d u v hu hl := h.before j hj l d u v hu (hw l _ hl)

/-- What was taken is not what enters. -/
theorem Ordered.entered_of_taken (h : Ordered entered taken waiting now) (hnew : ∀ x, (i, x) ∉ entered) {j : ι} {x : κ × τ}
    (hj : j ∈ taken) (hx : (j, x) ∈ entered ++ [(i, c, t)]) : (j, x) ∈ entered := by
  obtain ⟨y, hy⟩ := h.of_taken j hj
  rcases List.mem_append.1 hx with hx | hx
  · exact hx
  · obtain ⟨rfl, -⟩ := Prod.mk.inj (List.mem_singleton.1 hx)
    exact absurd hy (hnew y)

/-- A new entry enters. -/
theorem Ordered.enter (h : Ordered entered taken waiting now) (hnew : ∀ x, (i, x) ∉ entered)
    (hw : ∀ j x, waiting' j = some x → waiting j = some x ∨ (j = i ∧ x = (c, now))) :
    Ordered (entered ++ [(i, c, now)]) taken waiting' now where
  once j x y hx hy := by
    rcases List.mem_append.1 hx with hold | hlast
    · rcases List.mem_append.1 hy with hold' | hlast
      · exact h.once j x y hold hold'
      · obtain ⟨rfl, -⟩ := Prod.mk.inj (List.mem_singleton.1 hlast)
        exact absurd hold (hnew x)
    · obtain ⟨rfl, rfl⟩ := Prod.mk.inj (List.mem_singleton.1 hlast)
      rcases List.mem_append.1 hy with hold | hlast'
      · exact absurd hold (hnew y)
      · exact (Prod.mk.inj (List.mem_singleton.1 hlast')).2.symm
  past j d u hj := by
    rcases List.mem_append.1 hj with hj | hj
    · exact h.past j d u hj
    · cases List.mem_singleton.1 hj
      exact le_refl now
  of_waiting j x hj := by
    rcases hw j x hj with hold | ⟨rfl, rfl⟩
    · exact List.mem_append_left _ (h.of_waiting j x hold)
    · exact List.mem_append_right _ (List.mem_singleton.2 rfl)
  of_taken j hj := by
    obtain ⟨x, hx⟩ := h.of_taken j hj
    exact ⟨x, List.mem_append_left _ hx⟩
  sorted := by
    refine h.sorted.imp_of_mem (fun {j l} hj hl hjl d u v hu hv => ?_)
    exact hjl d u v (h.entered_of_taken hnew hj hu) (h.entered_of_taken hnew hl hv)
  before j hj l d u v hu hl := by
    have hold := h.entered_of_taken hnew hj hu
    rcases hw l _ hl with hwait | ⟨-, hx⟩
    · exact h.before j hj l d u v hold hwait
    · obtain ⟨-, rfl⟩ := Prod.mk.inj hx
      exact h.past j d u hold

/-- The oldest that waits of a class is taken. -/
theorem Ordered.take (h : Ordered entered taken waiting now) (hi : waiting i = some (c, t))
    (hmin : ∀ j u, waiting j = some (c, u) → t ≤ u) (hw : ∀ j x, waiting' j = some x → waiting j = some x) :
    Ordered entered (taken ++ [i]) waiting' now where
  once := h.once
  past := h.past
  of_waiting j x hj := h.of_waiting j x (hw j x hj)
  of_taken j hj := by
    rcases List.mem_append.1 hj with hj | hj
    · exact h.of_taken j hj
    · rw [List.mem_singleton.1 hj]
      exact ⟨_, h.of_waiting i _ hi⟩
  sorted := by
    refine List.pairwise_append.2 ⟨h.sorted, List.pairwise_singleton _ _, fun j hj l hl d u v hu hv => ?_⟩
    rw [List.mem_singleton.1 hl] at hv
    have hsame := h.once i _ _ hv (h.of_waiting i _ hi)
    exact h.before j hj i d u v hu (by rw [hi, hsame])
  before j hj l d u v hu hl := by
    rcases List.mem_append.1 hj with hj | hj
    · exact h.before j hj l d u v hu (hw l _ hl)
    · rw [List.mem_singleton.1 hj] at hu
      obtain ⟨rfl, rfl⟩ := Prod.mk.inj (h.once i _ _ hu (h.of_waiting i _ hi))
      exact hmin l v (hw l _ hl)

end Fifo
