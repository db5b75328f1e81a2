import Mathlib.Data.List.Basic
import Mathlib.Logic.Function.Basic
/-!
# LockTable — locks found by key, and the leases they were taken for

A table of locks that are made on first use, taken without waiting and released by whoever asks.  Beside each lock stands
the lease it was last taken for, which the lock itself does not know, and beside the table the leases that nobody has
released.  While no lock is released for a lease it was not taken for, the three say the same (`Kept`).
-/
namespace Locks

variable {κ ι : Type}

structure LockTable (κ ι : Type) where
  /-- Whether the lock of a key is locked, where there is one. -/
  locks      : κ → Option Bool
  holder     : κ → Option ι
  unreleased : List ι

namespace LockTable

def empty : LockTable κ ι := ⟨fun _ => none, fun _ => none, []⟩

variable (t : LockTable κ ι)

/-- A lock is made for a key that has none. -/
def make [DecidableEq κ] (k : κ) : LockTable κ ι :=
    { t with locks := Function.update t.locks k (some ((t.locks k).getD false)) }

def take [DecidableEq κ] (k : κ) (l : ι) : LockTable κ ι where
  locks := Function.update t.locks k (some true)
  holder := Function.update t.holder k (some l)
  unreleased := l :: t.unreleased

def release [DecidableEq κ] [DecidableEq ι] (k : κ) (l : ι) : LockTable κ ι where
  locks := Function.update t.locks k (some false)
  holder := Function.update t.holder k none
  unreleased := t.unreleased.filter (fun x => decide (x ≠ l))

/-- The locked locks, their holders and the leases nobody has released are the same. -/
structure Kept (key : ι → κ) : Prop where
  locked     : ∀ k, t.locks k = some true ↔ (t.holder k).isSome = true
  held       : ∀ k l, t.holder k = some l → key l = k
  unreleased : ∀ l, l ∈ t.unreleased ↔ t.holder (key l) = some l

variable {t} {key : ι → κ} {k : κ} {l : ι}

theorem Kept.empty : (LockTable.empty : LockTable κ ι).Kept key :=
  ⟨fun _ => by simp [LockTable.empty], fun _ _ h => by simp [LockTable.empty] at h, fun _ => by simp [LockTable.empty]⟩

/-- A key has one unreleased lease at most. -/
theorem Kept.single (h : t.Kept key) {x y : ι} (hx : x ∈ t.unreleased) (hy : y ∈ t.unreleased) (hkey : key x = key y) :
    x = y := by
  have hx' := (h.unreleased x).1 hx
  rw [hkey, (h.unreleased y).1 hy] at hx'
  exact (Option.some.inj hx').symm

/-- A lock is locked for an unreleased lease. -/
theorem Kept.for_lease (h : t.Kept key) (hk : t.locks k = some true) : ∃ l ∈ t.unreleased, key l = k := by
  obtain ⟨l, hl⟩ := Option.isSome_iff_exists.1 ((h.locked k).1 hk)
  have hkey := h.held k l hl
  refine ⟨l, (h.unreleased l).2 ?_, hkey⟩
  rw [hkey, hl]

variable [DecidableEq κ]

theorem make_locked (k j : κ) : (t.make k).locks j = some true ↔ t.locks j = some true := by
  unfold make
  by_cases hj : j = k
  · subst hj
    simp only [Function.update_self]
    cases t.locks j <;> simp
  · simp only [Function.update_of_ne hj]

theorem Kept.make (h : t.Kept key) (k : κ) : (t.make k).Kept key :=
  ⟨fun j => (make_locked k j).trans (h.locked j), h.held, h.unreleased⟩

/-- **A lock that is not locked is taken.** -/
theorem Kept.take (h : t.Kept key) (hfree : t.locks (key l) = some false) : (t.take (key l) l).Kept key := by
  have hnone : t.holder (key l) = none := by
    rw [Option.eq_none_iff_forall_ne_some]
    intro x hx
    have hlocked := (h.locked (key l)).2 (by rw [hx]; rfl)
    rw [hfree] at hlocked
    cases hlocked
  constructor
  · intro k
    by_cases hk : k = key l
    · subst hk
      simp [LockTable.take]
    · simpa only [LockTable.take, Function.update_of_ne hk] using h.locked k
  · intro k x hx
    by_cases hk : k = key l
    · subst hk
      simp only [LockTable.take, Function.update_self, Option.some.injEq] at hx
      rw [hx]
    · simp only [LockTable.take, Function.update_of_ne hk] at hx
      exact h.held k x hx
  · intro x
    simp only [LockTable.take, List.mem_cons]
    by_cases hk : key x = key l
    · rw [hk, Function.update_self, h.unreleased x, hk, hnone, Option.some.injEq]
      simp [eq_comm]
    · have hne : x ≠ l := by
        rintro rfl
        exact hk rfl
      rw [Function.update_of_ne hk, h.unreleased x]
      simp [hne]

/-- **A lock is released for the lease it was taken for**, or for none while nobody holds it. -/
theorem Kept.release [DecidableEq ι] (h : t.Kept key) (hown : ∀ x, t.holder (key l) = some x → x = l) :
    (t.release (key l) l).Kept key := by
  constructor
  · intro k
    by_cases hk : k = key l
    · subst hk
      simp [LockTable.release]
    · simpa only [LockTable.release, Function.update_of_ne hk] using h.locked k
  · intro k x hx
    by_cases hk : k = key l
    · subst hk
      simp [LockTable.release] at hx
    · simp only [LockTable.release, Function.update_of_ne hk] at hx
      exact h.held k x hx
  · intro x
    simp only [LockTable.release, List.mem_filter, decide_eq_true_eq]
    by_cases hk : key x = key l
    · rw [hk, Function.update_self, h.unreleased x, hk]
      refine iff_of_false ?_ (by simp)
      rintro ⟨hx, hne⟩
      exact hne (hown x hx)
    · have hne : x ≠ l := by
        rintro rfl
        exact hk rfl
      rw [Function.update_of_ne hk, h.unreleased x]
      simp [hne]

end LockTable

end Locks
