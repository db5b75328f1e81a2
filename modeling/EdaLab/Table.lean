import Mathlib.Data.List.Nodup
import Mathlib.Data.List.Perm.Basic
/-!
# Table — keyed tables, the part of SQL the stores use

A table is its rows in insertion order, and its primary key is a field: `keysNodup` says that no two rows share a key,
so a table with two rows of one key cannot be built.  `UPDATE … WHERE` is `updateWhere`, its row count is `countWhere`,
and `INSERT` is `insertNew`, which refuses a key that is taken.  An update that pins the key to one value touches at
most one row (`countWhere_eq_one_iff`), which is what reading `rowcount == 1` as "the row was there and matched" needs.
-/
namespace Relational

structure Table {ρ κ : Type} (key : ρ → κ) where
  rows : List ρ
  keysNodup : (rows.map key).Nodup

namespace Table

variable {ρ κ : Type} {key : ρ → κ}

def empty : Table key := ⟨[], List.nodup_nil⟩

/-- `UPDATE … SET f WHERE p`, for an `f` that leaves the primary key alone. -/
def updateWhere (t : Table key) (p : ρ → Bool) (f : ρ → ρ) (hf : ∀ r, key (f r) = key r) : Table key where
  rows := t.rows.map (fun r => if p r then f r else r)
  keysNodup := by
    have h : key ∘ (fun r => if p r then f r else r) = key := by
      funext r
      simp only [Function.comp_apply]
      split
      · exact hf r
      · rfl
    rw [List.map_map, h]
    exact t.keysNodup

/-- The row count of an update guarded by `p`. -/
def countWhere (t : Table key) (p : ρ → Bool) : Nat := t.rows.countP p

theorem updateWhere_eq_self {t : Table key} {p : ρ → Bool} {f : ρ → ρ} (hf : ∀ r, key (f r) = key r)
    (h : ∀ r ∈ t.rows, p r = true → f r = r) : t.updateWhere p f hf = t := by
  obtain ⟨rows, hnd⟩ := t
  have e : rows.map (fun r => if p r then f r else r) = rows := by
    conv => rhs; rw [← List.map_id rows]
    apply List.map_congr_left
    intro r hr
    by_cases hp : p r = true
    · simp [hp, h r hr hp]
    · simp [hp]
  simp only [updateWhere, e]

theorem countP_nodup_le_one (p : ρ → Bool) (k : κ) (hp : ∀ r, p r = true → key r = k) : ∀ (l : List ρ),
    (l.map key).Nodup → l.countP p ≤ 1
  | [], _ => by simp
  | a :: l, hnd => by
    rw [List.map_cons, List.nodup_cons] at hnd
    by_cases ha : p a = true
    · have h0 : l.countP p = 0 := by
        rw [List.countP_eq_zero]
        intro x hx hpx
        exact hnd.1 (List.mem_map.2 ⟨x, hx, (hp x hpx).trans (hp a ha).symm⟩)
      simp [List.countP_cons_of_pos ha, h0]
    · rw [List.countP_cons_of_neg (by simpa using ha)]
      exact countP_nodup_le_one p k hp l hnd.2

/-- **What an update adds to a count**: nothing, where a row counts after it only if it did before. -/
theorem countWhere_updateWhere_le (t : Table key) (p : ρ → Bool) (f : ρ → ρ) (hf : ∀ r, key (f r) = key r) (q : ρ → Bool)
    (h : ∀ r ∈ t.rows, p r = true → q (f r) = true → q r = true) : (t.updateWhere p f hf).countWhere q ≤ t.countWhere q := by
  unfold countWhere updateWhere
  rw [List.countP_map]
  apply List.countP_mono_left
  intro r hr hq
  simp only [Function.comp_apply] at hq
  by_cases hp : p r = true
  · rw [if_pos hp] at hq
    exact h r hr hp hq
  · rwa [if_neg hp] at hq

/-- **An update that makes one row count adds one.** -/
theorem countWhere_updateWhere_succ (t : Table key) (p : ρ → Bool) (f : ρ → ρ) (hf : ∀ r, key (f r) = key r) (q : ρ → Bool)
    {r : ρ} (hr : r ∈ t.rows) (hp : ∀ x ∈ t.rows, p x = true ↔ x = r) (hq : q r = false) (hfq : q (f r) = true) :
    (t.updateWhere p f hf).countWhere q = t.countWhere q + 1 := by
  obtain ⟨l₁, l₂, hl⟩ := List.append_of_mem hr
  have hnd : t.rows.Nodup := List.Nodup.of_map key t.keysNodup
  rw [hl] at hnd
  obtain ⟨-, hnd₂, hdisj⟩ := List.nodup_append.1 hnd
  -- the other rows count as they did
  have hrest : ∀ l : List ρ, (∀ x ∈ l, x ∈ t.rows ∧ x ≠ r) → (l.map (fun x => if p x then f x else x)).countP q =
    l.countP q := by
    intro l hsub
    rw [List.countP_map]
    apply List.countP_congr
    intro x hx
    have hpx : ¬ p x = true := fun h => (hsub x hx).2 ((hp x (hsub x hx).1).1 h)
    simp only [Function.comp_apply, if_neg hpx]
  have h₁ := hrest l₁ (fun x hx => ⟨by rw [hl]; exact List.mem_append_left _ hx, hdisj x hx r List.mem_cons_self⟩)
  have h₂ := hrest l₂ (fun x hx => ⟨by rw [hl]; exact List.mem_append_right _ (List.mem_cons_of_mem _ hx),
    fun h => (List.nodup_cons.1 hnd₂).1 (h ▸ hx)⟩)
  have hpr : p r = true := (hp r hr).2 rfl
  unfold countWhere updateWhere
  simp only [hl, List.map_append, List.map_cons, List.countP_append, List.countP_cons, h₁, h₂, hpr, if_true, hfq, hq]
  simp only [Bool.false_eq_true, if_false]
  omega

section Keyed

variable [DecidableEq κ]

/-- The row of one primary key. -/
def get (t : Table key) (k : κ) : Option ρ := t.rows.find? (fun r => decide (key r = k))

theorem key_of_get {t : Table key} {k : κ} {r : ρ} (h : t.get k = some r) : key r = k := by
  have := List.find?_some h
  simpa using this

theorem mem_of_get {t : Table key} {k : κ} {r : ρ} (h : t.get k = some r) : r ∈ t.rows :=
  List.mem_of_find?_eq_some h

theorem get_eq_none_iff {t : Table key} {k : κ} : t.get k = none ↔ k ∉ t.rows.map key := by
  simp [get, List.find?_eq_none]

/-- `INSERT`: none when the primary key is taken. -/
def insertNew (t : Table key) (r : ρ) : Option (Table key) :=
  if h : key r ∈ t.rows.map key then none
  else some ⟨t.rows ++ [r], by
    rw [List.map_append, List.map_singleton]
    exact List.nodup_append_comm.1 (List.nodup_cons.2 ⟨h, t.keysNodup⟩)⟩

/-- `INSERT … ON CONFLICT(key) DO UPDATE SET f`. -/
def upsert (t : Table key) (r : ρ) (f : ρ → ρ) (hf : ∀ x, key (f x) = key x) : Table key :=
  (t.insertNew r).getD (t.updateWhere (fun x => decide (key x = key r)) f hf)

theorem find?_nodup : ∀ (l : List ρ), (l.map key).Nodup → ∀ r ∈ l, ∀ k, key r = k →
    l.find? (fun x => decide (key x = k)) = some r
  | [], _, r, hr, _, _ => by cases hr
  | a :: l, hnd, r, hr, k, hk => by
    rw [List.map_cons, List.nodup_cons] at hnd
    rw [List.find?_cons]
    by_cases ha : key a = k
    · rcases List.mem_cons.1 hr with rfl | hr
      · simp [ha]
      · exact absurd (List.mem_map.2 ⟨r, hr, hk.trans ha.symm⟩) hnd.1
    · rcases List.mem_cons.1 hr with rfl | hr
      · exact absurd hk ha
      · simp [ha, find?_nodup l hnd.2 r hr k hk]

/-- **A row of the table is the row of its key.** -/
theorem get_of_mem (t : Table key) {r : ρ} (h : r ∈ t.rows) : t.get (key r) = some r :=
  find?_nodup t.rows t.keysNodup r h _ rfl

theorem get_eq_some_iff {t : Table key} {k : κ} {r : ρ} : t.get k = some r ↔ r ∈ t.rows ∧ key r = k := by
  constructor
  · intro h
    exact ⟨mem_of_get h, key_of_get h⟩
  · rintro ⟨h, rfl⟩
    exact t.get_of_mem h

@[simp] theorem get_empty (k : κ) : (empty : Table key).get k = none := rfl

theorem find?_map_if (p : ρ → Bool) (f : ρ → ρ) (hf : ∀ r, key (f r) = key r) (k : κ) : ∀ (l : List ρ),
    (l.map (fun r => if p r then f r else r)).find? (fun r => decide (key r = k)) =
      (l.find? (fun r => decide (key r = k))).map (fun r => if p r then f r else r)
  | [] => rfl
  | a :: l => by
    have ha : key (if p a then f a else a) = key a := by
      split
      · exact hf a
      · rfl
    simp only [List.map_cons, List.find?_cons, ha]
    by_cases hk : key a = k
    · simp [hk]
    · simp [hk, find?_map_if p f hf k l]

/-- **An update, read at one key.** -/
@[simp] theorem get_updateWhere (t : Table key) (p : ρ → Bool) (f : ρ → ρ) (hf : ∀ r, key (f r) = key r) (k : κ) :
    (t.updateWhere p f hf).get k = (t.get k).map (fun r => if p r then f r else r) :=
  find?_map_if p f hf k t.rows

theorem insertNew_eq_none_iff {t : Table key} {r : ρ} : t.insertNew r = none ↔ (t.get (key r)).isSome = true := by
  unfold insertNew
  split
  · rename_i h
    simp only [true_iff, Option.isSome_iff_ne_none, ne_eq, get_eq_none_iff, not_not]
    exact h
  · rename_i h
    simp [get_eq_none_iff.2 h]

theorem insertNew_rows {t t' : Table key} {r : ρ} (h : t.insertNew r = some t') : t'.rows = t.rows ++ [r] := by
  unfold insertNew at h
  split at h
  · cases h
  · cases h; rfl

theorem get_key_of_insertNew {t t' : Table key} {r : ρ} (h : t.insertNew r = some t') : t.get (key r) = none := by
  rw [Option.eq_none_iff_forall_ne_some]
  intro x hx
  have := (insertNew_eq_none_iff (t := t) (r := r)).2 (by rw [hx]; rfl)
  rw [this] at h; cases h

/-- **What an insert adds to a count.** -/
theorem countWhere_insertNew {t t' : Table key} {r : ρ} (h : t.insertNew r = some t') (q : ρ → Bool) :
    t'.countWhere q = t.countWhere q + if q r = true then 1 else 0 := by
  unfold countWhere
  rw [insertNew_rows h, List.countP_append, List.countP_singleton]

/-- **An insert, read at one key.** -/
theorem get_insertNew {t t' : Table key} {r : ρ} (h : t.insertNew r = some t') (k : κ) :
    t'.get k = if key r = k then some r else t.get k := by
  have hn := get_key_of_insertNew h
  unfold get at *
  rw [insertNew_rows h, List.find?_append]
  by_cases hk : key r = k
  · subst hk
    rw [hn]; simp
  · cases t.rows.find? (fun x => decide (key x = k)) <;> simp [hk]

/-- **An upsert, read at one key.** -/
theorem get_upsert (t : Table key) (r : ρ) (f : ρ → ρ) (hf : ∀ x, key (f x) = key x) (k : κ) :
    (t.upsert r f hf).get k = if key r = k then some ((t.get k).elim r f) else t.get k := by
  unfold upsert
  cases hi : t.insertNew r with
  | some t' =>
    have hn := get_key_of_insertNew hi
    rw [Option.getD_some, get_insertNew hi]
    by_cases hk : key r = k
    · subst hk; simp [hn]
    · simp [hk]
  | none =>
    obtain ⟨x, hx⟩ := Option.isSome_iff_exists.1 (insertNew_eq_none_iff.1 hi)
    rw [Option.getD_none, get_updateWhere]
    by_cases hk : key r = k
    · subst hk
      simp [hx, key_of_get hx]
    · cases hg : t.get k with
      | none => simp [hk]
      | some y => simp [hk, key_of_get hg, Ne.symm hk]

/-- **The row count of a keyed update**: it is one exactly when the key's row is there and meets the guard. -/
theorem countWhere_eq_one_iff (t : Table key) (p : ρ → Bool) (k : κ) (hp : ∀ r, p r = true → key r = k) :
    t.countWhere p = 1 ↔ ∃ r, t.get k = some r ∧ p r = true := by
  have hle := countP_nodup_le_one p k hp t.rows t.keysNodup
  unfold countWhere
  constructor
  · intro h
    obtain ⟨r, hr, hpr⟩ := List.countP_pos_iff.1 (by omega : 0 < t.rows.countP p)
    exact ⟨r, get_eq_some_iff.2 ⟨hr, hp r hpr⟩, hpr⟩
  · rintro ⟨r, hr, hpr⟩
    have := List.countP_pos_iff.2 ⟨r, mem_of_get hr, hpr⟩
    omega

/-- **A keyed update whose row count is not one changes nothing.** -/
theorem updateWhere_of_count_ne_one {t : Table key} {p : ρ → Bool} {f : ρ → ρ} {hf : ∀ r, key (f r) = key r} (k : κ)
    (hp : ∀ r, p r = true → key r = k) (h : t.countWhere p ≠ 1) : t.updateWhere p f hf = t := by
  apply updateWhere_eq_self hf
  intro r hr hpr
  exact absurd ((countWhere_eq_one_iff t p k hp).2 ⟨r, get_eq_some_iff.2 ⟨hr, hp r hpr⟩, hpr⟩) h

end Keyed

end Table

end Relational
