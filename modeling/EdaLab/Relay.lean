import Mathlib.Data.List.Basic
import Mathlib.Logic.Function.Basic
/-!
# Relay — a log that is passed on late, and not always

Writers append to a log and pass on what they appended, each one entry at a time: an entry is in flight from its writer
until it is heard or lost.  Entries have keys.  Where a key has no other entry in flight when one of it is appended, what
is heard of the key is in the order of the log, and nothing is heard twice (`Inv`).
-/
namespace Relay

structure State (ι ε : Type) where
  log    : List ε
  flying : ι → Option ε
  heard  : List ε

namespace State

variable {ι ε : Type}

def empty : State ι ε := ⟨[], fun _ => none, []⟩

variable [DecidableEq ι]

/-- A writer appends an entry, which is in flight from then on. -/
def append (s : State ι ε) (i : ι) (e : ε) : State ι ε :=
  { s with log := s.log ++ [e], flying := Function.update s.flying i (some e) }

/-- What a writer has in flight arrives, or is lost. -/
def settle (s : State ι ε) (i : ι) (arrives : Bool) : State ι ε :=
  { s with
    flying := Function.update s.flying i none
    heard := s.heard ++ (if arrives then (s.flying i).toList else []) }

end State

variable {ι ε κ : Type} [DecidableEq κ] (key : ε → κ)

/-- The entries of a key. -/
def entries (k : κ) (l : List ε) : List ε := l.filter (fun e => decide (key e = k))

section Entries

variable {key} {k : κ} {e : ε} {l l' : List ε}

theorem entries_append : entries key k (l ++ l') = entries key k l ++ entries key k l' := List.filter_append ..

@[simp] theorem entries_self : entries key (key e) [e] = [e] := by simp [entries]

theorem entries_other (h : key e ≠ k) : entries key k [e] = [] := by simp [entries, h]

theorem entries_snoc_self : entries key (key e) (l ++ [e]) = entries key (key e) l ++ [e] := by
  rw [entries_append, entries_self]

theorem entries_snoc_other (h : key e ≠ k) : entries key k (l ++ [e]) = entries key k l := by
  rw [entries_append, entries_other h, List.append_nil]

theorem mem_entries : e ∈ entries key k l ↔ e ∈ l ∧ key e = k := by simp [entries]

end Entries

/-- **What is heard of a key is in the order of the log**, also once what is in flight has arrived. -/
structure Inv (s : State ι ε) : Prop where
  heard : ∀ k, (entries key k s.heard).Sublist (entries key k s.log)
  flying : ∀ i e, s.flying i = some e → (entries key (key e) s.heard ++ [e]).Sublist (entries key (key e) s.log)
  one : ∀ i i' e e', s.flying i = some e → s.flying i' = some e' → key e = key e' → i = i'

variable {key} {s : State ι ε} {i : ι} {e : ε}

theorem inv_empty : Inv key (State.empty : State ι ε) where
  heard _ := List.Sublist.refl []
  flying _ _ h := by cases h
  one _ _ _ _ h := by cases h

/-- What is in flight has been appended. -/
theorem Inv.mem_log (h : Inv key s) (hi : s.flying i = some e) : e ∈ s.log :=
  (mem_entries.1 ((h.flying i e hi).subset (List.mem_append_right _ List.mem_cons_self))).1

variable [DecidableEq ι]

theorem Inv.append (h : Inv key s) (hone : ∀ i' e', s.flying i' = some e' → key e' ≠ key e) :
    Inv key (s.append i e) where
  heard k := by
    show (entries key k s.heard).Sublist (entries key k (s.log ++ [e]))
    rw [entries_append]
    exact (h.heard k).trans (List.sublist_append_left ..)
  flying i' e' hi' := by
    show (entries key (key e') s.heard ++ [e']).Sublist (entries key (key e') (s.log ++ [e]))
    by_cases hii : i' = i
    · subst hii
      simp only [State.append, Function.update_self, Option.some.injEq] at hi'
      subst hi'
      rw [entries_snoc_self]
      exact (h.heard _).append (List.Sublist.refl _)
    · simp only [State.append, Function.update_of_ne hii] at hi'
      rw [entries_snoc_other (fun heq => hone i' e' hi' heq.symm)]
      exact h.flying i' e' hi'
  one i₁ i₂ e₁ e₂ h₁ h₂ hkey := by
    simp only [State.append] at h₁ h₂
    by_cases hi₁ : i₁ = i
    · subst hi₁
      by_cases hi₂ : i₂ = i₁
      · exact hi₂.symm
      · rw [Function.update_self] at h₁
        cases h₁
        rw [Function.update_of_ne hi₂] at h₂
        exact absurd hkey.symm (hone i₂ e₂ h₂)
    · rw [Function.update_of_ne hi₁] at h₁
      by_cases hi₂ : i₂ = i
      · subst hi₂
        rw [Function.update_self] at h₂
        cases h₂
        exact absurd hkey (hone i₁ e₁ h₁)
      · rw [Function.update_of_ne hi₂] at h₂
        exact h.one i₁ i₂ e₁ e₂ h₁ h₂ hkey

theorem Inv.settle (h : Inv key s) (i : ι) (arrives : Bool) : Inv key (s.settle i arrives) := by
  have hflying : ∀ i' e', (s.settle i arrives).flying i' = some e' → i' ≠ i ∧ s.flying i' = some e' := by
    intro i' e' hi'
    simp only [State.settle] at hi'
    by_cases hii : i' = i
    · subst hii
      rw [Function.update_self] at hi'
      cases hi'
    · rw [Function.update_of_ne hii] at hi'
      exact ⟨hii, hi'⟩
  -- what is heard now of a key that something else is in flight of was heard before
  have hheard : ∀ k, entries key k (s.settle i arrives).heard = entries key k s.heard ∨
      ∃ e, s.flying i = some e ∧ key e = k ∧
        entries key k (s.settle i arrives).heard = entries key k s.heard ++ [e] := by
    intro k
    simp only [State.settle]
    cases arrives with
    | false => exact Or.inl (by simp)
    | true =>
      cases hi : s.flying i with
      | none => exact Or.inl (by simp)
      | some e =>
        by_cases hk : key e = k
        · subst hk
          exact Or.inr ⟨e, rfl, rfl, entries_snoc_self⟩
        · exact Or.inl (entries_snoc_other hk)
  refine ⟨fun k => ?_, fun i' e' hi' => ?_, fun i₁ i₂ e₁ e₂ h₁ h₂ => ?_⟩
  · show (entries key k (s.settle i arrives).heard).Sublist (entries key k s.log)
    rcases hheard k with heq | ⟨e, hi, rfl, heq⟩
    · rw [heq]
      exact h.heard k
    · rw [heq]
      exact h.flying i e hi
  · obtain ⟨hne, hold⟩ := hflying i' e' hi'
    show (entries key (key e') (s.settle i arrives).heard ++ [e']).Sublist (entries key (key e') s.log)
    rcases hheard (key e') with heq | ⟨e, hi, hkey, -⟩
    · rw [heq]
      exact h.flying i' e' hold
    · exact absurd (h.one i' i e' e hold hi hkey.symm) hne
  · exact h.one i₁ i₂ e₁ e₂ (hflying i₁ e₁ h₁).2 (hflying i₂ e₂ h₂).2

end Relay
