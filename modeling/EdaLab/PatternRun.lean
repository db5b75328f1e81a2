import EdaLab.Pattern
import Mathlib.Data.List.TakeWhile
/-!
# PatternRun — the ways a pattern can match

`Run a c s d s'` is one way `a` takes the engine from `c` to `d`, with what it adds to the captures, whatever its priority.
The engine finds a match exactly where there is one (`matchAt_isSome_iff`), and the match it finds is one of them
(`go_run`).  The rules below read a run of each form of pattern off the text.
-/
namespace Pattern

variable {β : Type}

inductive Run : Pattern → Cursor → Captures → Cursor → Captures → Prop
  | one {p : Char → Bool} {b : Option Char} {x : Char} {xs : List Char} {s : Captures} (h : p x = true) :
    Run (one p) ⟨b, x :: xs⟩ s ⟨some x, xs⟩ s
  | empty {c : Cursor} {s : Captures} : Run empty c s c s
  | bol {c : Cursor} {s : Captures} (h : c.before.all (fun x => decide (x = '\n')) = true) : Run bol c s c s
  | eol {c : Cursor} {s : Captures} (h : c.rest.head?.all (fun x => decide (x = '\n')) = true) : Run eol c s c s
  | seq {a b : Pattern} {c d e : Cursor} {s s' s'' : Captures} (left : Run a c s d s') (right : Run b d s' e s'') :
    Run (seq a b) c s e s''
  | left {a b : Pattern} {c d : Cursor} {s s' : Captures} (h : Run a c s d s') : Run (alt a b) c s d s'
  | right {a b : Pattern} {c d : Cursor} {s s' : Captures} (h : Run b c s d s') : Run (alt a b) c s d s'
  | none {a : Pattern} {c : Cursor} {s : Captures} : Run (many a) c s c s
  | more {a : Pattern} {c d e : Cursor} {s s' s'' : Captures} (head : Run a c s d s')
    (consumes : d.rest.length < c.rest.length) (tail : Run (many a) d s' e s'') : Run (many a) c s e s''
  | noneLazy {a : Pattern} {c : Cursor} {s : Captures} : Run (manyLazy a) c s c s
  | moreLazy {a : Pattern} {c d e : Cursor} {s s' s'' : Captures} (head : Run a c s d s')
    (consumes : d.rest.length < c.rest.length) (tail : Run (manyLazy a) d s' e s'') : Run (manyLazy a) c s e s''
  | group {n : Nat} {a : Pattern} {c d : Cursor} {s s' : Captures} (h : Run a c s d s') :
    Run (group n a) c s d ((n, c.upTo d) :: s')

/-! ## The engine finds runs, and finds one where there is one -/

/-- What the engine hands its continuation is the end of a run. -/
def Finds (a : Pattern) : Prop :=
  ∀ (c : Cursor) (s : Captures) (k : Cursor → Captures → Option β) (r : β), a.go c s k = some r →
    ∃ d s', Run a c s d s' ∧ k d s' = some r

theorem loop_run {a : Pattern} (ha : Finds (β := β) a) (k : Cursor → Captures → Option β) (r : β) :
    ∀ (f : Nat) (c : Cursor) (s : Captures), loop a.go k f c s = some r →
      ∃ d s', Run (many a) c s d s' ∧ k d s' = some r
  | 0, c, s, h => ⟨c, s, .none, h⟩
  | f + 1, c, s, h => by
    rcases orElse_some h with h | h
    · obtain ⟨d, s', hd, hk⟩ := ha c s _ r h
      split at hk
      · rename_i hlt
        obtain ⟨e, s'', he, hk⟩ := loop_run ha k r f d s' hk
        exact ⟨e, s'', .more hd hlt he, hk⟩
      · cases hk
    · exact ⟨c, s, .none, h⟩

theorem loopLazy_run {a : Pattern} (ha : Finds (β := β) a) (k : Cursor → Captures → Option β) (r : β) :
    ∀ (f : Nat) (c : Cursor) (s : Captures), loopLazy a.go k f c s = some r →
      ∃ d s', Run (manyLazy a) c s d s' ∧ k d s' = some r
  | 0, c, s, h => ⟨c, s, .noneLazy, h⟩
  | f + 1, c, s, h => by
    rcases orElse_some h with h | h
    · exact ⟨c, s, .noneLazy, h⟩
    · obtain ⟨d, s', hd, hk⟩ := ha c s _ r h
      split at hk
      · rename_i hlt
        obtain ⟨e, s'', he, hk⟩ := loopLazy_run ha k r f d s' hk
        exact ⟨e, s'', .moreLazy hd hlt he, hk⟩
      · cases hk

/-- **The engine's matches are runs.** -/
theorem go_run : ∀ a : Pattern, Finds (β := β) a
  | one p, c, s, k, r, h => by
    obtain ⟨b, rest⟩ := c
    cases rest with
    | nil => cases h
    | cons x xs =>
      simp only [go] at h
      split at h
      · rename_i hp
        exact ⟨_, s, .one hp, h⟩
      · cases h
  | empty, c, s, k, r, h => ⟨c, s, .empty, h⟩
  | bol, c, s, k, r, h => by
    simp only [go] at h
    split at h
    · rename_i hb
      exact ⟨c, s, .bol hb, h⟩
    · cases h
  | eol, c, s, k, r, h => by
    simp only [go] at h
    split at h
    · rename_i he
      exact ⟨c, s, .eol he, h⟩
    · cases h
  | seq a b, c, s, k, r, h => by
    obtain ⟨d, s', hd, h⟩ := go_run a c s _ r h
    obtain ⟨e, s'', he, h⟩ := go_run b d s' k r h
    exact ⟨e, s'', .seq hd he, h⟩
  | alt a b, c, s, k, r, h => by
    rcases orElse_some h with h | h
    · obtain ⟨d, s', hd, h⟩ := go_run a c s k r h
      exact ⟨d, s', .left hd, h⟩
    · obtain ⟨d, s', hd, h⟩ := go_run b c s k r h
      exact ⟨d, s', .right hd, h⟩
  | many a, c, s, k, r, h => loop_run (go_run a) k r c.rest.length c s h
  | manyLazy a, c, s, k, r, h => loopLazy_run (go_run a) k r c.rest.length c s h
  | group n a, c, s, k, r, h => by
    obtain ⟨d, s', hd, h⟩ := go_run a c s _ r h
    exact ⟨d, _, .group hd, h⟩

theorem go_none (a : Pattern) (c : Cursor) (s : Captures) :
    a.go c s (fun _ _ => (Option.none : Option β)) = Option.none := by
  cases h : a.go c s (fun _ _ => (Option.none : Option β)) with
  | none => rfl
  | some r =>
    obtain ⟨d, s', -, hk⟩ := go_run a c s _ r h
    cases hk

/-- A repetition that cannot go on. -/
theorem loop_succ (a : Pattern) (k : Cursor → Captures → Option β) (f : Nat) (c : Cursor) (s : Captures) :
    loop a.go k (f + 1) c s = (a.go c s (fun c' s' => if c'.rest.length < c.rest.length then loop a.go k f c' s'
      else Option.none)).orElse (fun _ => k c s) := rfl

theorem loopLazy_succ (a : Pattern) (k : Cursor → Captures → Option β) (f : Nat) (c : Cursor) (s : Captures) :
    loopLazy a.go k (f + 1) c s = (k c s).orElse (fun _ => a.go c s (fun c' s' =>
      if c'.rest.length < c.rest.length then loopLazy a.go k f c' s' else Option.none)) := rfl

theorem go_stuck (a : Pattern) {c : Cursor} (s : Captures) (h : c.rest.length = 0) (k : Cursor → Captures → Option β) :
    a.go c s (fun c' s' => if c'.rest.length < c.rest.length then k c' s' else Option.none) = Option.none := by
  have hstuck : (fun (c' : Cursor) (s' : Captures) =>
      if c'.rest.length < c.rest.length then k c' s' else Option.none) = fun _ _ => Option.none := by
    funext c' s'
    rw [if_neg (by omega)]
  rw [hstuck, go_none]

/-- As much fuel as there is text is enough. -/
theorem loop_fuel (a : Pattern) (k : Cursor → Captures → Option β) : ∀ (n f g : Nat) (c : Cursor) (s : Captures),
    c.rest.length ≤ n → c.rest.length ≤ f → c.rest.length ≤ g → loop a.go k f c s = loop a.go k g c s := by
  intro n
  induction n with
  | zero =>
    intro f g c s hn _ _
    have hzero : ∀ f, loop a.go k f c s = k c s := by
      intro f
      cases f with
      | zero => rfl
      | succ f =>
        rw [loop_succ, go_stuck a s (Nat.le_zero.1 hn)]
        rfl
    rw [hzero, hzero]
  | succ n ih =>
    intro f g c s hn hf hg
    by_cases hlen : c.rest.length = 0
    · exact ih f g c s (by omega) hf hg
    · obtain ⟨f, rfl⟩ := Nat.exists_eq_succ_of_ne_zero (show f ≠ 0 by omega)
      obtain ⟨g, rfl⟩ := Nat.exists_eq_succ_of_ne_zero (show g ≠ 0 by omega)
      have hsame : (fun (c' : Cursor) (s' : Captures) =>
          if c'.rest.length < c.rest.length then loop a.go k f c' s' else Option.none) =
          fun c' s' => if c'.rest.length < c.rest.length then loop a.go k g c' s' else Option.none := by
        funext c' s'
        split
        · exact ih f g c' s' (by omega) (by omega) (by omega)
        · rfl
      rw [loop_succ, loop_succ, hsame]

theorem loopLazy_fuel (a : Pattern) (k : Cursor → Captures → Option β) : ∀ (n f g : Nat) (c : Cursor) (s : Captures),
    c.rest.length ≤ n → c.rest.length ≤ f → c.rest.length ≤ g → loopLazy a.go k f c s = loopLazy a.go k g c s := by
  intro n
  induction n with
  | zero =>
    intro f g c s hn _ _
    have hzero : ∀ f, loopLazy a.go k f c s = k c s := by
      intro f
      cases f with
      | zero => rfl
      | succ f =>
        rw [loopLazy_succ, go_stuck a s (Nat.le_zero.1 hn)]
        cases k c s with
        | none => rfl
        | some r => rfl
    rw [hzero, hzero]
  | succ n ih =>
    intro f g c s hn hf hg
    by_cases hlen : c.rest.length = 0
    · exact ih f g c s (by omega) hf hg
    · obtain ⟨f, rfl⟩ := Nat.exists_eq_succ_of_ne_zero (show f ≠ 0 by omega)
      obtain ⟨g, rfl⟩ := Nat.exists_eq_succ_of_ne_zero (show g ≠ 0 by omega)
      have hsame : (fun (c' : Cursor) (s' : Captures) =>
          if c'.rest.length < c.rest.length then loopLazy a.go k f c' s' else Option.none) =
          fun c' s' => if c'.rest.length < c.rest.length then loopLazy a.go k g c' s' else Option.none := by
        funext c' s'
        split
        · exact ih f g c' s' (by omega) (by omega) (by omega)
        · rfl
      rw [loopLazy_succ, loopLazy_succ, hsame]

theorem orElse_isSome_left {o : Option β} {f : Unit → Option β} (h : o.isSome = true) : (o.orElse f).isSome = true := by
  cases o with
  | none => cases h
  | some x => rfl

theorem orElse_isSome_right {o : Option β} {f : Unit → Option β} (h : (f ()).isSome = true) :
    (o.orElse f).isSome = true := by
  cases o with
  | none => exact h
  | some x => rfl

/-- **The engine matches where a run ends as its continuation wants.** -/
theorem Run.go_isSome {a : Pattern} {c d : Cursor} {s s' : Captures} (h : Run a c s d s') :
    ∀ k : Cursor → Captures → Option β, (k d s').isSome = true → (a.go c s k).isSome = true := by
  induction h with
  | one hp =>
    intro k hk
    simp only [go, if_pos hp]
    exact hk
  | empty => exact fun k hk => hk
  | bol hb =>
    intro k hk
    simp only [go, if_pos hb]
    exact hk
  | eol he =>
    intro k hk
    simp only [go, if_pos he]
    exact hk
  | seq _ _ ihl ihr => exact fun k hk => ihl _ (ihr k hk)
  | left _ ih => exact fun k hk => orElse_isSome_left (ih k hk)
  | right _ ih => exact fun k hk => orElse_isSome_right (ih k hk)
  | @none a c s =>
    intro k hk
    simp only [go]
    cases c.rest.length with
    | zero => exact hk
    | succ f => exact orElse_isSome_right hk
  | @more a c d e s s' s'' _ hlt _ ihh iht =>
    intro k hk
    obtain ⟨f, hf⟩ := Nat.exists_eq_succ_of_ne_zero (show c.rest.length ≠ 0 by omega)
    have htail := iht k hk
    simp only [go] at htail ⊢
    rw [hf, loop_succ]
    refine orElse_isSome_left (ihh _ ?_)
    rw [if_pos hlt, loop_fuel a k f f d.rest.length d s' (by omega) (by omega) (le_refl _)]
    exact htail
  | @noneLazy a c s =>
    intro k hk
    simp only [go]
    cases c.rest.length with
    | zero => exact hk
    | succ f => exact orElse_isSome_left hk
  | @moreLazy a c d e s s' s'' _ hlt _ ihh iht =>
    intro k hk
    obtain ⟨f, hf⟩ := Nat.exists_eq_succ_of_ne_zero (show c.rest.length ≠ 0 by omega)
    have htail := iht k hk
    simp only [go] at htail ⊢
    rw [hf, loopLazy_succ]
    refine orElse_isSome_right (ihh _ ?_)
    rw [if_pos hlt, loopLazy_fuel a k f f d.rest.length d s' (by omega) (by omega) (le_refl _)]
    exact htail
  | group _ ih => exact fun k hk => ih _ hk

/-- **A pattern matches at a place exactly where it has a run from there.** -/
theorem matchAt_isSome_iff {a : Pattern} {c : Cursor} :
    (a.matchAt c).isSome = true ↔ ∃ d s, Run a c [] d s := by
  constructor
  · intro h
    obtain ⟨⟨d, s⟩, hm⟩ := Option.isSome_iff_exists.1 h
    obtain ⟨d', s', hrun, -⟩ := go_run a c [] _ _ hm
    exact ⟨d', s', hrun⟩
  · rintro ⟨d, s, hrun⟩
    exact hrun.go_isSome _ rfl

theorem matchAt_run {a : Pattern} {c d : Cursor} {s : Captures} (h : a.matchAt c = some (d, s)) : Run a c [] d s := by
  obtain ⟨d', s', hrun, heq⟩ := go_run a c [] _ _ h
  cases heq
  exact hrun

theorem fullmatch_run {a : Pattern} {w : List Char} {s : Captures} (h : a.fullmatch w = some s) :
    ∃ d, Run a (Cursor.start w) [] d s ∧ d.rest = [] := by
  obtain ⟨d, s', hrun, hk⟩ := go_run a _ [] _ _ h
  split at hk
  · rename_i hend
    cases hk
    exact ⟨d, hrun, hend⟩
  · cases hk

theorem fullmatch_isSome {a : Pattern} {w : List Char} {d : Cursor} {s : Captures} (h : Run a (Cursor.start w) [] d s)
    (hend : d.rest = []) : (a.fullmatch w).isSome = true := by
  refine h.go_isSome _ ?_
  rw [if_pos hend]
  rfl

/-! ## Reading a run off the text -/

/-- From `c` to `d` the text is `w`. -/
structure Eats (c : Cursor) (w : List Char) (d : Cursor) : Prop where
  rest   : c.rest = w ++ d.rest
  before : d.before = w.getLast?.or c.before

theorem Eats.nil (c : Cursor) : Eats c [] c := ⟨rfl, rfl⟩

theorem eats_nil_iff {c d : Cursor} : Eats c [] d ↔ d = c := by
  constructor
  · rintro ⟨hrest, hbefore⟩
    obtain ⟨b, r⟩ := c
    obtain ⟨b', r'⟩ := d
    simp only [List.nil_append, List.getLast?_nil, Option.none_or] at hrest hbefore
    rw [hrest, hbefore]
  · rintro rfl
    exact .nil d

theorem Eats.append {c d e : Cursor} {v w : List Char} (h : Eats c v d) (h' : Eats d w e) : Eats c (v ++ w) e := by
  refine ⟨by rw [h.rest, h'.rest, List.append_assoc], ?_⟩
  rw [h'.before, h.before, List.getLast?_append, Option.or_assoc]

theorem eats_append_iff {c e : Cursor} {v w : List Char} : Eats c (v ++ w) e ↔ ∃ d, Eats c v d ∧ Eats d w e := by
  constructor
  · rintro ⟨hrest, hbefore⟩
    refine ⟨⟨v.getLast?.or c.before, w ++ e.rest⟩, ⟨?_, rfl⟩, ⟨rfl, ?_⟩⟩
    · rw [hrest, List.append_assoc]
    · rw [hbefore, List.getLast?_append, Option.or_assoc]
  · rintro ⟨d, h, h'⟩
    exact h.append h'

/-- The text that was taken fixes the place. -/
theorem Eats.unique {c d d' : Cursor} {w : List Char} (h : Eats c w d) (h' : Eats c w d') : d' = d := by
  obtain ⟨b, rest⟩ := d
  obtain ⟨b', rest'⟩ := d'
  have hrest : rest' = rest := List.append_cancel_left (h'.rest.symm.trans h.rest)
  have hbefore : b' = b := h'.before.trans h.before.symm
  rw [hrest, hbefore]

theorem upTo_append (b b' : Option Char) (w rest : List Char) : Cursor.upTo ⟨b, w ++ rest⟩ ⟨b', rest⟩ = w := by
  unfold Cursor.upTo
  rw [List.length_append, Nat.add_sub_cancel, List.take_left]

theorem Eats.upTo {c d : Cursor} {w : List Char} (h : Eats c w d) : c.upTo d = w := by
  unfold Cursor.upTo
  rw [h.rest, List.length_append, Nat.add_sub_cancel, List.take_left]

section Rules

variable {a b : Pattern} {c d : Cursor} {s s' : Captures} {p : Char → Bool}

theorem run_one : Run (one p) c s d s' ↔ s' = s ∧ ∃ x, p x = true ∧ Eats c [x] d := by
  constructor
  · intro h
    cases h with
    | one hp => exact ⟨rfl, _, hp, rfl, rfl⟩
  · rintro ⟨rfl, x, hp, hrest, hbefore⟩
    obtain ⟨b, rest⟩ := c
    obtain ⟨b', rest'⟩ := d
    simp only [List.cons_append, List.nil_append, List.getLast?_singleton, Option.some_or] at hrest hbefore
    rw [hrest, hbefore]
    exact .one hp

theorem run_empty : Run empty c s d s' ↔ s' = s ∧ d = c := by
  constructor
  · intro h
    cases h
    exact ⟨rfl, rfl⟩
  · rintro ⟨rfl, rfl⟩
    exact .empty

theorem run_bol : Run bol c s d s' ↔ s' = s ∧ d = c ∧ c.before.all (fun x => decide (x = '\n')) = true := by
  constructor
  · intro h
    cases h with
    | bol hb => exact ⟨rfl, rfl, hb⟩
  · rintro ⟨rfl, rfl, hb⟩
    exact .bol hb

theorem run_eol : Run eol c s d s' ↔ s' = s ∧ d = c ∧ c.rest.head?.all (fun x => decide (x = '\n')) = true := by
  constructor
  · intro h
    cases h with
    | eol he => exact ⟨rfl, rfl, he⟩
  · rintro ⟨rfl, rfl, he⟩
    exact .eol he

theorem run_seq : Run (seq a b) c s d s' ↔ ∃ e t, Run a c s e t ∧ Run b e t d s' := by
  constructor
  · intro h
    cases h with
    | seq left right => exact ⟨_, _, left, right⟩
  · rintro ⟨e, t, left, right⟩
    exact .seq left right

theorem run_alt : Run (alt a b) c s d s' ↔ Run a c s d s' ∨ Run b c s d s' := by
  constructor
  · intro h
    cases h with
    | left h => exact Or.inl h
    | right h => exact Or.inr h
  · rintro (h | h)
    · exact .left h
    · exact .right h

theorem run_group {n : Nat} : Run (group n a) c s d s' ↔ ∃ t, Run a c s d t ∧ s' = (n, c.upTo d) :: t := by
  constructor
  · intro h
    cases h with
    | group h => exact ⟨_, h, rfl⟩
  · rintro ⟨t, h, rfl⟩
    exact .group h

theorem run_text {w : String} : Run (text w) c s d s' ↔ s' = s ∧ Eats c w.toList d := by
  unfold text
  generalize w.toList = l
  induction l generalizing c with
  | nil => exact run_empty.trans (and_congr_right (fun _ => eats_nil_iff.symm))
  | cons x l ih =>
    rw [List.foldr_cons, run_seq]
    constructor
    · rintro ⟨e, t, hx, hl⟩
      obtain ⟨rfl, y, hy, heats⟩ := run_one.1 hx
      obtain ⟨rfl, hrest⟩ := ih.1 hl
      rw [of_decide_eq_true hy] at heats
      exact ⟨rfl, heats.append hrest⟩
    · rintro ⟨rfl, heats⟩
      obtain ⟨e, hx, hl⟩ := eats_append_iff.1 (show Eats c ([x] ++ l) d from heats)
      exact ⟨e, s', run_one.2 ⟨rfl, x, decide_eq_true rfl, hx⟩, ih.2 ⟨rfl, hl⟩⟩

theorem run_many_one : Run (many (one p)) c s d s' ↔ s' = s ∧ ∃ w, (∀ x ∈ w, p x = true) ∧ Eats c w d := by
  constructor
  · intro h
    generalize ha : many (one p) = a at h
    induction h with
    | none => exact ⟨rfl, [], by simp, .nil _⟩
    | more head _ _ _ ih =>
      cases ha
      obtain ⟨rfl, x, hx, heats⟩ := run_one.1 head
      obtain ⟨rfl, w, hw, hrest⟩ := ih rfl
      refine ⟨rfl, [x] ++ w, fun y hy => ?_, heats.append hrest⟩
      rcases List.mem_append.1 hy with hy | hy
      · rw [List.mem_singleton.1 hy]
        exact hx
      · exact hw y hy
    | _ => cases ha
  · rintro ⟨rfl, w, hw, heats⟩
    induction w generalizing c with
    | nil =>
      rw [eats_nil_iff.1 heats]
      exact .none
    | cons x w ih =>
      obtain ⟨e, hx, hl⟩ := eats_append_iff.1 (show Eats c ([x] ++ w) d from heats)
      refine .more (run_one.2 ⟨rfl, x, hw x List.mem_cons_self, hx⟩) ?_
        (ih (fun y hy => hw y (List.mem_cons_of_mem x hy)) hl)
      rw [hx.rest]
      exact Nat.lt_succ_self _

/-- One character of a class, and then more. -/
theorem some_of_one_many (h : ∃ e, (∃ x, p x = true ∧ Eats c [x] e) ∧ ∃ w, (∀ x ∈ w, p x = true) ∧ Eats e w d) :
    ∃ w, w ≠ [] ∧ (∀ x ∈ w, p x = true) ∧ Eats c w d := by
  obtain ⟨e, ⟨x, hx, heats⟩, w, hw, hrest⟩ := h
  refine ⟨[x] ++ w, by simp, fun y hy => ?_, heats.append hrest⟩
  rcases List.mem_append.1 hy with hy | hy
  · rw [List.mem_singleton.1 hy]
    exact hx
  · exact hw y hy

theorem one_many_of_some (h : ∃ w, w ≠ [] ∧ (∀ x ∈ w, p x = true) ∧ Eats c w d) :
    ∃ e, (∃ x, p x = true ∧ Eats c [x] e) ∧ ∃ w, (∀ x ∈ w, p x = true) ∧ Eats e w d := by
  obtain ⟨w, hne, hw, heats⟩ := h
  obtain ⟨x, w, rfl⟩ := List.exists_cons_of_ne_nil hne
  obtain ⟨e, hx, hl⟩ := eats_append_iff.1 (show Eats c ([x] ++ w) d from heats)
  exact ⟨e, ⟨x, hw x List.mem_cons_self, hx⟩, w, fun y hy => hw y (List.mem_cons_of_mem x hy), hl⟩

theorem run_many1_one : Run (many1 (one p)) c s d s' ↔ s' = s ∧ ∃ w, w ≠ [] ∧ (∀ x ∈ w, p x = true) ∧ Eats c w d := by
  unfold many1
  rw [run_seq]
  constructor
  · rintro ⟨e, t, hx, hw⟩
    obtain ⟨rfl, hfirst⟩ := run_one.1 hx
    obtain ⟨rfl, hmore⟩ := run_many_one.1 hw
    exact ⟨rfl, some_of_one_many ⟨e, hfirst, hmore⟩⟩
  · rintro ⟨rfl, h⟩
    obtain ⟨e, hx, hw⟩ := one_many_of_some h
    exact ⟨e, s', run_one.2 ⟨rfl, hx⟩, run_many_one.2 ⟨rfl, hw⟩⟩

end Rules

/-! ## The engine's choice -/

section Choice

variable {p : Char → Bool} {b : Option Char} {s : Captures} {k : Cursor → Captures → Option β} {r : β}

theorem getLast?_or (x : Char) (v : List Char) (b : Option Char) : v.getLast?.or (some x) = (x :: v).getLast?.or b := by
  rw [List.getLast?_cons]
  cases v.getLast? <;> rfl

theorem go_text (w : String) (b : Option Char) (rest : List Char) (s : Captures) (k : Cursor → Captures → Option β) :
    (text w).go ⟨b, w.toList ++ rest⟩ s k = k ⟨w.toList.getLast?.or b, rest⟩ s := by
  unfold text
  generalize w.toList = l
  induction l generalizing b with
  | nil => rfl
  | cons x l ih =>
    simp only [List.foldr_cons, List.cons_append, go, decide_true, if_true]
    rw [ih, getLast?_or]

theorem go_seq (a a' : Pattern) (c : Cursor) (s : Captures) (k : Cursor → Captures → Option β) :
    (seq a a').go c s k = a.go c s (fun c' s' => a'.go c' s' k) := rfl

theorem go_group (n : Nat) (a : Pattern) (c : Cursor) (s : Captures) (k : Cursor → Captures → Option β) :
    (group n a).go c s k = a.go c s (fun c' s' => k c' ((n, c.upTo c') :: s')) := rfl

theorem go_one (x : Char) (rest : List Char) :
    (one p).go ⟨b, x :: rest⟩ s k = if p x then k ⟨some x, rest⟩ s else none := rfl

theorem go_one_stuck {rest : List Char} (hrest : ∀ x ∈ rest.head?, p x = false) (k : Cursor → Captures → Option β) :
    (one p).go ⟨b, rest⟩ s k = none := by
  cases rest with
  | nil => rfl
  | cons x rest => simp [go, hrest x rfl]

theorem loop_longest {rest : List Char} (hrest : ∀ x ∈ rest.head?, p x = false) : ∀ (w : List Char) (b : Option Char)
    (f : Nat), w.length ≤ f → (∀ x ∈ w, p x = true) → k ⟨w.getLast?.or b, rest⟩ s = some r →
    loop (one p).go k f ⟨b, w ++ rest⟩ s = some r
  | [], b, 0, _, _, hk => hk
  | [], b, f + 1, _, _, hk => by
    rw [loop_succ, List.nil_append, go_one_stuck hrest]
    exact hk
  | x :: w, b, 0, hf, _, _ => absurd hf (Nat.not_succ_le_zero _)
  | x :: w, b, f + 1, hf, hw, hk => by
    rw [← getLast?_or] at hk
    have htail := loop_longest hrest w (some x) f (Nat.le_of_succ_le_succ hf)
      (fun y hy => hw y (List.mem_cons_of_mem x hy)) hk
    have hlt : (⟨some x, w ++ rest⟩ : Cursor).rest.length < (⟨b, x :: (w ++ rest)⟩ : Cursor).rest.length :=
      Nat.lt_succ_self _
    rw [loop_succ, List.cons_append, go_one, if_pos (hw x List.mem_cons_self), if_pos hlt, htail]
    rfl

/-- A greedy repetition takes all it can, where its continuation then succeeds. -/
theorem go_many1_longest {w rest : List Char} (hne : w ≠ []) (hw : ∀ x ∈ w, p x = true)
    (hrest : ∀ x ∈ rest.head?, p x = false) (hk : k ⟨w.getLast?.or b, rest⟩ s = some r) :
    (many1 (one p)).go ⟨b, w ++ rest⟩ s k = some r := by
  obtain ⟨x, w, rfl⟩ := List.exists_cons_of_ne_nil hne
  rw [← getLast?_or] at hk
  simp only [many1, go, List.cons_append, hw x List.mem_cons_self, if_true]
  exact loop_longest hrest w (some x) _ (by simp) (fun y hy => hw y (List.mem_cons_of_mem x hy)) hk

theorem loopLazy_first {rest : List Char} : ∀ (w : List Char) (b : Option Char) (f : Nat), w.length ≤ f →
    (∀ x ∈ w, p x = true) → (∀ v u, w = v ++ u → u ≠ [] → k ⟨v.getLast?.or b, u ++ rest⟩ s = none) →
    k ⟨w.getLast?.or b, rest⟩ s = some r → loopLazy (one p).go k f ⟨b, w ++ rest⟩ s = some r
  | [], b, 0, _, _, _, hk => hk
  | [], b, f + 1, _, _, _, hk => by
    have hk : k ⟨b, rest⟩ s = some r := hk
    rw [loopLazy_succ, List.nil_append, hk]
    rfl
  | x :: w, b, 0, hf, _, _, _ => absurd hf (Nat.not_succ_le_zero _)
  | x :: w, b, f + 1, hf, hw, hno, hk => by
    have hhead : k ⟨b, x :: w ++ rest⟩ s = none := hno [] (x :: w) rfl (List.cons_ne_nil x w)
    have htail := loopLazy_first w (some x) f (Nat.le_of_succ_le_succ hf)
      (fun y hy => hw y (List.mem_cons_of_mem x hy)) (fun v u huv hu => by
        rw [getLast?_or x v b]
        exact hno (x :: v) u (by rw [huv]; rfl) hu) (by rw [getLast?_or x w b]; exact hk)
    have hlt : (⟨some x, w ++ rest⟩ : Cursor).rest.length < (⟨b, x :: (w ++ rest)⟩ : Cursor).rest.length :=
      Nat.lt_succ_self _
    rw [loopLazy_succ, hhead, List.cons_append, go_one, if_pos (hw x List.mem_cons_self), if_pos hlt, htail]
    rfl

/-- A lazy repetition stops where its continuation succeeds first. -/
theorem go_many1Lazy_first {w rest : List Char} (hne : w ≠ []) (hw : ∀ x ∈ w, p x = true)
    (hno : ∀ v u, w = v ++ u → v ≠ [] → u ≠ [] → k ⟨v.getLast?.or b, u ++ rest⟩ s = none)
    (hk : k ⟨w.getLast?.or b, rest⟩ s = some r) : (many1Lazy (one p)).go ⟨b, w ++ rest⟩ s k = some r := by
  obtain ⟨x, w, rfl⟩ := List.exists_cons_of_ne_nil hne
  simp only [many1Lazy, go, List.cons_append, hw x List.mem_cons_self, if_true]
  refine loopLazy_first w (some x) _ (by simp) (fun y hy => hw y (List.mem_cons_of_mem x hy)) ?_ ?_
  · intro v u huv hu
    rw [getLast?_or x v b]
    exact hno (x :: v) u (by rw [huv]; rfl) (List.cons_ne_nil x v) hu
  · rw [getLast?_or x w b]
    exact hk

end Choice

/-! ## Patterns without anchors and groups -/

/-- Whether the text alone decides a match, which then captures nothing. -/
def plain : Pattern → Bool
  | seq a b    => a.plain && b.plain
  | alt a b    => a.plain && b.plain
  | many a     => a.plain
  | manyLazy a => a.plain
  | one _      => true
  | empty      => true
  | _          => false

theorem Run.plain {a : Pattern} {c d : Cursor} {s s' : Captures} (h : Run a c s d s') (ha : a.plain = true) :
    s' = s ∧ ∃ w, Matches a w ∧ Eats c w d := by
  induction h with
  | @one p b x xs s hp => exact ⟨rfl, [x], .one hp, rfl, rfl⟩
  | @empty c s => exact ⟨rfl, [], .empty, .nil c⟩
  | bol | eol | group => cases ha
  | seq _ _ ihl ihr =>
    obtain ⟨hal, har⟩ := Bool.and_eq_true_iff.1 ha
    obtain ⟨rfl, v, hv, heats⟩ := ihl hal
    obtain ⟨rfl, w, hw, hrest⟩ := ihr har
    exact ⟨rfl, v ++ w, .seq hv hw, heats.append hrest⟩
  | left _ ih =>
    obtain ⟨rfl, w, hw, heats⟩ := ih (Bool.and_eq_true_iff.1 ha).1
    exact ⟨rfl, w, .left hw, heats⟩
  | right _ ih =>
    obtain ⟨rfl, w, hw, heats⟩ := ih (Bool.and_eq_true_iff.1 ha).2
    exact ⟨rfl, w, .right hw, heats⟩
  | @none _ c _ => exact ⟨rfl, [], .none, .nil c⟩
  | @noneLazy _ c _ => exact ⟨rfl, [], .noneLazy, .nil c⟩
  | more _ _ _ ihh iht =>
    obtain ⟨rfl, v, hv, heats⟩ := ihh ha
    obtain ⟨rfl, w, hw, hrest⟩ := iht ha
    exact ⟨rfl, v ++ w, .more hv hw, heats.append hrest⟩
  | moreLazy _ _ _ ihh iht =>
    obtain ⟨rfl, v, hv, heats⟩ := ihh ha
    obtain ⟨rfl, w, hw, hrest⟩ := iht ha
    exact ⟨rfl, v ++ w, .moreLazy hv hw, heats.append hrest⟩

theorem Eats.consumes {c d : Cursor} {w : List Char} (h : Eats c w d) (hw : w ≠ []) : d.rest.length < c.rest.length := by
  rw [h.rest, List.length_append]
  exact Nat.lt_add_of_pos_left (List.length_pos_of_ne_nil hw)

theorem Matches.run {a : Pattern} {w : List Char} (h : Matches a w) :
    ∀ {c d : Cursor} (s : Captures), a.plain = true → Eats c w d → Run a c s d s := by
  induction h with
  | one hp => exact fun s _ heats => run_one.2 ⟨rfl, _, hp, heats⟩
  | empty => exact fun s _ heats => run_empty.2 ⟨rfl, eats_nil_iff.1 heats⟩
  | bol | eol | group => exact fun s ha _ => by cases ha
  | seq _ _ ihl ihr =>
    intro c d s ha heats
    obtain ⟨e, hv, hw⟩ := eats_append_iff.1 heats
    exact .seq (ihl s (Bool.and_eq_true_iff.1 ha).1 hv) (ihr s (Bool.and_eq_true_iff.1 ha).2 hw)
  | left _ ih => exact fun s ha heats => .left (ih s (Bool.and_eq_true_iff.1 ha).1 heats)
  | right _ ih => exact fun s ha heats => .right (ih s (Bool.and_eq_true_iff.1 ha).2 heats)
  | none =>
    intro c d s _ heats
    rw [eats_nil_iff.1 heats]
    exact .none
  | noneLazy =>
    intro c d s _ heats
    rw [eats_nil_iff.1 heats]
    exact .noneLazy
  | @more a v w _ _ ihh iht =>
    intro c d s ha heats
    obtain ⟨e, hv, hw⟩ := eats_append_iff.1 heats
    by_cases hnil : v = []
    · subst hnil
      rw [eats_nil_iff.1 hv] at hw
      exact iht s ha hw
    · exact .more (ihh s ha hv) (hv.consumes hnil) (iht s ha hw)
  | @moreLazy a v w _ _ ihh iht =>
    intro c d s ha heats
    obtain ⟨e, hv, hw⟩ := eats_append_iff.1 heats
    by_cases hnil : v = []
    · subst hnil
      rw [eats_nil_iff.1 hv] at hw
      exact iht s ha hw
    · exact .moreLazy (ihh s ha hv) (hv.consumes hnil) (iht s ha hw)

theorem matches_many1 {p : Char → Bool} {w : List Char} (hne : w ≠ []) (hw : ∀ x ∈ w, p x = true) :
    Matches (many1 (one p)) w := by
  have hmany : ∀ w : List Char, (∀ x ∈ w, p x = true) → Matches (many (one p)) w := by
    intro w
    induction w with
    | nil => exact fun _ => .none
    | cons x w ih =>
      exact fun hw => .more (v := [x]) (.one (hw x List.mem_cons_self)) (ih (fun y hy => hw y (List.mem_cons_of_mem x hy)))
  obtain ⟨x, w, rfl⟩ := List.exists_cons_of_ne_nil hne
  exact .seq (v := [x]) (.one (hw x List.mem_cons_self)) (hmany w (fun y hy => hw y (List.mem_cons_of_mem x hy)))

/-- **Without anchors and groups, the runs are the words of the language.** -/
theorem run_plain {a : Pattern} (ha : a.plain = true) {c d : Cursor} {s s' : Captures} :
    Run a c s d s' ↔ s' = s ∧ ∃ w, Matches a w ∧ Eats c w d := by
  constructor
  · exact fun h => h.plain ha
  · rintro ⟨rfl, w, hw, heats⟩
    exact hw.run _ ha heats

theorem fullmatch_plain {a : Pattern} (ha : a.plain = true) {w : List Char} :
    (a.fullmatch w).isSome = true ↔ Matches a w := by
  constructor
  · intro h
    obtain ⟨s, hs⟩ := Option.isSome_iff_exists.1 h
    obtain ⟨d, hrun, hend⟩ := fullmatch_run hs
    obtain ⟨-, v, hv, heats⟩ := hrun.plain ha
    have hw := heats.rest
    rw [hend, List.append_nil] at hw
    rw [show w = v from hw]
    exact hv
  · intro h
    exact fullmatch_isSome (h.run [] ha (⟨(List.append_nil w).symm, rfl⟩ : Eats (Cursor.start w) w
      ⟨w.getLast?.or none, []⟩)) rfl

end Pattern
