import Mathlib.Data.List.Basic
/-!
# Pattern — backtracking regular expressions

The subset of Python's `re` with classes, sequence, alternatives, greedy and lazy repetition, numbered groups and the
multiline anchors.  `go` tries the ways to match in the order the engine does and passes each on to its continuation, so
the first that succeeds is the match.  `Matches` is the language; `go_sound` says that what a match consumes, and what each
of its groups captured, is in the language of its pattern.
-/

inductive Pattern
  | one (p : Char → Bool)
  | empty
  /-- `^` and `$` of `re.MULTILINE`. -/
  | bol
  | eol
  | seq (a b : Pattern)
  | alt (a b : Pattern)
  | many (a : Pattern)
  | manyLazy (a : Pattern)
  | group (n : Nat) (a : Pattern)

namespace Pattern

/-- A place in a text: the character before it and what follows. -/
structure Cursor where
  before : Option Char
  rest   : List Char

def Cursor.start (text : List Char) : Cursor := ⟨none, text⟩

/-- The text from one place to a later one. -/
def Cursor.upTo (c d : Cursor) : List Char := c.rest.take (c.rest.length - d.rest.length)

/-- The last capture of each group comes first. -/
abbrev Captures := List (Nat × List Char)

variable {β : Type}

/-- Greedy repetition of `m`: as often as it consumes something, then fewer times. -/
def loop (m : Cursor → Captures → (Cursor → Captures → Option β) → Option β) (k : Cursor → Captures → Option β) :
    Nat → Cursor → Captures → Option β
  | 0, c, s     => k c s
  | f + 1, c, s =>
    (m c s (fun c' s' => if c'.rest.length < c.rest.length then loop m k f c' s' else none)).orElse (fun _ => k c s)

/-- Lazy repetition: as seldom as the continuation allows. -/
def loopLazy (m : Cursor → Captures → (Cursor → Captures → Option β) → Option β) (k : Cursor → Captures → Option β) :
    Nat → Cursor → Captures → Option β
  | 0, c, s     => k c s
  | f + 1, c, s =>
    (k c s).orElse
      (fun _ => m c s (fun c' s' => if c'.rest.length < c.rest.length then loopLazy m k f c' s' else none))

def go : Pattern → Cursor → Captures → (Cursor → Captures → Option β) → Option β
  | one p, c, s, k =>
    match c.rest with
    | []      => none
    | x :: xs => if p x then k ⟨some x, xs⟩ s else none
  | empty, c, s, k      => k c s
  | bol, c, s, k        => if c.before.all (fun x => decide (x = '\n')) then k c s else none
  | eol, c, s, k        => if c.rest.head?.all (fun x => decide (x = '\n')) then k c s else none
  | seq a b, c, s, k    => a.go c s (fun c' s' => b.go c' s' k)
  | alt a b, c, s, k    => (a.go c s k).orElse (fun _ => b.go c s k)
  | many a, c, s, k     => loop a.go k c.rest.length c s
  | manyLazy a, c, s, k => loopLazy a.go k c.rest.length c s
  | group n a, c, s, k  => a.go c s (fun c' s' => k c' ((n, c.upTo c') :: s'))

/-! ## Derived forms -/

def text (w : String) : Pattern := w.toList.foldr (fun x a => seq (one (fun y => decide (y = x))) a) empty

def many1 (a : Pattern) : Pattern := seq a (many a)

def many1Lazy (a : Pattern) : Pattern := seq a (manyLazy a)

def opt (a : Pattern) : Pattern := alt a empty

/-- One after the other. -/
def all : List Pattern → Pattern := List.foldr seq empty

/-! ## `re.finditer`, `re.search` and `re.fullmatch` -/

def matchAt (a : Pattern) (c : Cursor) : Option (Cursor × Captures) := a.go c [] (fun c' s' => some (c', s'))

/-- The matches from `c` on, none inside another. -/
def finditerFrom (a : Pattern) : Nat → Cursor → List Captures
  | 0, _     => []
  | f + 1, c =>
    let next : List Captures :=
      match c.rest with
      | []      => []
      | x :: xs => finditerFrom a f ⟨some x, xs⟩
    match a.matchAt c with
    | none         => next
    | some (d, s) => s :: if d.rest.length < c.rest.length then finditerFrom a f d else next

def finditer (a : Pattern) (text : List Char) : List Captures := a.finditerFrom (text.length + 1) (Cursor.start text)

def search (a : Pattern) (text : List Char) : Option Captures := (a.finditer text).head?

def fullmatch (a : Pattern) (text : List Char) : Option Captures :=
  a.go (Cursor.start text) [] (fun c s => if c.rest = [] then some s else none)

/-! ## The language -/

inductive Matches : Pattern → List Char → Prop
  | one {p : Char → Bool} {x : Char} (h : p x = true) : Matches (one p) [x]
  | empty : Matches empty []
  | bol : Matches bol []
  | eol : Matches eol []
  | seq {a b : Pattern} {v w : List Char} (left : Matches a v) (right : Matches b w) : Matches (seq a b) (v ++ w)
  | left {a b : Pattern} {w : List Char} (h : Matches a w) : Matches (alt a b) w
  | right {a b : Pattern} {w : List Char} (h : Matches b w) : Matches (alt a b) w
  | none {a : Pattern} : Matches (many a) []
  | more {a : Pattern} {v w : List Char} (head : Matches a v) (tail : Matches (many a) w) : Matches (many a) (v ++ w)
  | noneLazy {a : Pattern} : Matches (manyLazy a) []
  | moreLazy {a : Pattern} {v w : List Char} (head : Matches a v) (tail : Matches (manyLazy a) w) :
    Matches (manyLazy a) (v ++ w)
  | group {n : Nat} {a : Pattern} {w : List Char} (h : Matches a w) : Matches (group n a) w

/-- The groups of a pattern. -/
def groups : Pattern → List (Nat × Pattern)
  | seq a b    => a.groups ++ b.groups
  | alt a b    => a.groups ++ b.groups
  | many a     => a.groups
  | manyLazy a => a.groups
  | group n a  => (n, a) :: a.groups
  | _          => []

/-- The groups that take part in every match. -/
def bound : Pattern → List Nat
  | seq a b   => a.bound ++ b.bound
  | group n a => n :: a.bound
  | _         => []

/-! ## Soundness -/

/-- What a match of `a` from `c` to `d` adds to the captures. -/
structure Consumed (a : Pattern) (c d : Cursor) (s s' : Captures) : Prop where
  matched : ∃ w, c.rest = w ++ d.rest ∧ Matches a w
  captured : ∃ new, s' = new ++ s ∧ (∀ n t, (n, t) ∈ new → ∃ g, (n, g) ∈ a.groups ∧ Matches g t) ∧
    ∀ n ∈ a.bound, ∃ t, (n, t) ∈ new

theorem Consumed.seq {a b : Pattern} {c d e : Cursor} {s s' s'' : Captures} (ha : Consumed a c d s s')
    (hb : Consumed b d e s' s'') : Consumed (seq a b) c e s s'' := by
  obtain ⟨⟨v, hv, hva⟩, new, rfl, hnew, hbound⟩ := ha
  obtain ⟨⟨w, hw, hwb⟩, more, rfl, hmore, hbound'⟩ := hb
  refine ⟨⟨v ++ w, by rw [hv, hw, List.append_assoc], .seq hva hwb⟩, more ++ new, by rw [List.append_assoc], ?_, ?_⟩
  · intro n t ht
    rcases List.mem_append.1 ht with ht | ht
    · obtain ⟨g, hg, hm⟩ := hmore n t ht
      exact ⟨g, List.mem_append_right _ hg, hm⟩
    · obtain ⟨g, hg, hm⟩ := hnew n t ht
      exact ⟨g, List.mem_append_left _ hg, hm⟩
  · intro n hn
    rcases List.mem_append.1 hn with hn | hn
    · obtain ⟨t, ht⟩ := hbound n hn
      exact ⟨t, List.mem_append_right _ ht⟩
    · obtain ⟨t, ht⟩ := hbound' n hn
      exact ⟨t, List.mem_append_left _ ht⟩

/-- Nothing consumed, nothing captured. -/
theorem Consumed.nil {a : Pattern} (c : Cursor) (s : Captures) (hm : Matches a []) (hb : a.bound = []) :
    Consumed a c c s s := by
  refine ⟨⟨[], rfl, hm⟩, [], rfl, (fun n t ht => by cases ht), fun n hn => ?_⟩
  rw [hb] at hn
  cases hn

/-- A sound matcher of `a` hands its continuation what `a` consumed. -/
def Sound (a : Pattern) : Prop :=
  ∀ (c : Cursor) (s : Captures) (k : Cursor → Captures → Option β) (r : β), a.go c s k = some r →
    ∃ d s', Consumed a c d s s' ∧ k d s' = some r

theorem orElse_some {o : Option β} {f : Unit → Option β} {r : β} (h : o.orElse f = some r) :
    o = some r ∨ f () = some r := by
  cases o with
  | none => exact Or.inr h
  | some x => exact Or.inl h

theorem loop_sound {a : Pattern} (ha : Sound (β := β) a) (k : Cursor → Captures → Option β) (r : β) :
    ∀ (f : Nat) (c : Cursor) (s : Captures), loop a.go k f c s = some r →
      ∃ d s', Consumed (many a) c d s s' ∧ k d s' = some r
  | 0, c, s, h => ⟨c, s, .nil c s .none rfl, h⟩
  | f + 1, c, s, h => by
    rcases orElse_some h with h | h
    · obtain ⟨d, s', hd, hk⟩ := ha c s _ r h
      split at hk
      · obtain ⟨e, s'', he, hk⟩ := loop_sound ha k r f d s' hk
        obtain ⟨⟨v, hv, hva⟩, new, rfl, hnew, -⟩ := hd
        obtain ⟨⟨w, hw, hwm⟩, more, rfl, hmore, -⟩ := he
        refine ⟨e, _, ⟨⟨v ++ w, by rw [hv, hw, List.append_assoc], .more hva hwm⟩, more ++ new,
          by rw [List.append_assoc], fun n t ht => ?_, fun n hn => by cases hn⟩, hk⟩
        rcases List.mem_append.1 ht with ht | ht
        · exact hmore n t ht
        · exact hnew n t ht
      · cases hk
    · exact ⟨c, s, .nil c s .none rfl, h⟩

theorem loopLazy_sound {a : Pattern} (ha : Sound (β := β) a) (k : Cursor → Captures → Option β) (r : β) :
    ∀ (f : Nat) (c : Cursor) (s : Captures), loopLazy a.go k f c s = some r →
      ∃ d s', Consumed (manyLazy a) c d s s' ∧ k d s' = some r
  | 0, c, s, h => ⟨c, s, .nil c s .noneLazy rfl, h⟩
  | f + 1, c, s, h => by
    rcases orElse_some h with h | h
    · exact ⟨c, s, .nil c s .noneLazy rfl, h⟩
    · obtain ⟨d, s', hd, hk⟩ := ha c s _ r h
      split at hk
      · obtain ⟨e, s'', he, hk⟩ := loopLazy_sound ha k r f d s' hk
        obtain ⟨⟨v, hv, hva⟩, new, rfl, hnew, -⟩ := hd
        obtain ⟨⟨w, hw, hwm⟩, more, rfl, hmore, -⟩ := he
        refine ⟨e, _, ⟨⟨v ++ w, by rw [hv, hw, List.append_assoc], .moreLazy hva hwm⟩, more ++ new,
          by rw [List.append_assoc], fun n t ht => ?_, fun n hn => by cases hn⟩, hk⟩
        rcases List.mem_append.1 ht with ht | ht
        · exact hmore n t ht
        · exact hnew n t ht
      · cases hk

/-- **A match consumes a word of the language, and so does each of its groups.** -/
theorem go_sound : ∀ a : Pattern, Sound (β := β) a
  | one p, c, s, k, r, h => by
    simp only [go] at h
    split at h
    · cases h
    · rename_i x xs hrest
      split at h
      · rename_i hp
        exact ⟨⟨some x, xs⟩, s, ⟨⟨[x], hrest, .one hp⟩, [], rfl, (fun n t ht => by cases ht), fun n hn => by cases hn⟩, h⟩
      · cases h
  | empty, c, s, k, r, h => ⟨c, s, .nil c s .empty rfl, h⟩
  | bol, c, s, k, r, h => by
    simp only [go] at h
    split at h
    · exact ⟨c, s, .nil c s .bol rfl, h⟩
    · cases h
  | eol, c, s, k, r, h => by
    simp only [go] at h
    split at h
    · exact ⟨c, s, .nil c s .eol rfl, h⟩
    · cases h
  | seq a b, c, s, k, r, h => by
    obtain ⟨d, s', hd, h⟩ := go_sound a c s _ r h
    obtain ⟨e, s'', he, h⟩ := go_sound b d s' k r h
    exact ⟨e, s'', hd.seq he, h⟩
  | alt a b, c, s, k, r, h => by
    rcases orElse_some h with h | h
    · obtain ⟨d, s', ⟨⟨w, hw, hm⟩, new, hs, hnew, -⟩, h⟩ := go_sound a c s k r h
      refine ⟨d, s', ⟨⟨w, hw, .left hm⟩, new, hs, fun n t ht => ?_, fun n hn => by cases hn⟩, h⟩
      obtain ⟨g, hg, hgt⟩ := hnew n t ht
      exact ⟨g, List.mem_append_left _ hg, hgt⟩
    · obtain ⟨d, s', ⟨⟨w, hw, hm⟩, new, hs, hnew, -⟩, h⟩ := go_sound b c s k r h
      refine ⟨d, s', ⟨⟨w, hw, .right hm⟩, new, hs, fun n t ht => ?_, fun n hn => by cases hn⟩, h⟩
      obtain ⟨g, hg, hgt⟩ := hnew n t ht
      exact ⟨g, List.mem_append_right _ hg, hgt⟩
  | many a, c, s, k, r, h => loop_sound (go_sound a) k r c.rest.length c s h
  | manyLazy a, c, s, k, r, h => loopLazy_sound (go_sound a) k r c.rest.length c s h
  | group n a, c, s, k, r, h => by
    obtain ⟨d, s', ⟨⟨w, hw, hm⟩, new, rfl, hnew, hbound⟩, h⟩ := go_sound a c s _ r h
    have hword : c.upTo d = w := by
      unfold Cursor.upTo
      rw [hw, List.length_append, Nat.add_sub_cancel, List.take_left]
    refine ⟨d, _, ⟨⟨w, hw, .group hm⟩, (n, c.upTo d) :: new, rfl, ?_, ?_⟩, h⟩
    · intro m t ht
      rcases List.mem_cons.1 ht with heq | ht
      · cases heq
        exact ⟨a, List.mem_cons_self .., by rw [hword]; exact hm⟩
      · obtain ⟨g, hg, hgt⟩ := hnew m t ht
        exact ⟨g, List.mem_cons_of_mem _ hg, hgt⟩
    · intro m hm'
      rcases List.mem_cons.1 hm' with rfl | hm'
      · exact ⟨_, List.mem_cons_self ..⟩
      · obtain ⟨t, ht⟩ := hbound m hm'
        exact ⟨t, List.mem_cons_of_mem _ ht⟩

/-! ## What a capture is -/

theorem lookup_isSome {s : Captures} {n : Nat} {t : List Char} (h : (n, t) ∈ s) :
    ∃ u, s.lookup n = some u ∧ (n, u) ∈ s := by
  induction s with
  | nil => cases h
  | cons x s ih =>
    obtain ⟨m, v⟩ := x
    by_cases hm : n = m
    · subst hm
      exact ⟨v, by simp, List.mem_cons_self ..⟩
    · have hbeq : (n == m) = false := by simpa using hm
      rcases List.mem_cons.1 h with heq | h
      · cases heq
        exact absurd rfl hm
      · obtain ⟨u, hu, hmem⟩ := ih h
        exact ⟨u, by rw [List.lookup_cons, hbeq]; exact hu, List.mem_cons_of_mem _ hmem⟩

/-- The captures of a match. -/
structure Captured (a : Pattern) (s : Captures) : Prop where
  captured : ∀ n t, (n, t) ∈ s → ∃ g, (n, g) ∈ a.groups ∧ Matches g t
  bound : ∀ n ∈ a.bound, ∃ t, (n, t) ∈ s

/-- A group that takes part in every match has a capture, in the language of a group of that number. -/
theorem Captured.lookup {a : Pattern} {s : Captures} (h : Captured a s) {n : Nat} (hn : n ∈ a.bound) :
    ∃ t, s.lookup n = some t ∧ ∃ g, (n, g) ∈ a.groups ∧ Matches g t := by
  obtain ⟨t, ht⟩ := h.bound n hn
  obtain ⟨u, hu, hmem⟩ := lookup_isSome ht
  exact ⟨u, hu, h.captured n u hmem⟩

theorem captured_of_consumed {a : Pattern} {c d : Cursor} {s : Captures} (h : Consumed a c d [] s) : Captured a s := by
  obtain ⟨-, new, rfl, hnew, hbound⟩ := h
  rw [List.append_nil]
  exact ⟨hnew, hbound⟩

theorem matchAt_captured {a : Pattern} {c d : Cursor} {s : Captures} (h : a.matchAt c = some (d, s)) : Captured a s := by
  obtain ⟨d', s', hd, heq⟩ := go_sound a c [] _ _ h
  cases heq
  exact captured_of_consumed hd

/-- **Every match `finditer` yields has the captures of a match.** -/
theorem finditer_captured {a : Pattern} {w : List Char} {s : Captures} (h : s ∈ a.finditer w) : Captured a s := by
  have hfrom : ∀ (f : Nat) (c : Cursor), s ∈ a.finditerFrom f c → Captured a s := by
    intro f
    induction f with
    | zero => intro c h; cases h
    | succ f ih =>
      intro c h
      have hnext : s ∈ (match c.rest with
          | []      => []
          | x :: xs => finditerFrom a f ⟨some x, xs⟩) → Captured a s := by
        intro h
        split at h
        · cases h
        · exact ih _ h
      simp only [finditerFrom] at h
      split at h
      · exact hnext h
      · rename_i d s₀ hmatch
        rcases List.mem_cons.1 h with rfl | h
        · exact matchAt_captured hmatch
        · split at h
          · exact ih d h
          · exact hnext h
  exact hfrom _ _ h

theorem fullmatch_captured {a : Pattern} {w : List Char} {s : Captures} (h : a.fullmatch w = some s) : Captured a s := by
  obtain ⟨d, s', hd, heq⟩ := go_sound a _ [] _ _ h
  split at heq
  · cases heq
    exact captured_of_consumed hd
  · cases heq

end Pattern
