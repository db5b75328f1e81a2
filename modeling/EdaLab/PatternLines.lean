import EdaLab.PatternRun
/-!
# PatternLines — anchored patterns and the lines of a text

A pattern that begins with `^` matches at the starts of lines only.  Where no match runs over the start of another, what
`finditer` yields is the match at each line start that has one, in order (`finditerFrom_anchored`).  `may` tells from a
known beginning of a line that there is none, whatever follows.
-/
namespace Pattern

/-! ## Where a run can lead -/

theorem Run.eats {a : Pattern} {c d : Cursor} {s s' : Captures} (h : Run a c s d s') : ∃ w, Eats c w d := by
  induction h with
  | @one p b x xs s _ => exact ⟨[x], rfl, rfl⟩
  | empty | bol | eol | none | noneLazy => exact ⟨[], .nil _⟩
  | seq _ _ ihl ihr =>
    obtain ⟨v, hv⟩ := ihl
    obtain ⟨w, hw⟩ := ihr
    exact ⟨v ++ w, hv.append hw⟩
  | left _ ih | right _ ih | group _ ih => exact ih
  | more _ _ _ ihh iht | moreLazy _ _ _ ihh iht =>
    obtain ⟨v, hv⟩ := ihh
    obtain ⟨w, hw⟩ := iht
    exact ⟨v ++ w, hv.append hw⟩

theorem Eats.length {c d : Cursor} {w : List Char} (h : Eats c w d) : c.rest.length = w.length + d.rest.length := by
  rw [h.rest, List.length_append]

/-! ## Line starts -/

/-- `^` holds after this. -/
def AtBol (b : Option Char) : Prop := b.all (fun x => decide (x = '\n')) = true

instance (b : Option Char) : Decidable (AtBol b) := inferInstanceAs (Decidable (_ = _))

theorem atBol_none : AtBol none := rfl

theorem atBol_newline : AtBol (some '\n') := rfl

theorem not_atBol {x : Char} (h : x ≠ '\n') : ¬AtBol (some x) := by
  simp [AtBol, h]

def lineStarts (b : Option Char) : List Char → List Cursor
  | []      => if AtBol b then [⟨b, []⟩] else []
  | x :: xs => (if AtBol b then [⟨b, x :: xs⟩] else []) ++ lineStarts (some x) xs

/-- The line starts from `c` on. -/
def Cursor.starts (c : Cursor) : List Cursor := lineStarts c.before c.rest

theorem starts_nil (b : Option Char) : Cursor.starts ⟨b, []⟩ = if AtBol b then [⟨b, []⟩] else [] := rfl

theorem starts_cons (b : Option Char) (x : Char) (xs : List Char) : Cursor.starts ⟨b, x :: xs⟩ =
    (if AtBol b then [⟨b, x :: xs⟩] else []) ++ Cursor.starts ⟨some x, xs⟩ := rfl

theorem starts_eats {c d : Cursor} {w : List Char} (h : Eats c w d) :
    ∃ skipped, c.starts = skipped ++ d.starts ∧ ∀ e ∈ skipped, d.rest.length < e.rest.length := by
  induction w generalizing c with
  | nil =>
    rw [eats_nil_iff.1 h]
    exact ⟨[], rfl, by simp⟩
  | cons x w ih =>
    obtain ⟨e, hx, hw⟩ := eats_append_iff.1 (show Eats c ([x] ++ w) d from h)
    obtain ⟨skipped, hskipped, hlong⟩ := ih hw
    obtain ⟨b, rest⟩ := c
    obtain ⟨b', rest'⟩ := e
    obtain ⟨hrest, hbefore⟩ := hx
    simp only [List.cons_append, List.nil_append, List.getLast?_singleton, Option.some_or] at hrest hbefore
    subst hrest hbefore
    refine ⟨_, by rw [starts_cons, hskipped, ← List.append_assoc], fun f hf => ?_⟩
    rcases List.mem_append.1 hf with hf | hf
    · split at hf
      · rw [List.mem_singleton.1 hf, h.length]
        exact Nat.lt_add_of_pos_left (Nat.succ_pos _)
      · cases hf
    · exact hlong f hf

theorem starts_length_le {c e : Cursor} (h : e ∈ c.starts) : e.rest.length ≤ c.rest.length := by
  obtain ⟨b, rest⟩ := c
  induction rest generalizing b with
  | nil =>
    rw [starts_nil] at h
    split at h
    · rw [List.mem_singleton.1 h]
    · cases h
  | cons x xs ih =>
    rw [starts_cons] at h
    rcases List.mem_append.1 h with h | h
    · split at h
      · rw [List.mem_singleton.1 h]
      · cases h
    · exact Nat.le_succ_of_le (ih _ h)

theorem starts_spec {c e : Cursor} (h : e ∈ c.starts) : AtBol e.before ∧ ∃ w, Eats c w e := by
  obtain ⟨b, rest⟩ := c
  induction rest generalizing b with
  | nil =>
    rw [starts_nil] at h
    split at h
    · rename_i hb
      rw [List.mem_singleton.1 h]
      exact ⟨hb, [], .nil _⟩
    · cases h
  | cons x xs ih =>
    rw [starts_cons] at h
    rcases List.mem_append.1 h with h | h
    · split at h
      · rename_i hb
        rw [List.mem_singleton.1 h]
        exact ⟨hb, [], .nil _⟩
      · cases h
    · obtain ⟨hb, w, hw⟩ := ih _ h
      exact ⟨hb, [x] ++ w, Eats.append (⟨rfl, rfl⟩ : Eats ⟨b, x :: xs⟩ [x] ⟨some x, xs⟩) hw⟩

/-- Of two places of a text one is reached from the other. -/
theorem eats_of_shorter {c₀ c e : Cursor} {v w : List Char} (hc : Eats c₀ v c) (he : Eats c₀ w e)
    (h : e.rest.length ≤ c.rest.length) : ∃ u, Eats c u e := by
  have hlc := hc.length
  have hle := he.length
  have hvw : v.length ≤ w.length := by omega
  have hbegins : v <+: w := List.prefix_of_prefix_length_le ⟨_, hc.rest.symm⟩ ⟨_, he.rest.symm⟩ hvw
  obtain ⟨u, rfl⟩ := hbegins
  obtain ⟨c', hc', hu⟩ := eats_append_iff.1 he
  rw [hc.unique hc'] at hu
  exact ⟨u, hu⟩

theorem go_bol {β : Type} {c : Cursor} (h : AtBol c.before) (s : Captures) (k : Cursor → Captures → Option β) :
    bol.go c s k = k c s := if_pos h

/-! ## The matches of an anchored pattern -/

/-- Matches at line starts only. -/
def Anchored (a : Pattern) : Prop := ∀ c d s, Run a c [] d s → AtBol c.before

theorem anchored_seq (a : Pattern) : Anchored (seq bol a) := by
  intro c d s h
  obtain ⟨e, t, hbol, -⟩ := run_seq.1 h
  exact (run_bol.1 hbol).2.2

/-- No match runs over a line start with a match of its own. -/
def Apart (a : Pattern) (cs : List Cursor) : Prop :=
  ∀ c ∈ cs, ∀ d s, a.matchAt c = some (d, s) → ∀ e ∈ cs, d.rest.length < e.rest.length → e.rest.length < c.rest.length →
    a.matchAt e = Option.none

theorem Apart.of_subset {a : Pattern} {cs cs' : List Cursor} (h : Apart a cs') (hsub : ∀ c ∈ cs, c ∈ cs') : Apart a cs :=
  fun c hc d s hm e he => h c (hsub c hc) d s hm e (hsub e he)

/-- What a place yields. -/
def yield (a : Pattern) (c : Cursor) : Option Captures := (a.matchAt c).map Prod.snd

theorem filterMap_skipped {a : Pattern} {skipped rest : List Cursor} (h : ∀ e ∈ skipped, a.matchAt e = Option.none) :
    (skipped ++ rest).filterMap a.yield = rest.filterMap a.yield := by
  have hnone : skipped.filterMap a.yield = [] := by
    rw [List.filterMap_eq_nil_iff]
    intro e he
    unfold yield
    rw [h e he]
    rfl
  rw [List.filterMap_append, hnone, List.nil_append]

theorem finditerFrom_succ (a : Pattern) (f : Nat) (c : Cursor) : a.finditerFrom (f + 1) c =
    match a.matchAt c with
    | Option.none => (match c.rest with
      | []      => []
      | x :: xs => a.finditerFrom f ⟨some x, xs⟩)
    | some (d, s) => s :: if d.rest.length < c.rest.length then a.finditerFrom f d else (match c.rest with
      | []      => []
      | x :: xs => a.finditerFrom f ⟨some x, xs⟩) := rfl

/-- **Where no match runs over another's line start, every line start yields its match.** -/
theorem finditerFrom_anchored {a : Pattern} (ha : Anchored a) : ∀ (f : Nat) (c : Cursor), c.rest.length < f →
    Apart a c.starts → a.finditerFrom f c = c.starts.filterMap a.yield
  | 0, c, hf, _ => absurd hf (Nat.not_lt_zero _)
  | f + 1, ⟨b, rest⟩, hf, hapart => by
    rw [finditerFrom_succ]
    -- the starts after this place
    have hnext : ∀ x xs, rest = x :: xs → a.finditerFrom f ⟨some x, xs⟩ =
      (Cursor.starts ⟨some x, xs⟩).filterMap a.yield := by
      rintro x xs rfl
      refine finditerFrom_anchored ha f _ (Nat.lt_of_succ_lt_succ hf) (hapart.of_subset fun e he => ?_)
      rw [starts_cons]
      exact List.mem_append_right _ he
    cases hm : a.matchAt ⟨b, rest⟩ with
    | none =>
      cases rest with
      | nil =>
        rw [starts_nil]
        by_cases hbol : AtBol b
        · simp [hbol, yield, hm]
        · simp [hbol]
      | cons x xs =>
        simp only
        rw [hnext x xs rfl, starts_cons, filterMap_skipped]
        intro e he
        split at he
        · rw [List.mem_singleton.1 he, hm]
        · cases he
    | some r =>
      obtain ⟨d, s⟩ := r
      have hbol := ha _ _ _ (matchAt_run hm)
      have hyield : a.yield ⟨b, rest⟩ = some s := by
        unfold yield
        rw [hm]
        rfl
      cases rest with
      | nil =>
        rw [starts_nil, if_pos hbol]
        simp [hyield]
      | cons x xs =>
        rw [starts_cons, if_pos hbol]
        simp only [List.cons_append, List.nil_append, List.filterMap_cons, hyield]
        congr 1
        split
        · rename_i hlt
          have hfuel : d.rest.length < f := Nat.lt_of_lt_of_le hlt (Nat.le_of_lt_succ hf)
          obtain ⟨w, hw⟩ := (matchAt_run hm).eats
          cases w with
          | nil =>
            rw [eats_nil_iff.1 hw] at hlt
            exact absurd hlt (Nat.lt_irrefl _)
          | cons y w =>
            obtain ⟨e, hy, hw⟩ := eats_append_iff.1 (show Eats _ ([y] ++ w) d from hw)
            obtain ⟨b', rest'⟩ := e
            obtain ⟨hrest, hbefore⟩ := hy
            simp only [List.cons_append, List.nil_append, List.getLast?_singleton, Option.some_or, List.cons.injEq]
              at hrest hbefore
            obtain ⟨rfl, rfl⟩ := hrest
            subst hbefore
            obtain ⟨skipped, hskipped, hlong⟩ := starts_eats hw
            have hsub : ∀ e ∈ Cursor.starts ⟨some x, xs⟩, e ∈ Cursor.starts ⟨b, x :: xs⟩ := by
              intro e he
              rw [starts_cons]
              exact List.mem_append_right _ he
            rw [finditerFrom_anchored ha f d hfuel (hapart.of_subset fun e he => hsub e (by
              rw [hskipped]
              exact List.mem_append_right _ he)), hskipped, filterMap_skipped]
            intro e he
            have hmem : e ∈ Cursor.starts ⟨some x, xs⟩ := by
              rw [hskipped]
              exact List.mem_append_left _ he
            refine hapart ⟨b, x :: xs⟩ ?_ d s hm e (hsub e hmem) (hlong e he)
              (Nat.lt_succ_of_le (starts_length_le hmem))
            rw [starts_cons, if_pos hbol]
            exact List.mem_append_left _ List.mem_cons_self
        · exact hnext x xs rfl

theorem finditer_anchored {a : Pattern} (ha : Anchored a) {text : List Char} (h : Apart a (Cursor.start text).starts) :
    a.finditer text = (Cursor.start text).starts.filterMap a.yield :=
  finditerFrom_anchored ha _ _ (Nat.lt_succ_self _) h

/-! ## Lines -/

/-- The text of these lines, each with its line end. -/
def ofLines (ls : List (List Char)) : List Char := ls.flatMap (· ++ ['\n'])

theorem ofLines_cons (l : List Char) (ls : List (List Char)) : ofLines (l :: ls) = l ++ '\n' :: ofLines ls := by
  simp [ofLines]

theorem ofLines_append (ls ls' : List (List Char)) : ofLines (ls ++ ls') = ofLines ls ++ ofLines ls' := by
  simp [ofLines]

theorem starts_skip {b : Option Char} (hb : ¬AtBol b) (l rest : List Char) (hl : '\n' ∉ l) :
    Cursor.starts ⟨b, l ++ '\n' :: rest⟩ = Cursor.starts ⟨some '\n', rest⟩ := by
  induction l generalizing b with
  | nil =>
    rw [List.nil_append, starts_cons, if_neg hb]
    rfl
  | cons x l ih =>
    have hx : ¬AtBol (some x) := not_atBol (fun h => hl (by rw [h]; exact List.mem_cons_self))
    rw [List.cons_append, starts_cons, if_neg hb, List.nil_append]
    exact ih hx (fun h => hl (List.mem_cons_of_mem x h))

/-- A line has one start. -/
theorem starts_line {b : Option Char} (hb : AtBol b) (l rest : List Char) (hl : '\n' ∉ l) :
    Cursor.starts ⟨b, l ++ '\n' :: rest⟩ = ⟨b, l ++ '\n' :: rest⟩ :: Cursor.starts ⟨some '\n', rest⟩ := by
  cases l with
  | nil =>
    rw [List.nil_append, starts_cons, if_pos hb]
    rfl
  | cons x l =>
    have hx : ¬AtBol (some x) := not_atBol (fun h => hl (by rw [h]; exact List.mem_cons_self))
    rw [List.cons_append, starts_cons, if_pos hb, starts_skip hx l rest (fun h => hl (List.mem_cons_of_mem x h))]
    rfl

/-! ## What a known beginning rules out -/

/-- A repetition of `m`, as far as it can go; without fuel anything can follow. -/
def mayLoop (m : List Char → (List Char → Bool) → Bool) (k : List Char → Bool) : Nat → List Char → Bool
  | 0, _     => true
  | f + 1, w => k w || m w (mayLoop m k f)

/-- Whether a match can run from a text that begins with `w` into one where `k` holds; past the known text anything
can. -/
def may : Pattern → List Char → (List Char → Bool) → Bool
  | one p, w, k      =>
    match w with
    | []      => true
    | x :: xs => p x && k xs
  | empty, w, k      => k w
  | bol, w, k        => k w
  | eol, w, k        => w.head?.all (fun x => decide (x = '\n')) && k w
  | seq a b, w, k    => a.may w (fun v => b.may v k)
  | alt a b, w, k    => a.may w k || b.may w k
  | many a, w, k     => mayLoop a.may k (w.length + 1) w
  | manyLazy a, w, k => mayLoop a.may k (w.length + 1) w
  | group _ a, w, k  => a.may w k

/-- `w` is what of the known text `v` is left at `d`, where `v` was known at `c`. -/
structure Left (c d : Cursor) (v w : List Char) : Prop where
  known : v <+: c.rest
  left  : w <+: d.rest
  eaten : v.length = w.length + (c.rest.length - d.rest.length)

theorem Left.refl {c : Cursor} {v : List Char} (h : v <+: c.rest) : Left c c v v :=
  ⟨h, h, by rw [Nat.sub_self, Nat.add_zero]⟩

theorem Left.trans {c d e : Cursor} {u v w : List Char} (h : Left c d u v) (h' : Left d e v w)
    (hcd : d.rest.length ≤ c.rest.length) (hde : e.rest.length ≤ d.rest.length) : Left c e u w := by
  refine ⟨h.known, h'.left, ?_⟩
  have hu := h.eaten
  have hv := h'.eaten
  omega

theorem Run.length_le {a : Pattern} {c d : Cursor} {s s' : Captures} (h : Run a c s d s') :
    d.rest.length ≤ c.rest.length := by
  obtain ⟨w, hw⟩ := h.eats
  rw [hw.length]
  exact Nat.le_add_left _ _

/-- `may` holds where there is a run. -/
def MaySound (a : Pattern) : Prop :=
  ∀ (c d : Cursor) (s s' : Captures) (k : List Char → Bool) (v : List Char), Run a c s d s' → v <+: c.rest →
    (∀ w, Left c d v w → k w = true) → a.may v k = true

theorem mayLoop_sound {a b : Pattern} (ha : MaySound a) (hb : b = many a ∨ b = manyLazy a) {c d : Cursor} {s s' : Captures}
    (h : Run b c s d s') : ∀ (f : Nat) (k : List Char → Bool) (v : List Char), v <+: c.rest →
      (∀ w, Left c d v w → k w = true) → mayLoop a.may k f v = true := by
  have hstep : ∀ {c d e : Cursor} {s s' : Captures}, Run a c s d s' → e.rest.length ≤ d.rest.length →
      (∀ (f : Nat) (k : List Char → Bool) (v : List Char), v <+: d.rest → (∀ w, Left d e v w → k w = true) →
        mayLoop a.may k f v = true) →
      ∀ (f : Nat) (k : List Char → Bool) (v : List Char), v <+: c.rest → (∀ w, Left c e v w → k w = true) →
        mayLoop a.may k f v = true := by
    intro c d e s s' head hle ih f k v hv hk
    cases f with
    | zero => rfl
    | succ f =>
      refine Bool.or_eq_true_iff.2 (Or.inr (ha c d s s' _ v head hv fun w hw => ?_))
      exact ih f k w hw.left (fun u hu => hk u (hw.trans hu head.length_le hle))
  have hstop : ∀ {c : Cursor} (f : Nat) (k : List Char → Bool) (v : List Char), v <+: c.rest →
      (∀ w, Left c c v w → k w = true) → mayLoop a.may k f v = true := by
    intro c f k v hv hk
    cases f with
    | zero => rfl
    | succ f => exact Bool.or_eq_true_iff.2 (Or.inl (hk v (.refl hv)))
  induction h with
  | none | noneLazy => exact hstop
  | more head _ tail _ iht =>
    rcases hb with hb | hb
    · cases hb
      exact hstep head tail.length_le (iht (Or.inl rfl))
    · cases hb
  | moreLazy head _ tail _ iht =>
    rcases hb with hb | hb
    · cases hb
    · cases hb
      exact hstep head tail.length_le (iht (Or.inr rfl))
  | _ => rcases hb with hb | hb <;> cases hb

theorem may_sound : ∀ a : Pattern, MaySound a
  | one p, c, d, s, s', k, v, h, hv, hk => by
    obtain ⟨-, x, hx, heats⟩ := run_one.1 h
    cases v with
    | nil => rfl
    | cons y v =>
      rw [heats.rest] at hv
      obtain ⟨rfl, hv'⟩ := List.cons_prefix_cons.1 hv
      refine Bool.and_eq_true_iff.2 ⟨hx, hk v ⟨by rw [heats.rest]; exact hv, hv', ?_⟩⟩
      rw [heats.length]
      simp
  | empty, c, d, s, s', k, v, h, hv, hk => by
    obtain ⟨-, rfl⟩ := run_empty.1 h
    exact hk v (.refl hv)
  | bol, c, d, s, s', k, v, h, hv, hk => by
    obtain ⟨-, rfl, -⟩ := run_bol.1 h
    exact hk v (.refl hv)
  | eol, c, d, s, s', k, v, h, hv, hk => by
    obtain ⟨-, rfl, hend⟩ := run_eol.1 h
    refine Bool.and_eq_true_iff.2 ⟨?_, hk v (.refl hv)⟩
    cases v with
    | nil => rfl
    | cons y v =>
      obtain ⟨t, ht⟩ := hv
      rw [← ht] at hend
      exact hend
  | seq a b, c, e, s, s', k, v, h, hv, hk => by
    obtain ⟨d, t, hl, hr⟩ := run_seq.1 h
    refine may_sound a c d s t _ v hl hv fun w hw => ?_
    exact may_sound b d e t s' k w hr hw.left (fun u hu => hk u (hw.trans hu hl.length_le hr.length_le))
  | alt a b, c, d, s, s', k, v, h, hv, hk => by
    rcases run_alt.1 h with h | h
    · exact Bool.or_eq_true_iff.2 (Or.inl (may_sound a c d s s' k v h hv hk))
    · exact Bool.or_eq_true_iff.2 (Or.inr (may_sound b c d s s' k v h hv hk))
  | many a, c, d, s, s', k, v, h, hv, hk => mayLoop_sound (may_sound a) (Or.inl rfl) h _ k v hv hk
  | manyLazy a, c, d, s, s', k, v, h, hv, hk => mayLoop_sound (may_sound a) (Or.inr rfl) h _ k v hv hk
  | group n a, c, d, s, s', k, v, h, hv, hk => by
    obtain ⟨t, h, -⟩ := run_group.1 h
    exact may_sound a c d s t k v h hv hk

/-- No match begins with `v`. -/
def never (a : Pattern) (v : List Char) : Bool := !a.may v (fun _ => true)

/-- **What is ruled out by the beginning of a text is no match there.** -/
theorem matchAt_of_never {a : Pattern} {c : Cursor} {v : List Char} (h : a.never v = true) (hv : v <+: c.rest) :
    a.matchAt c = Option.none := by
  cases hm : a.matchAt c with
  | none => rfl
  | some r =>
    obtain ⟨d, s⟩ := r
    have hmay := may_sound a c d [] s (fun _ => true) v (matchAt_run hm) hv (fun _ _ => rfl)
    unfold never at h
    rw [hmay] at h
    cases h

/-! ## Reading a text line by line -/

/-- The starts of the lines `ls` of a text that goes on with `rest`. -/
def blockStarts (b : Option Char) : List (List Char) → List Char → List Cursor
  | [], _         => []
  | l :: ls, rest => ⟨b, ofLines (l :: ls) ++ rest⟩ :: blockStarts (some '\n') ls rest

theorem starts_block (l : List Char) (ls : List (List Char)) : ∀ {b : Option Char}, AtBol b → (∀ l' ∈ l :: ls, '\n' ∉ l') →
    ∀ rest, Cursor.starts ⟨b, ofLines (l :: ls) ++ rest⟩ =
      blockStarts b (l :: ls) rest ++ Cursor.starts ⟨some '\n', rest⟩ := by
  induction ls generalizing l with
  | nil =>
    intro b hb hplain rest
    have htext : ofLines [l] ++ rest = l ++ '\n' :: rest := by simp [ofLines]
    unfold blockStarts
    rw [htext, starts_line hb l rest (hplain l List.mem_cons_self)]
    rfl
  | cons l' ls ih =>
    intro b hb hplain rest
    have htext : ofLines (l :: l' :: ls) ++ rest = l ++ '\n' :: (ofLines (l' :: ls) ++ rest) := by
      rw [ofLines_cons, List.append_assoc, List.cons_append]
    unfold blockStarts
    rw [htext, starts_line hb l _ (hplain l List.mem_cons_self), ih l' atBol_newline
      (fun x hx => hplain x (List.mem_cons_of_mem l hx))]
    rfl

/-- No line of the block is the start of a match, where the text goes on with `next`. -/
def silent (a : Pattern) : List (List Char) → List Char → Bool
  | [], _         => true
  | l :: ls, next => a.never (ofLines (l :: ls) ++ next) && silent a ls next

theorem none_of_silent {a : Pattern} {ls : List (List Char)} {next rest : List Char} (h : a.silent ls next = true)
    (hnext : next <+: rest) : ∀ b, ∀ e ∈ blockStarts b ls rest, a.matchAt e = Option.none := by
  induction ls with
  | nil =>
    intro b e he
    cases he
  | cons l ls ih =>
    intro b e he
    obtain ⟨hl, hls⟩ := Bool.and_eq_true_iff.1 h
    rcases List.mem_cons.1 he with rfl | he
    · exact matchAt_of_never hl ((List.prefix_append_right_inj _).2 hnext)
    · exact ih hls _ e he

section Single

variable {a : Pattern} {text : List Char} {c c' d d' : Cursor} {s s' : Captures} {before between after : List Cursor}

theorem filterMap_none {cs : List Cursor} (h : ∀ e ∈ cs, a.matchAt e = Option.none) : cs.filterMap a.yield = [] := by
  have hskip : (cs ++ []).filterMap a.yield = ([] : List Cursor).filterMap a.yield := filterMap_skipped h
  rw [List.append_nil] at hskip
  exact hskip

theorem yield_some (h : a.matchAt c = some (d, s)) : a.yield c = some s := by
  unfold yield
  rw [h]
  rfl

/-- No line start has a match. -/
theorem finditer_none (ha : Anchored a) (h : ∀ e ∈ (Cursor.start text).starts, a.matchAt e = Option.none) :
    a.finditer text = [] := by
  have hapart : Apart a (Cursor.start text).starts := fun _ _ _ _ _ e he _ _ => h e he
  rw [finditer_anchored ha hapart, filterMap_none h]

/-- One line start has a match. -/
theorem finditer_one (ha : Anchored a) (hstarts : (Cursor.start text).starts = before ++ c :: after)
    (hbefore : ∀ e ∈ before, a.matchAt e = Option.none) (hc : a.matchAt c = some (d, s))
    (hafter : ∀ e ∈ after, a.matchAt e = Option.none) : a.finditer text = [s] := by
  have hapart : Apart a (Cursor.start text).starts := by
    rw [hstarts]
    intro e he d' s' hm e' he' _ hlt
    rcases List.mem_append.1 he' with he' | he'
    · exact hbefore e' he'
    · rcases List.mem_cons.1 he' with rfl | he'
      · rcases List.mem_append.1 he with he | he
        · rw [hbefore e he] at hm
          cases hm
        · rcases List.mem_cons.1 he with rfl | he
          · exact absurd hlt (Nat.lt_irrefl _)
          · rw [hafter e he] at hm
            cases hm
      · exact hafter e' he'
  rw [finditer_anchored ha hapart, hstarts, filterMap_skipped hbefore, List.filterMap_cons, yield_some hc,
    filterMap_none hafter]

/-- Two line starts have a match, the first ending before the second. -/
theorem finditer_two (ha : Anchored a) (hstarts : (Cursor.start text).starts = before ++ c :: (between ++ c' :: after))
    (hbefore : ∀ e ∈ before, a.matchAt e = Option.none) (hc : a.matchAt c = some (d, s))
    (hbetween : ∀ e ∈ between, a.matchAt e = Option.none) (hc' : a.matchAt c' = some (d', s'))
    (hafter : ∀ e ∈ after, a.matchAt e = Option.none) (hend : c'.rest.length ≤ d.rest.length)
    (horder : c'.rest.length ≤ c.rest.length) : a.finditer text = [s, s'] := by
  have hcase : ∀ e ∈ (Cursor.start text).starts, a.matchAt e = Option.none ∨ e = c ∨ e = c' := by
    rw [hstarts]
    intro e he
    rcases List.mem_append.1 he with he | he
    · exact Or.inl (hbefore e he)
    · rcases List.mem_cons.1 he with rfl | he
      · exact Or.inr (Or.inl rfl)
      · rcases List.mem_append.1 he with he | he
        · exact Or.inl (hbetween e he)
        · rcases List.mem_cons.1 he with rfl | he
          · exact Or.inr (Or.inr rfl)
          · exact Or.inl (hafter e he)
  have hapart : Apart a (Cursor.start text).starts := by
    intro e he d₁ s₁ hm e' he' hlt hlt'
    rcases hcase e' he' with hnone | rfl | rfl
    · exact hnone
    · rcases hcase e he with hnone | rfl | rfl
      · rw [hnone] at hm
        cases hm
      · exact absurd hlt' (Nat.lt_irrefl _)
      · exact absurd hlt' (Nat.not_lt.2 horder)
    · rcases hcase e he with hnone | rfl | rfl
      · rw [hnone] at hm
        cases hm
      · rw [hc] at hm
        cases hm
        exact absurd hlt (Nat.not_lt.2 hend)
      · exact absurd hlt' (Nat.lt_irrefl _)
  rw [finditer_anchored ha hapart, hstarts, filterMap_skipped hbefore, List.filterMap_cons, yield_some hc,
    filterMap_skipped hbetween, List.filterMap_cons, yield_some hc', filterMap_none hafter]

end Single

/-! ## Texts of given lines -/

section Lines

variable {a : Pattern} {l l' : List Char} {pre mid post : List (List Char)} {rest : List Char} {s s' : Captures}

/-- No line of the block is the start of a match. -/
def Quiet (a : Pattern) (ls : List (List Char)) (rest : List Char) : Prop :=
  ∀ b, ∀ e ∈ blockStarts b ls rest, a.matchAt e = Option.none

theorem quiet_nil : Quiet a [] rest := by
  intro b e he
  cases he

theorem quiet_cons (hl : ∀ b, a.matchAt ⟨b, l ++ '\n' :: (ofLines post ++ rest)⟩ = Option.none) (h : Quiet a post rest) :
    Quiet a (l :: post) rest := by
  intro b e he
  rcases List.mem_cons.1 he with rfl | he
  · rw [ofLines_cons, List.append_assoc, List.cons_append]
    exact hl b
  · exact h _ e he

theorem blockStarts_append (pre post : List (List Char)) (rest : List Char) (b : Option Char) : ∃ b',
    blockStarts b (pre ++ post) rest = blockStarts b pre (ofLines post ++ rest) ++ blockStarts b' post rest := by
  induction pre generalizing b with
  | nil => exact ⟨b, rfl⟩
  | cons l pre ih =>
    obtain ⟨b', h⟩ := ih (some '\n')
    refine ⟨b', ?_⟩
    simp only [List.cons_append, blockStarts, h, ofLines_cons, ofLines_append, List.append_assoc]

theorem quiet_append (hpre : Quiet a pre (ofLines post ++ rest)) (hpost : Quiet a post rest) :
    Quiet a (pre ++ post) rest := by
  intro b e he
  obtain ⟨b', hstarts⟩ := blockStarts_append pre post rest b
  rw [hstarts] at he
  rcases List.mem_append.1 he with he | he
  · exact hpre b e he
  · exact hpost b' e he

theorem quiet_of_silent {next : List Char} (h : a.silent pre next = true) (hnext : next <+: rest) : Quiet a pre rest :=
  none_of_silent h hnext

/-- The line starts of a text of whole lines are those of its lines, and its end. -/
theorem starts_ofLines {ls : List (List Char)} (hne : ls ≠ []) (hplain : ∀ l ∈ ls, '\n' ∉ l) :
    (Cursor.start (ofLines ls)).starts = blockStarts none ls [] ++ [⟨some '\n', []⟩] := by
  obtain ⟨l, ls, rfl⟩ := List.exists_cons_of_ne_nil hne
  have h := starts_block l ls atBol_none hplain []
  rw [List.append_nil] at h
  exact h

theorem atBol_blockStarts {b : Option Char} (hb : AtBol b) (ls : List (List Char)) (rest : List Char) :
    ∀ e ∈ blockStarts b ls rest, AtBol e.before := by
  induction ls generalizing b with
  | nil =>
    intro e he
    cases he
  | cons l ls ih =>
    intro e he
    rcases List.mem_cons.1 he with rfl | he
    · exact hb
    · exact ih atBol_newline e he

theorem finditer_quiet (ha : Anchored a) (hend : a.matchAt ⟨some '\n', []⟩ = Option.none) {ls : List (List Char)}
    (hne : ls ≠ []) (hplain : ∀ l ∈ ls, '\n' ∉ l) (h : Quiet a ls []) : a.finditer (ofLines ls) = [] := by
  refine finditer_none ha (fun e he => ?_)
  rw [starts_ofLines hne hplain] at he
  rcases List.mem_append.1 he with he | he
  · exact h none e he
  · rw [List.mem_singleton.1 he]
    exact hend

/-- One line is the start of a match. -/
theorem finditer_line (ha : Anchored a) (hend : a.matchAt ⟨some '\n', []⟩ = Option.none)
    (hplain : ∀ l' ∈ pre ++ l :: post, '\n' ∉ l') (hpre : Quiet a pre (ofLines (l :: post)))
    (hl : ∀ b, AtBol b → ∃ d, a.matchAt ⟨b, l ++ '\n' :: ofLines post⟩ = some (d, s)) (hpost : Quiet a post []) :
    a.finditer (ofLines (pre ++ l :: post)) = [s] := by
  obtain ⟨b, hstarts⟩ := blockStarts_append pre (l :: post) [] none
  have hall := starts_ofLines (by simp) hplain
  rw [hstarts, List.append_assoc] at hall
  have hb : AtBol b := by
    refine atBol_blockStarts atBol_none (pre ++ l :: post) [] ⟨b, ofLines (l :: post) ++ []⟩ ?_
    rw [hstarts]
    exact List.mem_append_right _ List.mem_cons_self
  obtain ⟨d, hm⟩ := hl b hb
  have htarget : a.matchAt ⟨b, ofLines (l :: post) ++ []⟩ = some (d, s) := by
    rw [List.append_nil, ofLines_cons]
    exact hm
  refine finditer_one ha hall (fun e he => hpre none e ?_) htarget (fun e he => ?_)
  · rw [List.append_nil] at he
    exact he
  · rcases List.mem_append.1 he with he | he
    · exact hpost _ e he
    · rw [List.mem_singleton.1 he]
      exact hend

/-- Two lines are, and the match of the first does not reach the second. -/
theorem finditer_two_lines (ha : Anchored a) (hend : a.matchAt ⟨some '\n', []⟩ = Option.none)
    (hplain : ∀ x ∈ pre ++ l :: (mid ++ l' :: post), '\n' ∉ x) (hpre : Quiet a pre (ofLines (l :: (mid ++ l' :: post))))
    (hl : ∀ b, AtBol b → ∃ d, a.matchAt ⟨b, l ++ '\n' :: ofLines (mid ++ l' :: post)⟩ = some (d, s) ∧
      (ofLines (l' :: post)).length ≤ d.rest.length)
    (hmid : Quiet a mid (ofLines (l' :: post)))
    (hl' : ∀ b, AtBol b → ∃ d, a.matchAt ⟨b, l' ++ '\n' :: ofLines post⟩ = some (d, s')) (hpost : Quiet a post []) :
    a.finditer (ofLines (pre ++ l :: (mid ++ l' :: post))) = [s, s'] := by
  obtain ⟨b, hstarts⟩ := blockStarts_append pre (l :: (mid ++ l' :: post)) [] none
  obtain ⟨b', hstarts'⟩ := blockStarts_append mid (l' :: post) [] (some '\n')
  have hall := starts_ofLines (by simp) hplain
  rw [hstarts, blockStarts, hstarts', List.append_assoc, List.cons_append, List.append_assoc] at hall
  have hbols := atBol_blockStarts atBol_none (pre ++ l :: (mid ++ l' :: post)) []
  have hb : AtBol b := by
    refine hbols ⟨b, ofLines (l :: (mid ++ l' :: post)) ++ []⟩ ?_
    rw [hstarts]
    exact List.mem_append_right _ List.mem_cons_self
  have hb' : AtBol b' := by
    refine hbols ⟨b', ofLines (l' :: post) ++ []⟩ ?_
    rw [hstarts, blockStarts, hstarts']
    exact List.mem_append_right _ (List.mem_cons_of_mem _ (List.mem_append_right _ List.mem_cons_self))
  obtain ⟨d, hm, hlong⟩ := hl b hb
  obtain ⟨d', hm'⟩ := hl' b' hb'
  have htarget : a.matchAt ⟨b, ofLines (l :: (mid ++ l' :: post)) ++ []⟩ = some (d, s) := by
    rw [List.append_nil, ofLines_cons]
    exact hm
  have htarget' : a.matchAt ⟨b', ofLines (l' :: post) ++ []⟩ = some (d', s') := by
    rw [List.append_nil, ofLines_cons]
    exact hm'
  refine finditer_two ha hall (fun e he => hpre none e ?_) htarget (fun e he => hmid (some '\n') e ?_) htarget'
    (fun e he => ?_) ?_ ?_
  · rw [List.append_nil] at he
    exact he
  · rw [List.append_nil] at he
    exact he
  · rcases List.mem_append.1 he with he | he
    · exact hpost _ e he
    · rw [List.mem_singleton.1 he]
      exact hend
  · rw [List.append_nil]
    exact hlong
  · simp only [ofLines_cons, ofLines_append, List.length_append, List.length_cons]
    omega

end Lines

end Pattern
