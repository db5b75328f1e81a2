import Mathlib.Data.List.Basic
import Mathlib.Order.WellFounded
/-!
# Trace — runs of a step function and what they preserve

A system is a step function `step : σ → α → Option σ`: an action that is not enabled has no step.  `run` is the state a
list of actions leads to.  `Every C s as` says that each action of the run from `s` meets the condition `C` at the state
it is taken in.  The three rules the developments use are the invariant rule (`run_preserves`), its form for runs whose
steps meet a condition (`run_preserves_of_every`), and the rule for a relation closed under composition (`run_relates`).
-/
namespace Trace

variable {σ α : Type} {step : σ → α → Option σ}

/-- The state a list of actions leads to, if every one of them is enabled. -/
def run (step : σ → α → Option σ) : σ → List α → Option σ
  | s, []      => some s
  | s, a :: as => (step s a).bind (fun s' => run step s' as)

/-- Each action of the run from `s` meets `C` at the state it is taken in. -/
def Every (step : σ → α → Option σ) (C : σ → α → Prop) : σ → List α → Prop
  | _, []      => True
  | s, a :: as => C s a ∧ ∀ s', step s a = some s' → Every step C s' as

@[simp] theorem run_nil (s : σ) : run step s [] = some s := rfl

theorem run_cons {s s' : σ} {a : α} {as : List α} :
    run step s (a :: as) = some s' ↔ ∃ m, step s a = some m ∧ run step m as = some s' := by
  simp [run, Option.bind_eq_some_iff]

theorem run_append {s s' : σ} : ∀ {as bs : List α},
    run step s (as ++ bs) = some s' ↔ ∃ m, run step s as = some m ∧ run step m bs = some s'
  | [], bs => by simp
  | a :: as, bs => by
    rw [List.cons_append, run_cons]
    constructor
    · rintro ⟨m, hm, h⟩
      obtain ⟨n, hn, h'⟩ := run_append.1 h
      exact ⟨n, run_cons.2 ⟨m, hm, hn⟩, h'⟩
    · rintro ⟨n, hn, h'⟩
      obtain ⟨m, hm, h⟩ := run_cons.1 hn
      exact ⟨m, hm, run_append.2 ⟨n, h, h'⟩⟩

/-- **What holds of every action of a run, read at one of them.** -/
theorem every_iff_forall_split {C : σ → α → Prop} : ∀ {as : List α} {s : σ},
    Every step C s as ↔ ∀ pre a post m, as = pre ++ a :: post → run step s pre = some m → C m a
  | [], s => by simp [Every]
  | a :: as, s => by
    constructor
    · rintro ⟨hc, h⟩ pre b post m hs hm
      cases pre with
      | nil =>
        simp only [List.nil_append, List.cons.injEq] at hs
        obtain ⟨rfl, rfl⟩ := hs
        cases hm
        exact hc
      | cons x pre =>
        simp only [List.cons_append, List.cons.injEq] at hs
        obtain ⟨rfl, rfl⟩ := hs
        obtain ⟨n, hn, hm⟩ := run_cons.1 hm
        exact every_iff_forall_split.1 (h n hn) pre b post m rfl hm
    · intro h
      refine ⟨h [] a as s rfl rfl, fun s' hs' => every_iff_forall_split.2 ?_⟩
      intro pre b post m hs hm
      exact h (a :: pre) b post m (by rw [hs]; rfl) (run_cons.2 ⟨s', hs', hm⟩)

instance Every.decidable {C : σ → α → Prop} [hd : ∀ s a, Decidable (C s a)] : ∀ (s : σ) (as : List α),
    Decidable (Every step C s as)
  | _, []      => isTrue trivial
  | s, a :: as =>
    match h : step s a with
    | none    => decidable_of_iff (C s a) ⟨fun hc => ⟨hc, fun s' hs' => by rw [h] at hs'; cases hs'⟩, fun he => he.1⟩
    | some s' =>
      have : Decidable (Every step C s' as) := Every.decidable s' as
      decidable_of_iff (C s a ∧ Every step C s' as)
        ⟨fun he => ⟨he.1, fun m hm => by rw [h] at hm; cases hm; exact he.2⟩, fun he => ⟨he.1, he.2 s' h⟩⟩

theorem Every.mono {C D : σ → α → Prop} (hcd : ∀ s a, C s a → D s a) : ∀ {as : List α} {s : σ},
    Every step C s as → Every step D s as
  | [], _, _ => trivial
  | _ :: _, _, ⟨hc, h⟩ => ⟨hcd _ _ hc, fun s' hs' => Every.mono hcd (h s' hs')⟩

theorem every_and {C D : σ → α → Prop} {as : List α} {s : σ} (hc : Every step C s as) (hd : Every step D s as) :
    Every step (fun m a => C m a ∧ D m a) s as := by
  rw [every_iff_forall_split] at hc hd ⊢
  exact fun pre a post m hs hm => ⟨hc pre a post m hs hm, hd pre a post m hs hm⟩

theorem every_append {C : σ → α → Prop} : ∀ {as bs : List α} {s : σ},
    Every step C s (as ++ bs) ↔ Every step C s as ∧ ∀ m, run step s as = some m → Every step C m bs
  | [], bs, s => by simp [Every]
  | a :: as, bs, s => by
    simp only [List.cons_append, Every]
    constructor
    · rintro ⟨hc, h⟩
      refine ⟨⟨hc, fun s' hs' => (every_append.1 (h s' hs')).1⟩, fun m hm => ?_⟩
      obtain ⟨n, hn, hm⟩ := run_cons.1 hm
      exact (every_append.1 (h n hn)).2 m hm
    · rintro ⟨⟨hc, h⟩, hb⟩
      refine ⟨hc, fun s' hs' => every_append.2 ⟨h s' hs', fun m hm => hb m (run_cons.2 ⟨s', hs', hm⟩)⟩⟩

/-- How many actions of the run from `s` are events, at the states they are taken in. -/
def count (step : σ → α → Option σ) (event : σ → α → Bool) : σ → List α → Nat
  | _, []      => 0
  | s, a :: as => (if event s a then 1 else 0) + ((step s a).map (fun s' => count step event s' as)).getD 0

theorem count_eq_zero {event : σ → α → Bool} {Q : σ → Prop} (hstep : ∀ s a s', Q s → step s a = some s' → Q s')
    (hevent : ∀ s a, Q s → event s a = false) : ∀ {as : List α} {s : σ}, Q s → count step event s as = 0
  | [], _, _ => rfl
  | a :: as, s, hq => by
    simp only [count, hevent s a hq, Bool.false_eq_true, if_false, Nat.zero_add]
    cases h : step s a with
    | none => rfl
    | some s' => exact count_eq_zero hstep hevent (hstep s a s' hq h)

/-- **An event happens at most once in a run** where it leaves a state in which it can never happen again. -/
theorem count_le_one {event : σ → α → Bool} {P Q : σ → Prop} (hP : ∀ s a s', P s → step s a = some s' → P s')
    (hQ : ∀ s a s', P s → Q s → step s a = some s' → Q s') (hQevent : ∀ s a, Q s → event s a = false)
    (hevent : ∀ s a s', P s → event s a = true → step s a = some s' → Q s') : ∀ {as : List α} {s : σ}, P s →
    count step event s as ≤ 1
  | [], _, _ => Nat.zero_le 1
  | a :: as, s, hp => by
    cases h : step s a with
    | none =>
      simp only [count, h, Option.map_none, Option.getD_none, Nat.add_zero]
      split <;> omega
    | some s' =>
      have hrest : count step event s' as ≤ 1 := count_le_one hP hQ hQevent hevent (hP s a s' hp h)
      simp only [count, h, Option.map_some, Option.getD_some]
      by_cases he : event s a = true
      · have hzero : count step event s' as = 0 :=
          count_eq_zero (Q := fun x => P x ∧ Q x) (fun x b y hx hy => ⟨hP x b y hx.1 hy, hQ x b y hx.1 hx.2 hy⟩)
            (fun x b hx => hQevent x b hx.2) ⟨hP s a s' hp h, hevent s a s' hp he h⟩
        rw [if_pos he]
        omega
      · rw [if_neg he, Nat.zero_add]
        exact hrest

/-- What the steps of the run from `s` note down, in their order. -/
def log {β : Type} (step : σ → α → Option σ) (note : σ → α → σ → List β) : σ → List α → List β
  | _, []      => []
  | s, a :: as => ((step s a).map (fun s' => note s a s' ++ log step note s' as)).getD []

/-- **The invariant rule for a state and what has been noted on the way to it.** -/
theorem run_logs {β : Type} {note : σ → α → σ → List β} {P : List β → σ → Prop}
    (hstep : ∀ l s a s', P l s → step s a = some s' → P (l ++ note s a s') s') : ∀ {as : List α} {l : List β} {s s' : σ},
    P l s → run step s as = some s' → P (l ++ log step note s as) s'
  | [], l, s, s', hp, h => by
    cases h
    simpa only [log, List.append_nil] using hp
  | a :: as, l, s, s', hp, h => by
    obtain ⟨m, hm, h⟩ := run_cons.1 h
    have hrest := run_logs hstep (hstep l s a m hp hm) h
    simp only [log, hm, Option.map_some, Option.getD_some]
    rwa [List.append_assoc] at hrest

/-- **The invariant rule for a state and what has been noted on the way to it, where the steps meet a condition.** -/
theorem run_logs_of_every {β : Type} {f : σ → α → σ → List β} {P : List β → σ → Prop} {C : σ → α → Prop}
    (hstep : ∀ l s a s', P l s → C s a → step s a = some s' → P (l ++ f s a s') s') : ∀ {as : List α} {l : List β}
    {s s' : σ}, P l s → Every step C s as → run step s as = some s' → P (l ++ log step f s as) s'
  | [], l, s, s', hp, _, h => by
    cases h
    simpa only [log, List.append_nil] using hp
  | a :: as, l, s, s', hp, hc, h => by
    obtain ⟨m, hm, h⟩ := run_cons.1 h
    have hrest := run_logs_of_every hstep (hstep l s a m hp hc.1 hm) (hc.2 m hm) h
    simp only [log, hm, Option.map_some, Option.getD_some]
    rwa [List.append_assoc] at hrest

/-- **The invariant rule for runs whose steps meet a condition.** -/
theorem run_preserves_of_every {P : σ → Prop} {C : σ → α → Prop}
    (hstep : ∀ s a s', P s → C s a → step s a = some s' → P s') : ∀ {as : List α} {s s' : σ},
    P s → Every step C s as → run step s as = some s' → P s'
  | [], _, _, hp, _, h => by cases h; exact hp
  | _ :: _, s, s', hp, hc, h => by
    obtain ⟨m, hm, h⟩ := run_cons.1 h
    exact run_preserves_of_every hstep (hstep s _ m hp hc.1 hm) (hc.2 m hm) h

/-- **The invariant rule.** -/
theorem run_preserves {P : σ → Prop} (hstep : ∀ s a s', P s → step s a = some s' → P s') {as : List α} {s s' : σ}
    (hp : P s) (h : run step s as = some s') : P s' :=
  run_preserves_of_every (C := fun _ _ => True) (fun s a s' hs _ => hstep s a s' hs) hp
    (every_iff_forall_split.2 (fun _ _ _ _ _ _ => trivial)) h

/-- **What an invariant and the condition of a run give of each of its steps.** -/
theorem every_of_inv {P : σ → Prop} {C D : σ → α → Prop} (hstep : ∀ s a s', P s → C s a → step s a = some s' → P s')
    (hd : ∀ s a, P s → C s a → D s a) : ∀ {as : List α} {s : σ}, P s → Every step C s as → Every step D s as
  | [], _, _, _ => trivial
  | a :: _, s, hp, hc => ⟨hd s a hp hc.1, fun s' hs' => every_of_inv hstep hd (hstep s a s' hp hc.1 hs') (hc.2 s' hs')⟩

/-- **`J` holds in every state of a run exactly where every step meets `C`**, where `C` says when a step keeps it. -/
theorem always_iff_every {P J : σ → Prop} {C D : σ → α → Prop} (hstep : ∀ s a s', P s → D s a → step s a = some s' → P s')
    (hiff : ∀ s a, P s → D s a → J s → ((∀ s', step s a = some s' → J s') ↔ C s a)) : ∀ {as : List α} {s : σ},
    P s → J s → Every step D s as →
      ((∀ pre post m, as = pre ++ post → run step s pre = some m → J m) ↔ Every step C s as)
  | [], s, _, hj, _ => by
    refine iff_of_true (fun pre post m hs hm => ?_) trivial
    obtain ⟨rfl, -⟩ := List.append_eq_nil_iff.1 hs.symm
    cases hm
    exact hj
  | a :: as, s, hp, hj, hd => by
    have hnext : ∀ s', step s a = some s' → J s' →
        ((∀ pre post m, as = pre ++ post → run step s' pre = some m → J m) ↔ Every step C s' as) :=
      fun s' hs' hj' => always_iff_every hstep hiff (hstep s a s' hp hd.1 hs') hj' (hd.2 s' hs')
    constructor
    · intro h
      have hfirst : ∀ s', step s a = some s' → J s' := fun s' hs' => h [a] as s' rfl (run_cons.2 ⟨s', hs', rfl⟩)
      refine ⟨(hiff s a hp hd.1 hj).1 hfirst, fun s' hs' => (hnext s' hs' (hfirst s' hs')).1 ?_⟩
      exact fun pre post m hs hm => h (a :: pre) post m (by rw [hs]; rfl) (run_cons.2 ⟨s', hs', hm⟩)
    · rintro ⟨hc, h⟩ pre post m hs hm
      cases pre with
      | nil =>
        cases hm
        exact hj
      | cons b pre =>
        obtain ⟨rfl, rfl⟩ := List.cons.inj hs
        obtain ⟨n, hn, hm⟩ := run_cons.1 hm
        exact (hnext n hn ((hiff s a hp hd.1 hj).2 hc n hn)).2 (h n hn) pre post m rfl hm

/-- **A run ends alive exactly where none of its steps is a fatal one**, where nothing comes back to life. -/
theorem alive_iff_every {I A : σ → Prop} {F : σ → α → Prop} (hI : ∀ s a s', I s → step s a = some s' → I s')
    (hfatal : ∀ s a s', I s → A s → step s a = some s' → (A s' ↔ ¬F s a))
    (hdead : ∀ s a s', I s → ¬A s → step s a = some s' → ¬A s') : ∀ {as : List α} {s s' : σ},
    I s → A s → run step s as = some s' → (A s' ↔ Every step (fun m a => ¬F m a) s as)
  | [], _, _, _, ha, h => by
    cases h
    exact iff_of_true ha trivial
  | a :: as, s, s', hi, ha, h => by
    obtain ⟨m, hm, h⟩ := run_cons.1 h
    have hstep := hfatal s a m hi ha hm
    by_cases halive : A m
    · rw [alive_iff_every hI hfatal hdead (hI s a m hi hm) halive h]
      refine ⟨fun he => ⟨hstep.1 halive, fun n hn => ?_⟩, fun he => he.2 m hm⟩
      rw [hm] at hn
      cases hn
      exact he
    · have hend : I s' ∧ ¬A s' :=
        run_preserves (P := fun x => I x ∧ ¬A x) (fun x b y hx hy => ⟨hI x b y hx.1 hy, hdead x b y hx.1 hx.2 hy⟩)
          ⟨hI s a m hi hm, halive⟩ h
      exact iff_of_false hend.2 (fun he => halive (hstep.2 he.1))

/-- **A relation that every step is in and that composes relates the ends of a run.** -/
theorem run_relates {R : σ → σ → Prop} (hrefl : ∀ s, R s s) (htrans : ∀ {a b c}, R a b → R b c → R a c)
    {C : σ → α → Prop} (hstep : ∀ s a s', C s a → step s a = some s' → R s s') : ∀ {as : List α} {s s' : σ},
    Every step C s as → run step s as = some s' → R s s'
  | [], s, _, _, h => by cases h; exact hrefl s
  | _ :: _, s, s', hc, h => by
    obtain ⟨m, hm, h⟩ := run_cons.1 h
    exact htrans (hstep s _ m hc.1 hm) (run_relates hrefl htrans hstep (hc.2 m hm) h)

/-- **Events that each lower a rank that nothing raises come to an end**, in an infinite run as well. -/
theorem eventually_none {β : Type} [Preorder β] [WellFoundedLT β] (rank : σ → β) (event : σ → α → Prop) {f : ℕ → σ}
    {g : ℕ → α}
    (hle : ∀ n, rank (f (n + 1)) ≤ rank (f n)) (hlt : ∀ n, event (f n) (g n) → rank (f (n + 1)) < rank (f n)) :
    ∃ N, ∀ n, N ≤ n → ¬event (f n) (g n) := by
  induction hr : rank (f 0) using WellFoundedLT.induction generalizing f g with
  | ind r ih =>
    by_cases hn : ∃ n, event (f n) (g n)
    · obtain ⟨n, hn⟩ := hn
      have hstart : ∀ m, rank (f m) ≤ rank (f 0) := by
        intro m
        induction m with
        | zero => exact le_rfl
        | succ m hm => exact (hle m).trans hm
      have hdown : rank (f (n + 1)) < r := by
        rw [← hr]
        exact (hlt n hn).trans_le (hstart n)
      obtain ⟨N, hN⟩ := ih _ hdown (f := fun m => f (n + 1 + m)) (g := fun m => g (n + 1 + m))
        (fun m => hle (n + 1 + m)) (fun m => hlt (n + 1 + m)) rfl
      refine ⟨n + 1 + N, fun m hm => ?_⟩
      have hlater := hN (m - (n + 1)) (by omega)
      rwa [show n + 1 + (m - (n + 1)) = m by omega] at hlater
    · exact ⟨0, fun m _ hm => hn ⟨m, hm⟩⟩

end Trace
