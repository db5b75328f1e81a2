import EdaLab.Abandoned
import EdaLab.DrainAccount
/-!
# DrainOutcome — how a drain ends

A drain that has not ended can take a step or waits for an execution it started; without claims its steps come to an end.
So it returns, and what it returns is read off its books (`drain_accounts_iff`).
-/
namespace EdaLab

section Outcome

variable {cfg : Config} {s s' : Sys} {a : Act} {p svc : Nat} {l : List DrainEvent} {d d' : Drain} {pc pc' : DrainPc}

/-! ## Progress -/

/-- What a drain relies on where it is. -/
structure DrainReady (s : Sys) (svc : Nat) (d : Drain) (pc : DrainPc) : Prop where
  scanning : ∀ r, pc = .recovering r → r.ended = false
  owned    : pc = .capacity → (s.owners svc).isSome = true
  full     : pc = .wait → d.concurrency ≤ d.active.length

theorem ofRecover_scanning {r r' : RecoverPc} (h : DrainPc.ofRecover r = .recovering r') : r'.ended = false := by
  cases r <;> cases h <;> rfl

theorem ofRecover_ready (r : RecoverPc) : DrainReady s svc d (.ofRecover r) :=
  ⟨fun _ h => ofRecover_scanning h, fun h => (by cases r <;> cases h), fun h => (by cases r <;> cases h)⟩

theorem DrainPc.resume_ready {owner : Option ExecutionOwner} {locked : List String} {op : StoreOp} {sv : Service}
    (hop : pc.op sv owner locked = some op) (child : Option Child) (reply : Reply) :
    DrainReady s svc d (pc.resume sv child reply d) := by
  cases pc with
  | recovering r => exact ofRecover_ready _
  | releaseTerminal => exact ⟨by simp [DrainPc.resume], by simp [DrainPc.resume], by simp [DrainPc.resume]⟩
  | capacity =>
    simp only [DrainPc.resume]
    split
    · split <;> exact ⟨by simp, by simp, by simp⟩
    · exact ⟨by simp, by simp, by simp⟩
  | claim =>
    simp only [DrainPc.resume]
    split <;> exact ⟨by simp, by simp, by simp⟩
  | _ => cases hop

theorem DrainPc.advance_ready {live : String → Bool} {clock : Time} {observed : Nat → Option (Nat × Option String)}
    {result : Nat → Option FutureResult} {k : Nat} {fresh : String} {inp : Input} {sv : Service} {eff : Effect}
    (hadv : pc.advance sv (s.owners svc) live clock observed result k fresh inp d = some (d', pc', eff)) :
    DrainReady s svc d' pc' := by
  cases pc with
  | enter =>
    simp only [DrainPc.advance] at hadv
    cases hadv
    split
    · exact ⟨by simp, by simp, by simp⟩
    · exact ⟨fun r h => (by cases h; rfl), by simp, by simp⟩
  | recovering r =>
    obtain ⟨r', -, hr'⟩ := Option.map_eq_some_iff.1 hadv
    cases hr'
    exact ofRecover_ready r'
  | loop =>
    simp only [DrainPc.advance] at hadv
    split at hadv
    · cases hadv
      split
      · rename_i hsup
        exact ⟨by simp, fun _ => hsup.2, by simp⟩
      · exact ⟨by simp, by simp, by simp⟩
    · cases hadv
      exact ⟨by simp, by simp, by simp⟩
  | slots =>
    simp only [DrainPc.advance] at hadv
    cases hadv
    split
    · rename_i hfull
      exact ⟨by simp, by simp, fun _ => hfull⟩
    · exact ⟨by simp, by simp, by simp⟩
  | wait =>
    simp only [DrainPc.advance] at hadv
    split at hadv <;> cases hadv
    exact ⟨by simp, by simp, by simp⟩
  | dispatch spec =>
    cases hadv
    exact ⟨by simp, by simp, by simp⟩
  | collect rest =>
    cases rest with
    | nil =>
      cases hadv
      exact ⟨by simp, by simp, by simp⟩
    | cons f rest =>
      simp only [DrainPc.advance] at hadv
      split at hadv <;> cases hadv <;> exact ⟨by simp, by simp, by simp⟩
  | _ => cases hadv

theorem DrainReady.later (h : DrainReady s svc d pc) (hstep : Sys.step cfg s a = some s') : DrainReady s' svc d pc := by
  refine ⟨h.scanning, fun hpc => ?_, h.full⟩
  have howned := h.owned hpc
  rw [Option.isSome_iff_ne_none] at howned ⊢
  exact fun hnone => howned (owners_after hstep hnone)

theorem DrainReady.move (h : DrainReady s svc d pc) (hmove : DrainMove cfg s a s' p svc d pc d' pc')
    (hstep : Sys.step cfg s a = some s') :
    DrainReady s' svc d' pc' := by
  cases hmove with
  | idle => exact h.later hstep
  | called fresh locked op child _ _ hop => exact (DrainPc.resume_ready hop child _).later hstep
  | advanced k fresh inp _ _ eff _ hadv => exact (DrainPc.advance_ready hadv).later hstep

/-- The threads of a run are finitely many. -/
theorem exists_free {acts : List Act} (h : Trace.run (Sys.step cfg) Sys.init acts = some s) :
    ∃ n, ∀ q, n ≤ q → (s.threads q).isNone = true := by
  refine Trace.run_preserves (P := fun m => ∃ n, ∀ q, n ≤ q → (m.threads q).isNone = true) ?_ ⟨0, fun q _ => rfl⟩ h
  rintro m act m' ⟨n, hn⟩ hstep
  -- no thread beyond these and the ones the action names
  refine ⟨max n (match act with
    | .start i _       => i + 1
    | .advance _ k _ _ => k + 1
    | _                => 0), fun q hq => ?_⟩
  have hnone := hn q (le_trans (le_max_left _ _) hq)
  cases thread_after q hstep with
  | same heq => rw [heq]; exact hnone
  | entered th hact =>
    subst hact
    have hle := le_trans (le_max_right _ _) hq
    simp only at hle
    omega
  | called fresh locked op _ hcall =>
    have hop := hcall.is_op
    cases hth : m.threads q with
    | none => rw [hth] at hop; cases hop
    | _ => rw [hth] at hnone; cases hnone
  | advanced k fresh inp th eff _ hadv =>
    rw [(Thread.advance_isNone hadv.advance_eq).1] at hnone
    cases hnone
  | executed i fresh inp th spec v hact =>
    subst hact
    have hle := le_trans (le_max_right _ _) hq
    simp only at hle
    omega
  | beat i fresh inp th b run hact =>
    subst hact
    have hle := le_trans (le_max_right _ _) hq
    simp only at hle
    omega
  | cancelled _ _ hpend => rw [hpend] at hnone; cases hnone

theorem drain_calls (locked : List String) {op : StoreOp} (hd : (s.threads p).drainOf = some (svc, d, pc))
    (hop : pc.op (cfg.service svc) (s.owners svc) locked = some op) : ∃ a s', a.Of p ∧ Sys.step cfg s a = some s' := by
  obtain ⟨fresh, hfresh⟩ := s.exists_fresh
  have hthread : (s.threads p).op cfg s locked = some op := by
    cases hth : s.threads p with
    | drain v d₀ pc₀ =>
      rw [hth] at hd
      cases hd
      exact hop
    | agent v self d₀ pc₀ =>
      rw [hth] at hd
      cases pc₀ with
      | drain pc₁ =>
        cases hd
        exact hop
      | _ => cases hd
    | _ => rw [hth] at hd; cases hd
  obtain ⟨s', hs'⟩ := Option.isSome_iff_exists.1 (Sys.call_isSome_iff.2 ⟨⟨op, hthread⟩, hfresh⟩)
  exact ⟨.call p fresh locked, s', Or.inl ⟨fresh, locked, rfl⟩, hs'⟩

theorem drain_advances (inp : Input) {k : Nat} {eff : Effect} (hd : (s.threads p).drainOf = some (svc, d, pc))
    (hadv : ∀ fresh, ∃ d' pc', pc.advance (cfg.service svc) (s.owners svc)
      (s.live svc) s.clock s.observed s.result k fresh inp
      d = some (d', pc', eff)) (heff : eff = .none ∨ ∃ spec, eff = .execute spec) (hk : (s.threads k).isNone = true) :
    ∃ a s', a.Of p ∧ Sys.step cfg s a = some s' := by
  obtain ⟨fresh, hfresh⟩ := s.exists_fresh
  obtain ⟨d', pc', hpc⟩ := hadv fresh
  have hthread : ∃ th, (s.threads p).advance cfg s k fresh inp = some (th, eff) ∧ th.service = some svc := by
    cases hth : s.threads p with
    | drain v d₀ pc₀ =>
      rw [hth] at hd
      cases hd
      exact ⟨.drain svc d' pc', by simp only [Thread.advance, hpc, Option.map_some], rfl⟩
    | agent v self d₀ pc₀ =>
      rw [hth] at hd
      cases pc₀ with
      | drain pc₁ =>
        cases hd
        exact ⟨.agent svc self d' (.drain pc'), by simp only [Thread.advance, AgentPc.advance, hpc, Option.map_some], rfl⟩
      | _ => cases hd
    | _ => rw [hth] at hd; cases hd
  obtain ⟨th, hth, hservice⟩ := hthread
  have hne : k ≠ p := by
    rintro rfl
    rw [(Thread.advance_isNone hth).1] at hk
    cases hk
  have happly : ∃ s', (s.put p fresh th).apply cfg p k th eff = some s' := by
    rcases heff with rfl | ⟨spec, rfl⟩
    · exact ⟨_, rfl⟩
    · have hnone : ((s.put p fresh th).threads k).isNone = true := by
        simp only [Sys.put, Function.update_of_ne hne]
        exact hk
      simp only [Sys.apply, hservice, hnone, if_true]
      exact ⟨_, rfl⟩
  obtain ⟨s', hs'⟩ := happly
  refine ⟨.advance p k fresh inp, s', Or.inr ⟨k, fresh, inp, rfl⟩, ?_⟩
  simp only [Sys.step, Sys.proceed, hth, hfresh, if_true]
  exact hs'

/-- **A drain that has not ended can go on, or waits for an execution it started.** -/
theorem drain_next (hd : (s.threads p).drainOf = some (svc, d, pc)) (hready : DrainReady s svc d pc)
    (hbooks : pc ≠ .raised → Books l s d pc) (hconc : 1 ≤ d.concurrency) 
    (hfree : ∃ n, ∀ q, n ≤ q → (s.threads q).isNone = true)
    (hend : pc.ended = false) :
    (∃ a s', a.Of p ∧ Sys.step cfg s a = some s') ∨ ∃ f ∈ startsOf l, s.result f.1 = none := by
  obtain ⟨n, hn⟩ := hfree
  have hk := hn n le_rfl
  have hlisted : ∀ f ∈ pc.uncollected d, f ∈ startsOf l := by
    intro f hf
    have hne : pc ≠ .raised := by
      rintro rfl
      cases hend
    obtain ⟨fin, hperm, -, -⟩ := (hbooks hne).balance
    exact hperm.mem_iff.2 (List.mem_append_right _ hf)
  cases pc with
  | enter => exact Or.inl (drain_advances .go hd (fun _ => ⟨_, _, rfl⟩) (Or.inl rfl) hk)
  | recovering r =>
    rcases RecoverPc.quiet_enabled (cfg.service svc) (hready.scanning r rfl) with ⟨op, hop⟩ | ⟨inp, -, hadv⟩
    · exact Or.inl (drain_calls [] hd hop)
    · refine Or.inl (drain_advances inp hd (fun fresh => ?_) (Or.inl rfl) hk)
      obtain ⟨r', hr', -⟩ := hadv (s.owners svc) (s.live svc) s.clock s.observed fresh
      exact ⟨d, .ofRecover r', by simp only [DrainPc.advance, hr', Option.map_some]⟩
  | releaseTerminal => exact Or.inl (drain_calls [] hd rfl)
  | loop =>
    refine Or.inl (drain_advances .go hd (fun _ => ?_) (Or.inl rfl) hk)
    simp only [DrainPc.advance]
    split
    · exact ⟨_, _, rfl⟩
    · exact ⟨_, _, rfl⟩
  | capacity =>
    obtain ⟨o, ho⟩ := Option.isSome_iff_exists.1 (hready.owned rfl)
    have hop : DrainPc.capacity.op (cfg.service svc) (s.owners svc) [] = some (.countActiveExecutionRequests o.hostId) := by
      rw [ho]
      rfl
    exact Or.inl (drain_calls [] hd hop)
  | slots => exact Or.inl (drain_advances .go hd (fun _ => ⟨_, _, rfl⟩) (Or.inl rfl) hk)
  | wait =>
    by_cases hany : d.active.any (fun f => (s.result f.1).isSome) = true
    · refine Or.inl (drain_advances .go hd (fun _ => ?_) (Or.inl rfl) hk)
      simp only [DrainPc.advance, hany, if_true]
      exact ⟨_, _, rfl⟩
    · -- none of the futures has ended, and there is one
      right
      have hfull := hready.full rfl
      obtain ⟨f, hf⟩ := List.exists_mem_of_length_pos (l := d.active) (by omega)
      refine ⟨f, hlisted f hf, ?_⟩
      rw [List.any_eq_true, not_exists] at hany
      have hnone := hany f
      simpa [hf] using hnone
  | claim => exact Or.inl (drain_calls [] hd rfl)
  | dispatch spec => exact Or.inl (drain_advances .go hd (fun _ => ⟨_, _, rfl⟩) (Or.inr ⟨spec, rfl⟩) hk)
  | collect rest =>
    cases rest with
    | nil => exact Or.inl (drain_advances .go hd (fun _ => ⟨_, _, rfl⟩) (Or.inl rfl) hk)
    | cons f rest =>
      cases hresult : s.result f.1 with
      | none => exact Or.inr ⟨f, hlisted f List.mem_cons_self, hresult⟩
      | some r =>
        refine Or.inl (drain_advances .go hd (fun _ => ?_) (Or.inl rfl) hk)
        simp only [DrainPc.advance, hresult]
        cases r with
        | value => exact ⟨_, _, rfl⟩
        | error => exact ⟨_, _, rfl⟩
  | returned => cases hend
  | raised => cases hend

/-! ## An end of the steps -/

namespace DrainPc

/-- How far a drain is from its loop, and in the loop from its end. -/
def stage : DrainPc → Nat
  | enter           => 4
  | recovering _    => 3
  | releaseTerminal => 2
  | collect _       => 0
  | returned        => 0
  | raised          => 0
  | _               => 1

/-- The work left at a stage: every round of the loop that claims nothing takes a future off the list. -/
def work (d : Drain) : DrainPc → ℕ ×ₗ ℕ
  | recovering r => r.left
  | dispatch _   => toLex (0, 4 * d.active.length + 8)
  | loop         => toLex (0, 4 * d.active.length + 3)
  | capacity     => toLex (0, 4 * d.active.length + 2)
  | slots        => toLex (0, 4 * d.active.length + 1)
  | collect rest => toLex (0, rest.length + 1)
  | wait         => toLex (0, 4 * d.active.length)
  | claim        => toLex (0, 4 * d.active.length)
  | _            => toLex (0, 0)

def left (d : Drain) (pc : DrainPc) : ℕ ×ₗ (ℕ ×ₗ ℕ) := toLex (pc.stage, pc.work d)

theorem left_of_stage (h : pc'.stage < pc.stage) : pc'.left d' < pc.left d := Prod.Lex.toLex_lt_toLex.2 (Or.inl h)

theorem left_of_work (hs : pc'.stage = pc.stage) (h : pc'.work d' < pc.work d) : pc'.left d' < pc.left d :=
  Prod.Lex.toLex_lt_toLex.2 (Or.inr ⟨hs, h⟩)

theorem work_lt {m n : ℕ} (h : m < n) : (toLex (0, m) : ℕ ×ₗ ℕ) < toLex (0, n) := Prod.Lex.toLex_lt_toLex.2 (Or.inr ⟨rfl, h⟩)

theorem ofRecover_left {r r' : RecoverPc} (h : r'.left < r.left) : (ofRecover r').left d' < (recovering r).left d := by
  cases r' with
  | returned report => exact left_of_stage (by simp [ofRecover, stage])
  | raised => exact left_of_stage (by simp [ofRecover, stage])
  | _ => exact left_of_work rfl h

/-- A reply takes a drain nearer its end, but where it is a claim. -/
theorem resume_left {owner : Option ExecutionOwner} {locked : List String} {op : StoreOp} {sv : Service}
    (hop : pc.op sv owner locked = some op) (child : Option Child) (reply : Reply)
    (hclaim : ∀ spec, pc.resume sv child reply d ≠ .dispatch spec) : (pc.resume sv child reply d).left d < pc.left d := by
  cases pc with
  | recovering r => exact ofRecover_left (RecoverPc.resume_left hop)
  | releaseTerminal => exact left_of_stage (by simp [resume, stage])
  | capacity =>
    simp only [resume]
    split
    · split
      · exact left_of_stage (by simp [stage])
      · exact left_of_work rfl (work_lt (by omega))
    · exact left_of_stage (by simp [stage])
  | claim =>
    simp only [resume] at hclaim ⊢
    split
    · rename_i spec
      exact absurd rfl (hclaim spec)
    · exact left_of_stage (by simp [stage])
  | _ => cases hop

/-- And so does a step that calls no store. -/
theorem advance_left {owner : Option ExecutionOwner} {live : String → Bool} {clock : Time}
    {observed : Nat → Option (Nat × Option String)} {result : Nat → Option FutureResult} {k : Nat} {fresh : String}
    {inp : Input} {sv : Service} {eff : Effect}
    (hadv : pc.advance sv owner live clock observed result k fresh inp d = some (d', pc', eff)) :
    pc'.left d' < pc.left d := by
  cases pc with
  | enter =>
    simp only [advance] at hadv
    cases hadv
    split <;> exact left_of_stage (by simp [stage])
  | recovering r =>
    obtain ⟨r', hr, hr'⟩ := Option.map_eq_some_iff.1 hadv
    cases hr'
    exact ofRecover_left (RecoverPc.advance_cases hr).left
  | loop =>
    simp only [advance] at hadv
    split at hadv
    · cases hadv
      split
      · exact left_of_work rfl (work_lt (by omega))
      · exact left_of_work rfl (work_lt (by omega))
    · cases hadv
      exact left_of_stage (by simp [stage])
  | slots =>
    simp only [advance] at hadv
    cases hadv
    split
    · exact left_of_work rfl (work_lt (by omega))
    · exact left_of_work rfl (work_lt (by omega))
  | wait =>
    simp only [advance] at hadv
    split at hadv
    · rename_i hany
      cases hadv
      refine left_of_work rfl (work_lt ?_)
      -- a future that has ended leaves the list
      obtain ⟨f, hf, hsome⟩ := List.any_eq_true.1 hany
      have hlt : (d.active.filter (fun f => (result f.1).isNone)).length < d.active.length := by
        refine List.length_filter_lt_length_iff_exists.2 ⟨f, hf, ?_⟩
        rw [Option.isNone_iff_eq_none]
        exact Option.isSome_iff_ne_none.1 hsome
      show 4 * (d.active.filter (fun f => (result f.1).isNone)).length + 3 < 4 * d.active.length
      omega
    · cases hadv
  | dispatch spec =>
    cases hadv
    refine left_of_work rfl (work_lt ?_)
    rw [List.length_append, List.length_singleton]
    omega
  | collect rest =>
    cases rest with
    | nil =>
      cases hadv
      exact left_of_work rfl (work_lt (by omega))
    | cons f rest =>
      simp only [advance] at hadv
      split at hadv
      · cases hadv
        refine left_of_work rfl (work_lt ?_)
        rw [List.length_cons]
        omega
      · cases hadv
        exact left_of_work rfl (work_lt (by omega))
      · cases hadv
  | _ => cases hadv

end DrainPc

/-- What is left of the drain that the thread is in. -/
def Sys.drainLeft (p : Nat) (s : Sys) : ℕ ×ₗ (ℕ ×ₗ ℕ) :=
  ((s.threads p).drainOf.map (fun x => x.2.2.left x.2.1)).getD (toLex (0, toLex (0, 0)))

theorem drainLeft_eq (hd : (s.threads p).drainOf = some (svc, d, pc)) : s.drainLeft p = pc.left d := by
  unfold Sys.drainLeft
  rw [hd]
  rfl

/-- The drain claims a Run in this step. -/
def Claiming (p : Nat) (s : Sys) (a : Act) (s' : Sys) : Prop := ∃ j, .claimed j ∈ drainEvents p s a s'

theorem DrainMove.left (h : DrainMove cfg s a s' p svc d pc d' pc') (hd : (s.threads p).drainOf = some (svc, d, pc))
    (hd' : (s'.threads p).drainOf = some (svc, d', pc')) (hclaim : ¬Claiming p s a s') :
    pc'.left d' ≤ pc.left d ∧ (a.Of p → pc'.left d' < pc.left d) := by
  cases h with
  | idle hother => exact ⟨le_rfl, fun hown => absurd hown hother⟩
  | called fresh locked op child _ _ hop =>
    have hno : ∀ spec, pc.resume (cfg.service svc) child (op.reply cfg.backend s.clock s.db) d ≠ .dispatch spec := by
      intro spec hspec
      rcases DrainPc.resume_dispatch hspec with rfl | ⟨rfl, -⟩
      · cases hop
      · refine hclaim ⟨spec.jobId, ?_⟩
        rw [drainEvents_claim hd hd', hspec]
        exact List.mem_cons_self
    have hlt := DrainPc.resume_left hop child _ hno
    exact ⟨hlt.le, fun _ => hlt⟩
  | advanced k fresh inp _ _ eff _ hadv =>
    have hlt := DrainPc.advance_left hadv
    exact ⟨hlt.le, fun _ => hlt⟩

/-- **A drain that claims nothing more comes to an end of its steps**, whatever runs beside it. -/
theorem drain_rests {f : ℕ → Sys} {g : ℕ → Act} (hd : ((f 0).threads p).drainOf = some (svc, d, pc))
    (hrun : ∀ n, Sys.step cfg (f n) (g n) = some (f (n + 1)))
    (hclaims : ∃ N, ∀ n, N ≤ n → ¬Claiming p (f n) (g n) (f (n + 1))) : ∃ N, ∀ n, N ≤ n → ¬(g n).Of p := by
  obtain ⟨N, hN⟩ := hclaims
  have hthread : ∀ n, ∃ d pc, ((f n).threads p).drainOf = some (svc, d, pc) := by
    intro n
    induction n with
    | zero => exact ⟨d, pc, hd⟩
    | succ n ih =>
      obtain ⟨d₁, pc₁, hd₁⟩ := ih
      obtain ⟨d₂, pc₂, hd₂, -⟩ := drain_move (hrun n) hd₁
      exact ⟨d₂, pc₂, hd₂⟩
  have hleft : ∀ n, N ≤ n → (f (n + 1)).drainLeft p ≤ (f n).drainLeft p ∧
      ((g n).Of p → (f (n + 1)).drainLeft p < (f n).drainLeft p) := by
    intro n hn
    obtain ⟨d₁, pc₁, hd₁⟩ := hthread n
    obtain ⟨d₂, pc₂, hd₂, hmove⟩ := drain_move (hrun n) hd₁
    rw [drainLeft_eq hd₁, drainLeft_eq hd₂]
    exact hmove.left hd₁ hd₂ (hN n hn)
  obtain ⟨M, hM⟩ := Trace.eventually_none (Sys.drainLeft p) (fun _ (a : Act) => a.Of p) (f := fun n => f (N + n))
    (g := fun n => g (N + n)) (fun n => (hleft (N + n) (by omega)).1) (fun n hown => (hleft (N + n) (by omega)).2 hown)
  refine ⟨N + M, fun n hn => ?_⟩
  have hlater := hM (n - N) (by omega)
  rwa [show N + (n - N) = n by omega] at hlater

/-! ## Claims are of different Runs -/

/-- The claims of the drain are among the claims of the system, each of which is of another Run. -/
structure ClaimsApart (cfg : Config) (l : List DrainEvent) (s : Sys) : Prop where
  queue  : QueueInv cfg s
  once   : s.history.claims.Nodup
  listed : (claimsOf l).Sublist s.history.claims

theorem claims_step (h : Sys.step cfg s a = some s') :
    s.history.claims.Sublist s'.history.claims := by
  rcases claims_after h with heq | ⟨j, r, -, -, -, heq⟩
  · rw [heq]
  · rw [heq]
    exact List.sublist_append_left _ _

/-- What a drain notes down holds at most one claim, which the system notes down too. -/
theorem claim_noted (hi : QueueInv cfg s) (hd : (s.threads p).drainOf = some (svc, d, pc))
    (hstep : Sys.step cfg s a = some s') : claimsOf (l ++ drainEvents p s a s') = claimsOf l ∨
      ∃ j, claimsOf (l ++ drainEvents p s a s') = claimsOf l ++ [j] ∧ s'.history.claims = s.history.claims ++ [j] := by
  obtain ⟨d', pc', hd', hmove⟩ := drain_move hstep hd
  by_cases hclaim : pc = .claim
  · subst hclaim
    rw [drainEvents_claim hd hd']
    by_cases hdispatch : ∃ spec, pc' = .dispatch spec
    · obtain ⟨spec, rfl⟩ := hdispatch
      refine Or.inr ⟨spec.jobId, claimsOf_claimed l spec.jobId, ?_⟩
      generalize hpc : DrainPc.dispatch spec = pc' at hmove
      cases hmove with
      | idle => cases hpc
      | advanced _ _ _ _ _ _ _ hadv => cases hadv
      | called fresh locked op child _ hcall hop =>
        cases hop
        rcases DrainPc.resume_dispatch hpc.symm with hnot | ⟨-, hreply⟩
        · cases hnot
        · obtain ⟨-, ⟨-, hnone⟩ | ⟨row, hnext, hspec, -⟩⟩ := claimNextRun_payload hreply
          · cases hnone
          · obtain ⟨hrow, -⟩ := PostgresStore.nextQueued_some hnext
            have hjob := hi.specs _ _ _ hrow hspec.symm
            rw [hcall.history_eq, hreply, Sys.historyAfter_payload, hnext, hjob]
            rfl
    · left
      rw [DrainPc.inHand_eq_nil (fun spec hspec => hdispatch ⟨spec, hspec⟩), List.map_nil, List.append_nil]
  · left
    by_cases hdispatch : ∃ spec, pc = .dispatch spec
    · obtain ⟨spec, rfl⟩ := hdispatch
      unfold drainEvents
      rw [hd]
      cases a with
      | advance q k fresh inp =>
        simp only
        split
        · exact claimsOf_started l k spec.jobId
        · rw [List.append_nil]
      | _ => simp only [List.append_nil]
    · rw [drainEvents_other hd hclaim (fun spec hspec => hdispatch ⟨spec, hspec⟩), List.append_nil]

theorem claimsApart_step (h : ClaimsApart cfg l s) (hd : (s.threads p).drainOf = some (svc, d, pc))
    (hstep : Sys.step cfg s a = some s') : ClaimsApart cfg (l ++ drainEvents p s a s') s' := by
  refine ⟨queueInv_step h.queue hstep, claims_nodup_step h.queue h.once hstep, ?_⟩
  rcases claim_noted h.queue hd hstep (l := l) with hsame | ⟨j, hmore, hclaims⟩
  · rw [hsame]
    exact h.listed.trans (claims_step hstep)
  · rw [hmore, hclaims]
    exact h.listed.append_right [j]

/-! ## A whole drain -/

/-- What a drain that has returned has made of its claims. -/
structure Settles (l : List DrainEvent) (s : Sys) (d : Drain) : Prop where
  started : claimsOf l = (startsOf l).map Prod.snd
  awaited : ∀ f ∈ startsOf l, (s.result f.1).isSome = true
  once    : ∀ j, d.completed.count j = if j ∈ claimsOf l then 1 else 0

theorem Books.settles (h : Books l s d .returned) (hapart : ClaimsApart cfg l s) : Settles l s d := by
  obtain ⟨fin, hperm, hcompleted, hfin⟩ := h.balance
  rw [show DrainPc.returned.uncollected d = [] from rfl, List.append_nil] at hperm
  have hstarted : claimsOf l = (startsOf l).map Prod.snd := by
    rw [h.claimed]
    exact List.append_nil _
  refine ⟨hstarted, fun f hf => hfin f (hperm.mem_iff.1 hf), fun j => ?_⟩
  have hlisted : d.completed.Perm (claimsOf l) := by
    rw [hstarted]
    exact hcompleted.trans (hperm.symm.map Prod.snd)
  have hnodup : (claimsOf l).Nodup := hapart.once.sublist hapart.listed
  rw [hlisted.count_eq]
  split
  · rename_i hmem
    exact List.count_eq_one_of_mem hnodup hmem
  · rename_i hmem
    exact List.count_eq_zero_of_not_mem hmem

section Entering

variable {maxJobs : Option Nat} {concurrency : Nat}

theorem books_enter (s : Sys) (maxJobs : Option Nat) (concurrency : Nat) :
    Books [] s ⟨maxJobs, concurrency, [], []⟩ .enter :=
  ⟨rfl, ⟨[], List.Perm.refl _, List.Perm.refl _, by simp⟩, fun m _ => Nat.zero_le m, Nat.zero_le _, le_rfl⟩

theorem accounted_enter (hd : (s.threads p).drainOf = some (svc, ⟨maxJobs, concurrency, [], []⟩, .enter)) :
    Accounted cfg p svc maxJobs concurrency [] s :=
  ⟨(books_enter s maxJobs concurrency).bounded, _, _, hd, rfl, rfl, fun _ => books_enter s maxJobs concurrency⟩

/-- With a bound on its claims a drain claims finitely often. -/
theorem claims_end {m : Nat} {f : ℕ → Sys} {g : ℕ → Act} (h : Accounted cfg p svc (some m) concurrency [] (f 0))
    (hrun : ∀ n, Sys.step cfg (f n) (g n) = some (f (n + 1))) :
    ∃ N, ∀ n, N ≤ n → ¬Claiming p (f n) (g n) (f (n + 1)) := by
  let events : ℕ → List DrainEvent := fun n => drainEvents p (f n) (g n) (f (n + 1))
  let noted : ℕ → List DrainEvent := fun n => (List.range n).flatMap events
  have hnext : ∀ n, noted (n + 1) = noted n ++ events n := by
    intro n
    simp only [noted, List.range_succ, List.flatMap_append, List.flatMap_singleton]
  have hacc : ∀ n, Accounted cfg p svc (some m) concurrency (noted n) (f n) := by
    intro n
    induction n with
    | zero => exact h
    | succ n ih =>
      rw [hnext n]
      exact accounted_step ih (hrun n)
  have hgrows : ∀ n, (claimsOf (noted (n + 1))).length = (claimsOf (noted n)).length + (claimsOf (events n)).length := by
    intro n
    rw [hnext n, claimsOf, List.filterMap_append, List.length_append]
    rfl
  refine Trace.eventually_none (fun n : ℕ => m - (claimsOf (noted n)).length)
    (fun n a => Claiming p (f n) a (f (n + 1))) (f := fun n => n) (g := g) (fun n => ?_) (fun n hclaim => ?_)
  · have hmore := hgrows n
    omega
  · obtain ⟨j, hj⟩ := hclaim
    have hmem : j ∈ claimsOf (events n) := List.mem_filterMap.2 ⟨_, hj, rfl⟩
    have hpos := List.length_pos_of_mem hmem
    have hmore := hgrows n
    have hbound := (hacc (n + 1)).bounded.claims m rfl
    omega

/-- A drain that no step aborted has not raised, and one that a step aborted has. -/
theorem drain_raised_run {acts : List Act} (hb : cfg.backend = .postgres) (hconc : 1 ≤ concurrency)
    (h : Accounted cfg p svc maxJobs concurrency l s) (hne : ∀ d, (s.threads p).drainOf ≠ some (svc, d, .raised))
    (hrun : Trace.run (Sys.step cfg) s acts = some s') :
    (∀ d, (s'.threads p).drainOf ≠ some (svc, d, .raised)) ↔
      Trace.Every (Sys.step cfg) (fun m act => ¬DrainAborts cfg p m act) s acts := by
  refine Trace.alive_iff_every (I := fun m => ∃ l, Accounted cfg p svc maxJobs concurrency l m)
    (A := fun m => ∀ d, (m.threads p).drainOf ≠ some (svc, d, .raised)) ?_ ?_ ?_ ⟨l, h⟩ hne hrun
  · rintro m act m' ⟨l, hacc⟩ hstep
    exact ⟨_, accounted_step hacc hstep⟩
  · rintro m act m' ⟨l, hacc⟩ halive hstep
    obtain ⟨d, pc, hd, -, rfl, -⟩ := hacc.books
    obtain ⟨d', pc', hd', hmove⟩ := drain_move hstep hd
    have hpc : pc ≠ .raised := by
      rintro rfl
      exact halive d hd
    rw [← drain_raises hb hd hconc hpc hmove, hd']
    simp
  · rintro m act m' - hdead hstep
    simp only [not_forall, not_not] at hdead ⊢
    obtain ⟨d, hd⟩ := hdead
    obtain ⟨d', pc', hd', hmove⟩ := drain_move hstep hd
    cases hmove with
    | idle => exact ⟨d, hd'⟩
    | called _ _ _ _ _ _ hop => cases hop
    | advanced _ _ _ _ _ _ _ hadv => cases hadv

end Entering

/-- What every run keeps of a drain that it finds entered. -/
theorem drain_kept {maxJobs : Option Nat} {concurrency : Nat} {acts pre : List Act}
    (hreach : Trace.run (Sys.step cfg) Sys.init pre = some s)
    (hd : (s.threads p).drainOf = some (svc, ⟨maxJobs, concurrency, [], []⟩, .enter))
    (hrun : Trace.run (Sys.step cfg) s acts = some s') :
    Accounted cfg p svc maxJobs concurrency (s.drainLog cfg p acts) s' ∧ ClaimsApart cfg (s.drainLog cfg p acts) s' ∧
      ∃ d pc, (s'.threads p).drainOf = some (svc, d, pc) ∧ DrainReady s' svc d pc := by
  have hqueue := queueInv_run (queueInv_init cfg) hreach
  have honce : s.history.claims.Nodup := by
    refine (Trace.run_preserves (P := fun m => QueueInv cfg m ∧ m.history.claims.Nodup) ?_
      ⟨queueInv_init cfg, List.nodup_nil⟩ hreach).2
    exact fun m act m' hm hstep => ⟨queueInv_step hm.1 hstep, claims_nodup_step hm.1 hm.2 hstep⟩
  have hready : DrainReady s svc ⟨maxJobs, concurrency, [], []⟩ .enter :=
    ⟨by simp, by simp, by simp⟩
  have hkeep : ∀ l m act m', (Accounted cfg p svc maxJobs concurrency l m ∧ ClaimsApart cfg l m ∧
        ∃ d pc, (m.threads p).drainOf = some (svc, d, pc) ∧ DrainReady m svc d pc) →
      Sys.step cfg m act = some m' →
      Accounted cfg p svc maxJobs concurrency (l ++ drainEvents p m act m') m' ∧
        ClaimsApart cfg (l ++ drainEvents p m act m') m' ∧
        ∃ d pc, (m'.threads p).drainOf = some (svc, d, pc) ∧ DrainReady m' svc d pc := by
    rintro l m act m' ⟨hacc, hapart, d, pc, hm, hready⟩ hstep
    obtain ⟨d', pc', hm', hmove⟩ := drain_move hstep hm
    exact ⟨accounted_step hacc hstep, claimsApart_step hapart hm hstep, d', pc', hm', hready.move hmove hstep⟩
  exact Trace.run_logs hkeep ⟨accounted_enter hd, ⟨hqueue, honce, List.nil_sublist _⟩, _, _, hd, hready⟩ hrun

end Outcome

/-- **A drain keeps to its bounds, and comes to return each Run it claimed exactly where no step aborts it**: its claims are
at most `max_jobs`, its unfinished executions at most `concurrency`, and until it has ended it can go on or waits for an
execution it started. -/
theorem drain_accounts_iff (cfg : Config) (hb : cfg.backend = .postgres) {pre : List Act} {s : Sys} {p svc concurrency : Nat}
    {maxJobs : Option Nat} (hreach : Trace.run (Sys.step cfg) Sys.init pre = some s)
    (hd : (s.threads p).drainOf = some (svc, ⟨maxJobs, concurrency, [], []⟩, .enter)) (hconc : 1 ≤ concurrency) :
    (∀ (f : ℕ → Sys) (g : ℕ → Act), f 0 = s → (∀ n, Sys.step cfg (f n) (g n) = some (f (n + 1))) →
      maxJobs ≠ none ∨ (∃ N, ∀ n, N ≤ n → ¬Claiming p (f n) (g n) (f (n + 1))) → ∃ N, ∀ n, N ≤ n → ¬(g n).Of p) ∧
    ∀ (acts : List Act) (s' : Sys), Trace.run (Sys.step cfg) s acts = some s' →
      Bounded maxJobs concurrency (s.drainLog cfg p acts) s' ∧
      ∃ d pc, (s'.threads p).drainOf = some (svc, d, pc) ∧
        (pc.ended = false → (∃ a s'', a.Of p ∧ Sys.step cfg s' a = some s'') ∨
          ∃ f ∈ startsOf (s.drainLog cfg p acts), s'.result f.1 = none) ∧
        (pc.ended = true → (pc = .returned ∧ Settles (s.drainLog cfg p acts) s' d ↔
          Trace.Every (Sys.step cfg) (fun m a => ¬DrainAborts cfg p m a) s acts)) := by
  have henter : Accounted cfg p svc maxJobs concurrency [] s := accounted_enter hd
  refine ⟨?_, fun acts s' hrun => ?_⟩
  · rintro f g rfl hrun hend
    refine drain_rests hd hrun ?_
    rcases hend with hjobs | hclaims
    · obtain ⟨m, rfl⟩ := Option.ne_none_iff_exists'.1 hjobs
      exact claims_end henter hrun
    · exact hclaims
  · obtain ⟨hacc, hapart, d, pc, hd', hready⟩ := drain_kept hreach hd hrun
    obtain ⟨d₁, pc₁, hd₁, -, hc₁, hbooks⟩ := hacc.books
    rw [hd'] at hd₁
    cases hd₁
    refine ⟨hacc.bounded, d, pc, hd', fun hend => ?_, fun hend => ?_⟩
    · have hinit : Trace.run (Sys.step cfg) Sys.init (pre ++ acts) = some s' := Trace.run_append.2 ⟨s, hreach, hrun⟩
      exact drain_next hd' hready hbooks (by rw [hc₁]; exact hconc) (exists_free hinit) hend
    · rw [← drain_raised_run hb hconc henter (by rw [hd]; simp) hrun, hd']
      cases pc with
      | returned => exact iff_of_true ⟨rfl, (hbooks (by simp)).settles hapart⟩ (by simp)
      | raised => simp
      | _ => cases hend

/-! ### An execution that fails, before and after the loop -/

/-- Two jobs wait, and service 1 is about to drain both, one at a time. -/
def backlogActs : List Act :=
  [.start 0 (.submit 0 timingSpec .lookup), .call 0 "a1" [], .advance 0 0 "a2" .go, .call 0 "a3" [], .call 0 "a4" [],
   .start 10 (.submit 0 nextSpec .lookup), .call 10 "e1" [], .advance 10 0 "e2" .go, .call 10 "e3" [], .call 10 "e4" [],
   .start 1 (.drain 1 ⟨some 2, 1, [], []⟩ .enter)]

/-- The scan, and the claim of the first job for thread 2. -/
def firstClaimActs : List Act :=
  [.advance 1 0 "b1" .go, .advance 1 0 "b2" .go, .call 1 "b3" [], .call 1 "b4" [], .advance 1 0 "b5" .go,
   .advance 1 0 "b6" .go, .call 1 "b7" [], .advance 1 0 "b8" .go, .advance 1 0 "b9" .go, .call 1 "b10" [],
   .advance 1 2 "b11" .go]

/-- The loop collects the first future, and claims the second job for thread 5. -/
def secondClaimActs : List Act :=
  [.advance 1 0 "b12" .go, .advance 1 0 "b13" .go, .advance 1 0 "b14" .go, .advance 1 0 "b15" .go,
   .advance 1 0 "b16" .go, .call 1 "b17" [], .advance 1 5 "b18" .go]

/-- An execution down to the return of its adapter; thread `k` beats for it. -/
def executingActs (i k : Nat) (tag : String) : List Act :=
  [.advance i 0 (tag ++ "1") .go, .call i (tag ++ "2") [], .call i (tag ++ "3") [], .call i (tag ++ "4") [],
   .advance i k (tag ++ "5") .go, .advance i 0 (tag ++ "6") (.returned timingReturn)]

/-- It collects its result. -/
def collectActs (i : Nat) (tag : String) : List Act := [.call i (tag ++ "7") [], .call i (tag ++ "8") []]

/-- The first execution finds its lease expired, and the drain goes on. -/
def firstFailsActs : List Act :=
  firstClaimActs ++ (executingActs 2 3 "c" ++ (.tick 40 :: collectActs 2 "c")) ++ secondClaimActs ++
    (executingActs 5 6 "g" ++ collectActs 5 "g") ++
    [.advance 1 0 "b19" .go, .advance 1 0 "b20" .go, .advance 1 0 "b21" .go]

/-- The second does, and the drain does not. -/
def secondFailsActs : List Act :=
  firstClaimActs ++ (executingActs 2 3 "c" ++ collectActs 2 "c") ++ secondClaimActs ++
    (executingActs 5 6 "g" ++ (.tick 40 :: collectActs 5 "g")) ++ [.advance 1 0 "b19" .go, .advance 1 0 "b20" .go]

theorem drain_accounts_iff_first_fails : ∃ s s' d,
    Trace.run (Sys.step workerConfig) Sys.init backlogActs = some s ∧
    Trace.run (Sys.step workerConfig) s firstFailsActs = some s' ∧ s'.result 2 = some .error ∧
    (s'.threads 1).drainOf = some (1, d, .returned) ∧ Settles (s.drainLog workerConfig 1 firstFailsActs) s' d := by
  have hrun : (Trace.run (Sys.step workerConfig) Sys.init backlogActs).bind (fun s =>
      (Trace.run (Sys.step workerConfig) s firstFailsActs).map (fun s' =>
        decide ((s.threads 1).drainOf = some (1, ⟨some 2, 1, [], []⟩, .enter)) && (decide (s'.result 2 = some .error) &&
          decide ((s'.threads 1).drainOf.map (fun x => (x.1, x.2.2)) = some (1, .returned))))) = some true := by
    decide +kernel
  obtain ⟨s, hs, hrest⟩ := Option.bind_eq_some_iff.1 hrun
  obtain ⟨s', hs', hfacts⟩ := Option.map_eq_some_iff.1 hrest
  simp only [Bool.and_eq_true, decide_eq_true_eq] at hfacts
  obtain ⟨henter, hfailed, hend⟩ := hfacts
  obtain ⟨⟨svc, d, pc⟩, hd, hpair⟩ := Option.map_eq_some_iff.1 hend
  obtain ⟨hsvc, hpc⟩ := Prod.mk.inj hpair
  subst hsvc hpc
  have hkept : Trace.Every (Sys.step workerConfig) (fun m a => ¬DrainAborts workerConfig 1 m a) s firstFailsActs :=
    (drain_raised_run rfl le_rfl (accounted_enter henter) (by rw [henter]; simp) hs').1 (by rw [hd]; simp)
  obtain ⟨-, d', pc', hd', -, hiff⟩ :=
    (drain_accounts_iff workerConfig rfl hs henter le_rfl).2 firstFailsActs s' hs'
  rw [hd] at hd'
  cases hd'
  exact ⟨s, s', d, hs, hs', hfailed, hd, ((hiff rfl).2 hkept).2⟩

/-- **The job that has succeeded is not returned either.** -/
theorem late_failure_aborts_drain : ∃ s s' d,
    Trace.run (Sys.step workerConfig) Sys.init backlogActs = some s ∧
    (s.threads 1).drainOf = some (1, ⟨some 2, 1, [], []⟩, .enter) ∧
    Trace.run (Sys.step workerConfig) s secondFailsActs = some s' ∧
    claimsOf (s.drainLog workerConfig 1 secondFailsActs) = ["job", "next"] ∧
    s'.result 2 = some .value ∧ s'.result 5 = some .error ∧ d.completed = ["job"] ∧
    (s'.threads 1).drainOf = some (1, d, .raised) := by
  have hrun : (Trace.run (Sys.step workerConfig) Sys.init backlogActs).bind (fun s =>
      (Trace.run (Sys.step workerConfig) s secondFailsActs).map (fun s' =>
        decide ((s.threads 1).drainOf = some (1, ⟨some 2, 1, [], []⟩, .enter)) &&
          (decide (claimsOf (s.drainLog workerConfig 1 secondFailsActs) = ["job", "next"]) &&
          (decide (s'.result 2 = some .value) && (decide (s'.result 5 = some .error) &&
          decide ((s'.threads 1).drainOf.map (fun x => (x.1, x.2.1.completed, x.2.2)) = some (1, ["job"], .raised))))))) =
      some true := by
    decide +kernel
  obtain ⟨s, hs, hrest⟩ := Option.bind_eq_some_iff.1 hrun
  obtain ⟨s', hs', hfacts⟩ := Option.map_eq_some_iff.1 hrest
  simp only [Bool.and_eq_true, decide_eq_true_eq] at hfacts
  obtain ⟨henter, hclaims, hfirst, hsecond, hend⟩ := hfacts
  obtain ⟨⟨svc, d, pc⟩, hd, hparts⟩ := Option.map_eq_some_iff.1 hend
  obtain ⟨hsvc, hrest⟩ := Prod.mk.inj hparts
  obtain ⟨hcompleted, hpc⟩ := Prod.mk.inj hrest
  subst hsvc hpc
  exact ⟨s, s', d, hs, henter, hs', hclaims, hfirst, hsecond, hcompleted, hd⟩

end EdaLab
