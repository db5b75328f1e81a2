import EdaLab.Classification
import EdaLab.Dispatch
/-!
# DrainAccount — what a drain makes of the Runs it claims

The books of a drain: each Run it claimed has been started or is about to be, and each execution it started is listed, or
is on the list of futures it has still to collect.  They balance at every step but one: a future that has failed is
collected in silence by `wait` and raises where it is collected after the loop (`drain_accounts_iff`).
-/
namespace EdaLab

/-! ## What a drain claims and starts -/

inductive DrainEvent
  | claimed (jobId : String)
  | started (k : Nat) (jobId : String)
  deriving DecidableEq

def DrainEvent.claim? : DrainEvent → Option String
  | claimed j => some j
  | _         => none

def DrainEvent.start? : DrainEvent → Option (Nat × String)
  | started k j => some (k, j)
  | _           => none

/-- What the drain of thread `p` does in a step. -/
def drainEvents (p : Nat) (s : Sys) (a : Act) (s' : Sys) : List DrainEvent :=
  match (s.threads p).drainOf with
  | some (_, _, .claim) =>
    match (s'.threads p).drainOf with
    | some (_, _, .dispatch spec) => [.claimed spec.jobId]
    | _                           => []
  | some (_, _, .dispatch spec) =>
    match a with
    | .advance q k _ _ => if q = p then [.started k spec.jobId] else []
    | _                => []
  | _ => []

def Sys.drainLog (cfg : Config) (p : Nat) (s : Sys) (acts : List Act) : List DrainEvent :=
  Trace.log (Sys.step cfg) (drainEvents p) s acts

/-- The Runs the drain claimed, in their order. -/
def claimsOf (l : List DrainEvent) : List String := l.filterMap DrainEvent.claim?

/-- The executions the drain started, with their jobs. -/
def startsOf (l : List DrainEvent) : List (Nat × String) := l.filterMap DrainEvent.start?

@[simp] theorem claimsOf_claimed (l : List DrainEvent) (j : String) : claimsOf (l ++ [.claimed j]) = claimsOf l ++ [j] := by
  simp [claimsOf, DrainEvent.claim?]

@[simp] theorem startsOf_claimed (l : List DrainEvent) (j : String) : startsOf (l ++ [.claimed j]) = startsOf l := by
  simp [startsOf, DrainEvent.start?]

@[simp] theorem claimsOf_started (l : List DrainEvent) (k : Nat) (j : String) :
    claimsOf (l ++ [.started k j]) = claimsOf l := by
  simp [claimsOf, DrainEvent.claim?]

@[simp] theorem startsOf_started (l : List DrainEvent) (k : Nat) (j : String) :
    startsOf (l ++ [.started k j]) = startsOf l ++ [(k, j)] := by
  simp [startsOf, DrainEvent.start?]

/-! ## The books -/

namespace DrainPc

/-- The Run that has been claimed and not been started. -/
def inHand : DrainPc → List String
  | dispatch spec => [spec.jobId]
  | _             => []

theorem inHand_eq_nil {pc : DrainPc} (h : ∀ spec, pc ≠ .dispatch spec) : pc.inHand = [] := by
  cases pc with
  | dispatch spec => exact absurd rfl (h spec)
  | _ => rfl

/-- The futures still to be collected. -/
def uncollected (d : Drain) : DrainPc → List (Nat × String)
  | collect rest => rest
  | returned     => []
  | _            => d.active

/-- Between the check of `max_jobs` and the execution it is for. -/
def needs : DrainPc → Nat
  | capacity | slots | wait | claim | dispatch _ => 1
  | _                                            => 0

/-- Between the check of `concurrency` and the execution it is for. -/
def room : DrainPc → Nat
  | claim | dispatch _ => 1
  | _                  => 0

/-- The call has ended. -/
def ended : DrainPc → Bool
  | returned | raised => true
  | _                 => false

end DrainPc

/-- The executions among these that have not ended. -/
def Sys.unfinished (s : Sys) (fs : List (Nat × String)) : Nat := fs.countP (fun f => (s.result f.1).isNone)

/-- Bounds that hold of a drain that has raised, too. -/
structure Bounded (maxJobs : Option Nat) (concurrency : Nat) (l : List DrainEvent) (s : Sys) : Prop where
  claims   : ∀ m, maxJobs = some m → (claimsOf l).length ≤ m
  running  : s.unfinished (startsOf l) ≤ concurrency

/-- The books of a drain that has not raised. -/
structure Books (l : List DrainEvent) (s : Sys) (d : Drain) (pc : DrainPc) : Prop where
  claimed  : claimsOf l = (startsOf l).map Prod.snd ++ pc.inHand
  balance  : ∃ fin, (startsOf l).Perm (fin ++ pc.uncollected d) ∧ d.completed.Perm (fin.map Prod.snd) ∧
    ∀ f ∈ fin, (s.result f.1).isSome = true
  quota    : ∀ m, d.maxJobs = some m → (startsOf l).length + pc.needs ≤ m
  width    : d.active.length + pc.room ≤ d.concurrency
  collects : (pc.uncollected d).length ≤ d.active.length

section Step

variable {cfg : Config} {s s' : Sys} {a : Act} {p svc : Nat} {l : List DrainEvent} {d : Drain} {pc pc' : DrainPc}

/-- A future that has ended stays as it is. -/
theorem result_persists (h : Sys.step cfg s a = some s') {k : Nat} {r : FutureResult} (hr : s.result k = some r) :
    s'.result k = some r := by
  have hdone : ∃ svc spec pc, s.threads k = .exec svc spec pc ∧ pc.done = true := by
    unfold Sys.result Sys.execPc at hr
    cases hth : s.threads k with
    | exec svc spec pc =>
      rw [hth] at hr
      cases pc with
      | returned => exact ⟨svc, spec, _, rfl, rfl⟩
      | raised => exact ⟨svc, spec, _, rfl, rfl⟩
      | cancelled => exact ⟨svc, spec, _, rfl, rfl⟩
      | _ => cases hr
    | _ => rw [hth] at hr; cases hr
  obtain ⟨svc, spec, pc, hth, hpc⟩ := hdone
  have hsame : s'.threads k = s.threads k := by
    obtain ⟨pc', hth'⟩ := exec_persists h hth
    cases exec_after h hth' with
    | same heq => rw [hth', heq]
    | called _ _ pc₀ op _ _ heq hop =>
      rw [hth] at heq
      cases heq
      cases pc <;> cases hpc <;> cases hop
    | advanced _ _ _ pc₀ _ _ heq hadv =>
      rw [hth] at heq
      cases heq
      cases pc <;> cases hpc <;> cases hadv
    | executed _ _ _ hnone => rw [hth] at hnone; cases hnone
    | cancelled heq =>
      rw [hth] at heq
      cases heq
      cases hpc
  unfold Sys.result Sys.execPc at hr ⊢
  rw [hsame]
  exact hr

theorem unfinished_le (h : Sys.step cfg s a = some s') (fs : List (Nat × String)) : s'.unfinished fs ≤ s.unfinished fs := by
  refine List.countP_mono_left (fun f _ hf => ?_)
  cases hr : s.result f.1 with
  | none => rfl
  | some r =>
    rw [result_persists h hr] at hf
    cases hf

theorem Books.bounded (h : Books l s d pc) : Bounded d.maxJobs d.concurrency l s := by
  constructor
  · intro m hm
    have hquota := h.quota m hm
    have hhand : pc.inHand.length ≤ pc.needs := by cases pc <;> simp [DrainPc.inHand, DrainPc.needs]
    rw [h.claimed, List.length_append, List.length_map]
    omega
  · obtain ⟨fin, hperm, -, hfin⟩ := h.balance
    have hzero : s.unfinished fin = 0 := by
      refine List.countP_eq_zero.2 (fun f hf hnone => ?_)
      rw [Option.isNone_iff_eq_none] at hnone
      have hsome := hfin f hf
      rw [hnone] at hsome
      cases hsome
    have hcount : s.unfinished (startsOf l) = s.unfinished fin + s.unfinished (pc.uncollected d) := by
      unfold Sys.unfinished
      rw [hperm.countP_eq, List.countP_append]
    have hle : s.unfinished (pc.uncollected d) ≤ (pc.uncollected d).length := List.countP_le_length
    have hwidth := h.width
    have hcollects := h.collects
    omega

theorem Books.later (h : Books l s d pc) (hstep : Sys.step cfg s a = some s') : Books l s' d pc := by
  obtain ⟨fin, hperm, hcompleted, hfin⟩ := h.balance
  refine ⟨h.claimed, ⟨fin, hperm, hcompleted, fun f hf => ?_⟩, h.quota, h.width, h.collects⟩
  obtain ⟨r, hr⟩ := Option.isSome_iff_exists.1 (hfin f hf)
  rw [result_persists hstep hr]
  rfl

/-- A move that starts, claims and collects nothing. -/
theorem Books.goto (h : Books l s d pc) (hhand : pc'.inHand = pc.inHand) (hlist : pc'.uncollected d = pc.uncollected d)
    (hneeds : pc'.needs ≤ pc.needs) (hroom : pc'.room ≤ pc.room) : Books l s d pc' := by
  refine ⟨by rw [hhand]; exact h.claimed, by rw [hlist]; exact h.balance, fun m hm => ?_, ?_,
    by rw [hlist]; exact h.collects⟩
  · have hquota := h.quota m hm
    omega
  · have hwidth := h.width
    omega

theorem Books.lengths (h : Books l s d pc) (hlist : pc.uncollected d = d.active) :
    (startsOf l).length = d.completed.length + d.active.length := by
  obtain ⟨fin, hperm, hcompleted, -⟩ := h.balance
  rw [hperm.length_eq, List.length_append, hlist, hcompleted.length_eq, List.length_map]

/-- What a reply of the store does to the books; a claim adds its Run. -/
theorem Books.resume {owner : Option ExecutionOwner} {locked : List String} {op : StoreOp} {sv : Service}
    (h : Books l s d pc)
    (hop : pc.op sv owner locked = some op) (child : Option Child) (reply : Reply)
    (hne : pc.resume sv child reply d ≠ .raised) :
    (∃ spec, pc = .claim ∧ pc.resume sv child reply d = .dispatch spec ∧
      Books (l ++ [.claimed spec.jobId]) s d (.dispatch spec)) ∨
    ((∀ spec, pc.resume sv child reply d ≠ .dispatch spec) ∧ Books l s d (pc.resume sv child reply d)) := by
  cases pc with
  | recovering r =>
    refine Or.inr ⟨fun spec => ?_, ?_⟩
    · simp only [DrainPc.resume]
      generalize r.resume child reply = r'
      cases r' <;> simp [DrainPc.ofRecover]
    · simp only [DrainPc.resume] at hne ⊢
      generalize r.resume child reply = r' at hne
      cases r' with
      | raised => exact absurd rfl hne
      | _ => exact h.goto rfl rfl le_rfl le_rfl
  | releaseTerminal => exact Or.inr ⟨fun spec => by simp [DrainPc.resume], h.goto rfl rfl le_rfl le_rfl⟩
  | capacity =>
    right
    simp only [DrainPc.resume] at hne ⊢
    split
    · split
      · exact ⟨fun spec => by simp, h.goto rfl rfl (Nat.zero_le 1) le_rfl⟩
      · exact ⟨fun spec => by simp, h.goto rfl rfl le_rfl le_rfl⟩
    · rename_i hno
      refine absurd ?_ hne
      split
      · rename_i hroom
        exact (hno _ _ hroom rfl).elim
      · rfl
  | claim =>
    simp only [DrainPc.resume]
    split
    · rename_i spec
      refine Or.inl ⟨spec, trivial, rfl, ?_, ?_, ?_, h.width, h.collects⟩
      · rw [claimsOf_claimed, startsOf_claimed, h.claimed]
        simp [DrainPc.inHand]
      · rw [startsOf_claimed]
        exact h.balance
      · rw [startsOf_claimed]
        exact h.quota
    · exact Or.inr ⟨fun spec => by simp, h.goto rfl rfl (Nat.zero_le 1) (Nat.zero_le 1)⟩
  | _ => cases hop

/-- The loop goes on while the quota leaves room for one more. -/
theorem Books.enters (h : Books l s d .loop) (hquota : ∀ m, d.maxJobs = some m → d.completed.length + d.active.length < m)
    (hhand : pc'.inHand = []) (hlist : pc'.uncollected d = d.active) (hneeds : pc'.needs = 1) (hroom : pc'.room = 0) :
    Books l s d pc' := by
  refine ⟨by rw [hhand]; exact h.claimed, by rw [hlist]; exact h.balance, fun m hm => ?_, by rw [hroom]; exact h.width,
    by rw [hlist]⟩
  have hlen := h.lengths rfl
  have hlt := hquota m hm
  omega

/-- A slot of the pool is free. -/
theorem Books.claims (h : Books l s d .slots) (hroom : ¬ d.concurrency ≤ d.active.length) : Books l s d .claim := by
  refine ⟨h.claimed, h.balance, h.quota, ?_, h.collects⟩
  simp only [DrainPc.room]
  omega

/-- The futures that have ended go from the list to the books. -/
theorem Books.waited (h : Books l s d .wait) :
    Books l s
      { d with
        active    := d.active.filter (fun f => (s.result f.1).isNone)
        completed := d.completed ++ (d.active.filter (fun f => (s.result f.1).isSome)).map (·.2) } .loop := by
  obtain ⟨fin, hperm, hcompleted, hfin⟩ := h.balance
  have hsplit := List.filter_append_perm (fun f : Nat × String => (s.result f.1).isSome) d.active
  have hrest : d.active.filter (fun f => !(s.result f.1).isSome) = d.active.filter (fun f => (s.result f.1).isNone) := by
    refine List.filter_congr (fun f _ => ?_)
    cases s.result f.1 <;> rfl
  rw [hrest] at hsplit
  refine ⟨h.claimed, ⟨fin ++ d.active.filter (fun f => (s.result f.1).isSome), ?_, ?_, fun f hf => ?_⟩, fun m hm => ?_, ?_,
    le_rfl⟩
  · rw [List.append_assoc]
    exact hperm.trans (hsplit.symm.append_left fin)
  · rw [List.map_append]
    exact hcompleted.append_right _
  · rcases List.mem_append.1 hf with hf | hf
    · exact hfin f hf
    · exact (List.mem_filter.1 hf).2
  · have hquota := h.quota m hm
    simp only [DrainPc.needs] at hquota ⊢
    omega
  · have hwidth := h.width
    have hle := List.length_filter_le (fun f : Nat × String => (s.result f.1).isNone) d.active
    simp only [DrainPc.room] at hwidth ⊢
    omega

/-- The Run in hand is started. -/
theorem Books.dispatched {spec : JobSpec} (h : Books l s d (.dispatch spec)) (k : Nat) :
    Books (l ++ [.started k spec.jobId]) s { d with active := d.active ++ [(k, spec.jobId)] } .loop := by
  obtain ⟨fin, hperm, hcompleted, hfin⟩ := h.balance
  refine ⟨?_, ⟨fin, ?_, hcompleted, hfin⟩, fun m hm => ?_, ?_, le_rfl⟩
  · rw [claimsOf_started, startsOf_started, h.claimed]
    simp [DrainPc.inHand]
  · rw [startsOf_started]
    have hmore := hperm.append_right [(k, spec.jobId)]
    rwa [List.append_assoc] at hmore
  · have hquota := h.quota m hm
    rw [startsOf_started, List.length_append]
    simp only [DrainPc.needs, List.length_singleton] at hquota ⊢
    omega
  · have hwidth := h.width
    simp only [DrainPc.room, List.length_append, List.length_singleton] at hwidth ⊢
    omega

/-- A future is collected after the loop. -/
theorem Books.collected {f : Nat × String} {rest : List (Nat × String)} (h : Books l s d (.collect (f :: rest)))
    (hresult : (s.result f.1).isSome = true) : Books l s { d with completed := d.completed ++ [f.2] } (.collect rest) := by
  obtain ⟨fin, hperm, hcompleted, hfin⟩ := h.balance
  refine ⟨h.claimed, ⟨fin ++ [f], ?_, ?_, fun g hg => ?_⟩, h.quota, h.width, ?_⟩
  · rw [List.append_assoc]
    exact hperm
  · rw [List.map_append]
    exact hcompleted.append_right _
  · rcases List.mem_append.1 hg with hg | hg
    · exact hfin g hg
    · rw [List.mem_singleton.1 hg]
      exact hresult
  · have hcollects := h.collects
    simp only [DrainPc.uncollected, List.length_cons] at hcollects ⊢
    omega

/-- What a step that calls no store does to the books; a dispatch starts the Run in hand. -/
theorem Books.advance {owner : Option ExecutionOwner} {live : String → Bool} {clock : Time}
    {observed : Nat → Option (Nat × Option String)} {k : Nat} {fresh : String} {inp : Input} {sv : Service} {d' : Drain}
    {eff : Effect} (h : Books l s d pc)
    (hadv : pc.advance sv owner live clock observed s.result k fresh inp d = some (d', pc', eff)) (hne : pc' ≠ .raised) :
    d'.maxJobs = d.maxJobs ∧ d'.concurrency = d.concurrency ∧
    ((∃ spec, pc = .dispatch spec ∧ Books (l ++ [.started k spec.jobId]) s d' pc') ∨
     ((∀ spec, pc ≠ .dispatch spec) ∧ pc ≠ .claim ∧ Books l s d' pc')) := by
  cases pc with
  | enter =>
    simp only [DrainPc.advance] at hadv
    split at hadv
    · cases hadv
      exact absurd rfl hne
    · cases hadv
      exact ⟨rfl, rfl, Or.inr ⟨by simp, by simp, h.goto rfl rfl le_rfl le_rfl⟩⟩
  | recovering r =>
    obtain ⟨r', -, hr'⟩ := Option.map_eq_some_iff.1 hadv
    cases hr'
    refine ⟨rfl, rfl, Or.inr ⟨by simp, by simp, ?_⟩⟩
    cases r' with
    | raised => exact absurd rfl hne
    | _ => exact h.goto rfl rfl le_rfl le_rfl
  | loop =>
    simp only [DrainPc.advance] at hadv
    split at hadv
    · rename_i hquota
      cases hadv
      have hless : ∀ m, d.maxJobs = some m → d.completed.length + d.active.length < m := by
        intro m hm
        rwa [hm, Option.all_some, decide_eq_true_eq] at hquota
      refine ⟨rfl, rfl, Or.inr ⟨by simp, by simp, ?_⟩⟩
      split
      · exact h.enters hless rfl rfl rfl rfl
      · exact h.enters hless rfl rfl rfl rfl
    · cases hadv
      exact ⟨rfl, rfl, Or.inr ⟨by simp, by simp, h.goto rfl rfl le_rfl le_rfl⟩⟩
  | slots =>
    simp only [DrainPc.advance] at hadv
    cases hadv
    refine ⟨rfl, rfl, Or.inr ⟨by simp, by simp, ?_⟩⟩
    split
    · exact h.goto rfl rfl le_rfl le_rfl
    · rename_i hroom
      exact h.claims hroom
  | wait =>
    simp only [DrainPc.advance] at hadv
    split at hadv
    · cases hadv
      exact ⟨rfl, rfl, Or.inr ⟨by simp, by simp, h.waited⟩⟩
    · cases hadv
  | dispatch spec =>
    cases hadv
    exact ⟨rfl, rfl, Or.inl ⟨spec, rfl, h.dispatched k⟩⟩
  | collect rest =>
    cases rest with
    | nil =>
      cases hadv
      exact ⟨rfl, rfl, Or.inr ⟨by simp, by simp, h.goto rfl rfl le_rfl le_rfl⟩⟩
    | cons f rest =>
      simp only [DrainPc.advance] at hadv
      split at hadv
      · rename_i hresult
        cases hadv
        exact ⟨rfl, rfl, Or.inr ⟨by simp, by simp, h.collected (by rw [hresult]; rfl)⟩⟩
      · cases hadv
        exact absurd rfl hne
      · cases hadv
  | _ => cases hadv

/-- A step in which the drain raises: a probe of its scan is refused or its `ps` raises, a future collected after the loop
has failed, or there is no budget to compare a count with. -/
inductive DrainAborts (cfg : Config) (p : Nat) (s : Sys) (a : Act) : Prop
  | probe (svc : Nat) (d : Drain) (sc : Scan) (run : Snapshot) (row : AttemptRow) (t : String) (pid k : Nat) (fresh : String)
      (drain_eq : (s.threads p).drainOf = some (svc, d, .recovering (.probe sc run row t pid)))
      (found : (s.observed pid).isSome = true) (is_act : a = .advance p k fresh (.signal false))
  | unidentified (svc : Nat) (d : Drain) (sc : Scan) (run : Snapshot) (row : AttemptRow) (t : String) (pid k : Nat)
      (fresh : String) (drain_eq : (s.threads p).drainOf = some (svc, d, .recovering (.inspect sc run row t pid)))
      (is_act : a = .advance p k fresh .psRaised)
  | future (svc : Nat) (d : Drain) (f : Nat × String) (rest : List (Nat × String)) (k : Nat) (fresh : String) (inp : Input)
      (drain_eq : (s.threads p).drainOf = some (svc, d, .collect (f :: rest))) (failed : s.result f.1 = some .error)
      (is_act : a = .advance p k fresh inp)
  | unbudgeted (svc : Nat) (d : Drain) (fresh : String) (locked : List String)
      (drain_eq : (s.threads p).drainOf = some (svc, d, .capacity)) (no_budget : (cfg.service svc).maxInFlight = none)
      (is_act : a = .call p fresh locked)

theorem DrainPc.advance_raised {owner : Option ExecutionOwner} {live : String → Bool} {clock : Time}
    {observed : Nat → Option (Nat × Option String)} {result : Nat → Option FutureResult} {k : Nat} {fresh : String}
    {inp : Input} {sv : Service} {d' : Drain} {eff : Effect} (hconc : 1 ≤ d.concurrency)
    (hadv : pc.advance sv owner live clock observed result k fresh inp d = some (d', pc', eff)) :
    pc' = .raised ↔
      (∃ sc run row t pid, pc = .recovering (.probe sc run row t pid) ∧ (observed pid).isSome = true ∧ inp = .signal false) ∨
      (∃ sc run row t pid, pc = .recovering (.inspect sc run row t pid) ∧ inp = .psRaised) ∨
      ∃ f rest, pc = .collect (f :: rest) ∧ result f.1 = some .error := by
  cases pc with
  | enter =>
    simp only [DrainPc.advance] at hadv
    rw [if_neg (by omega)] at hadv
    cases hadv
    simp
  | recovering r =>
    obtain ⟨r', hr, hr'⟩ := Option.map_eq_some_iff.1 hadv
    cases hr'
    have hof : DrainPc.ofRecover r' = .raised ↔ r' = .raised := by cases r' <;> simp [DrainPc.ofRecover]
    rw [hof, RecoverPc.advance_raised hr]
    simp
  | loop =>
    simp only [DrainPc.advance] at hadv
    split at hadv
    · cases hadv
      split <;> simp
    · cases hadv
      simp
  | slots =>
    simp only [DrainPc.advance] at hadv
    cases hadv
    split <;> simp
  | wait =>
    simp only [DrainPc.advance] at hadv
    split at hadv
    · cases hadv
      simp
    · cases hadv
  | dispatch spec =>
    cases hadv
    simp
  | collect rest =>
    cases rest with
    | nil =>
      cases hadv
      simp
    | cons f rest =>
      simp only [DrainPc.advance] at hadv
      split at hadv
      · rename_i hresult
        cases hadv
        simp [hresult]
      · rename_i hresult
        cases hadv
        simp [hresult]
      · cases hadv
  | _ => cases hadv

/-- Where a drain raises its lists stay as they are. -/
theorem DrainPc.advance_stops {owner : Option ExecutionOwner} {live : String → Bool} {clock : Time}
    {observed : Nat → Option (Nat × Option String)} {result : Nat → Option FutureResult} {k : Nat} {fresh : String}
    {inp : Input} {sv : Service} {d' : Drain} {eff : Effect}
    (hadv : pc.advance sv owner live clock observed result k fresh inp d = some (d', .raised, eff)) :
    d' = d ∧ pc ≠ .claim ∧ ∀ spec, pc ≠ .dispatch spec := by
  cases pc with
  | claim => cases hadv
  | dispatch spec => cases hadv
  | enter => exact ⟨(Prod.mk.inj (Option.some.inj hadv)).1.symm, by simp, by simp⟩
  | recovering r =>
    obtain ⟨r', -, hr'⟩ := Option.map_eq_some_iff.1 hadv
    exact ⟨(Prod.mk.inj hr').1.symm, by simp, by simp⟩
  | loop =>
    simp only [DrainPc.advance] at hadv
    split at hadv
    · exact ⟨(Prod.mk.inj (Option.some.inj hadv)).1.symm, by simp, by simp⟩
    · exact ⟨(Prod.mk.inj (Option.some.inj hadv)).1.symm, by simp, by simp⟩
  | slots => exact ⟨(Prod.mk.inj (Option.some.inj hadv)).1.symm, by simp, by simp⟩
  | wait =>
    simp only [DrainPc.advance] at hadv
    split at hadv <;> cases hadv
  | collect rest =>
    refine ⟨?_, by simp, by simp⟩
    cases rest with
    | nil => cases hadv
    | cons f rest =>
      simp only [DrainPc.advance] at hadv
      split at hadv
      · cases hadv
      · cases hadv; rfl
      · cases hadv
  | _ => cases hadv

theorem DrainPc.resume_raised {owner : Option ExecutionOwner} {locked : List String} {op : StoreOp} {sv : Service}
    {now : Time}
    {db : Db} (hop : pc.op sv owner locked = some op) (child : Option Child) :
    pc.resume sv child (op.reply .postgres now db) d = .raised ↔ pc = .capacity ∧ sv.maxInFlight = none := by
  cases pc with
  | recovering r =>
    have hof : ∀ r', DrainPc.ofRecover r' = .raised ↔ r' = .raised := by
      intro r'
      cases r' <;> simp [DrainPc.ofRecover]
    simp only [DrainPc.resume, hof]
    exact iff_of_false (RecoverPc.resume_ne_raised hop) (by simp)
  | releaseTerminal => simp [DrainPc.resume]
  | capacity =>
    obtain ⟨o, -, rfl⟩ := Option.map_eq_some_iff.1 hop
    simp only [DrainPc.resume, StoreOp.reply, StoreOp.exec]
    cases sv.maxInFlight with
    | none => simp
    | some room =>
      simp only
      split <;> simp
  | claim =>
    simp only [DrainPc.resume]
    split <;> simp
  | _ => cases hop

/-- How a drain goes on, with the steps of the others told apart. -/
inductive DrainMove (cfg : Config) (s : Sys) (a : Act) (s' : Sys) (p svc : Nat) (d : Drain) (pc : DrainPc) :
    Drain → DrainPc → Prop
  | idle (other : ¬a.Of p) : DrainMove cfg s a s' p svc d pc d pc
  | called (fresh : String) (locked : List String) (op : StoreOp) (child : Option Child) (is_act : a = .call p fresh locked)
      (is_called : Sys.Called cfg s p fresh locked op s')
      (is_op : pc.op (cfg.service svc) (s.owners svc) locked = some op) :
    DrainMove cfg s a s' p svc d pc d (pc.resume (cfg.service svc) child (op.reply cfg.backend s.clock s.db) d)
  | advanced (k : Nat) (fresh : String) (inp : Input) (d' : Drain) (pc' : DrainPc) (eff : Effect)
      (is_act : a = .advance p k fresh inp)
      (advance_eq : pc.advance (cfg.service svc) (s.owners svc) (s.live svc) s.clock s.observed s.result k fresh inp d =
        some (d', pc', eff)) :
    DrainMove cfg s a s' p svc d pc d' pc'

theorem drain_call {fresh : String} {locked : List String} (h : Sys.step cfg s (.call p fresh locked) = some s')
    (hd : (s.threads p).drainOf = some (svc, d, pc)) :
    ∃ op child, Sys.Called cfg s p fresh locked op s' ∧ pc.op (cfg.service svc) (s.owners svc) locked = some op ∧
      (s'.threads p).drainOf = some (svc, d, pc.resume (cfg.service svc) child (op.reply cfg.backend s.clock s.db) d) := by
  obtain ⟨op, hcall⟩ := Sys.call_some h
  have hop := hcall.is_op
  have hth : s'.threads p = (s.threads p).resume cfg s fresh (op.reply cfg.backend s.clock s.db) := by
    rw [hcall.threads_eq, Function.update_self]
  rw [hth]
  cases hp : s.threads p with
  | drain v d₀ pc₀ =>
    rw [hp] at hd hop
    cases hd
    exact ⟨op, _, hcall, hop, rfl⟩
  | agent v self d₀ pc₀ =>
    rw [hp] at hd hop
    cases pc₀ with
    | drain pc₁ =>
      cases hd
      exact ⟨op, _, hcall, hop, rfl⟩
    | _ => cases hd
  | _ => rw [hp] at hd; cases hd

theorem drain_move (h : Sys.step cfg s a = some s') (hd : (s.threads p).drainOf = some (svc, d, pc)) :
    ∃ d' pc', (s'.threads p).drainOf = some (svc, d', pc') ∧ DrainMove cfg s a s' p svc d pc d' pc' := by
  by_cases hcall : ∃ fresh locked, a = .call p fresh locked
  · obtain ⟨fresh, locked, rfl⟩ := hcall
    obtain ⟨op, child, hcalled, hop, hd'⟩ := drain_call h hd
    exact ⟨d, _, hd', .called fresh locked op child rfl hcalled hop⟩
  · cases drain_step h hd with
    | same hown hd' =>
      refine ⟨d, pc, hd', .idle ?_⟩
      rintro (⟨fresh, locked, hact⟩ | ⟨k, fresh, inp, hact⟩)
      · exact hcall ⟨fresh, locked, hact⟩
      · exact hown k fresh inp hact
    | called fresh locked op child hact => exact absurd ⟨fresh, locked, hact⟩ hcall
    | advanced k fresh inp d' pc' eff hact hadv hd' => exact ⟨d', pc', hd', .advanced k fresh inp d' pc' eff hact hadv⟩

/-- A drain raises in the steps that abort it. -/
theorem drain_raises (hb : cfg.backend = .postgres) {d' : Drain} (hd : (s.threads p).drainOf = some (svc, d, pc))
    (hconc : 1 ≤ d.concurrency) (hne : pc ≠ .raised) (h : DrainMove cfg s a s' p svc d pc d' pc') :
    pc' = .raised ↔ DrainAborts cfg p s a := by
  -- what an abort says of the drain it is about
  have hsame : ∀ {v : Nat} {d₁ : Drain} {pc₁ : DrainPc}, (s.threads p).drainOf = some (v, d₁, pc₁) →
      svc = v ∧ d = d₁ ∧ pc = pc₁ := by
    intro v d₁ pc₁ h₁
    rw [hd] at h₁
    cases h₁
    exact ⟨rfl, rfl, rfl⟩
  cases h with
  | idle hother =>
    refine iff_of_false hne (fun hab => hother ?_)
    cases hab with
    | probe _ _ _ _ _ _ _ k fresh _ _ hact => exact Or.inr ⟨k, fresh, _, hact⟩
    | unidentified _ _ _ _ _ _ _ k fresh _ hact => exact Or.inr ⟨k, fresh, _, hact⟩
    | future _ _ _ _ k fresh inp _ _ hact => exact Or.inr ⟨k, fresh, inp, hact⟩
    | unbudgeted _ _ fresh locked _ _ hact => exact Or.inl ⟨fresh, locked, hact⟩
  | called fresh locked op child hact _ hop =>
    subst hact
    rw [hb, DrainPc.resume_raised hop]
    constructor
    · rintro ⟨rfl, hnone⟩
      exact .unbudgeted svc d fresh locked hd hnone rfl
    · intro hab
      cases hab with
      | probe _ _ _ _ _ _ _ _ _ _ _ hact => cases hact
      | unidentified _ _ _ _ _ _ _ _ _ _ hact => cases hact
      | future _ _ _ _ _ _ _ _ _ hact => cases hact
      | unbudgeted v d₁ _ _ hd₁ hnone _ =>
        obtain ⟨rfl, -, hpc⟩ := hsame hd₁
        exact ⟨hpc, hnone⟩
  | advanced k fresh inp _ _ eff hact hadv =>
    subst hact
    rw [DrainPc.advance_raised hconc hadv]
    constructor
    · rintro (⟨sc, run, row, t, pid, rfl, hobs, rfl⟩ | ⟨sc, run, row, t, pid, rfl, rfl⟩ | ⟨f, rest, rfl, hresult⟩)
      · exact .probe svc d sc run row t pid k fresh hd hobs rfl
      · exact .unidentified svc d sc run row t pid k fresh hd rfl
      · exact .future svc d f rest k fresh inp hd hresult rfl
    · intro hab
      cases hab with
      | probe v d₁ sc run row t pid _ _ hd₁ hobs hact =>
        cases hact
        obtain ⟨-, -, rfl⟩ := hsame hd₁
        exact Or.inl ⟨sc, run, row, t, pid, rfl, hobs, rfl⟩
      | unidentified v d₁ sc run row t pid _ _ hd₁ hact =>
        cases hact
        obtain ⟨-, -, rfl⟩ := hsame hd₁
        exact Or.inr (Or.inl ⟨sc, run, row, t, pid, rfl, rfl⟩)
      | future v d₁ f rest _ _ _ hd₁ hresult _ =>
        obtain ⟨-, -, rfl⟩ := hsame hd₁
        exact Or.inr (Or.inr ⟨f, rest, rfl, hresult⟩)
      | unbudgeted _ _ _ _ _ _ hact => cases hact

/-! ## The books of a run -/

/-- What the drain of thread `p` has done so far is within its bounds, and its books balance unless it has raised. -/
structure Accounted (cfg : Config) (p svc : Nat) (maxJobs : Option Nat) (concurrency : Nat) (l : List DrainEvent) (s : Sys) :
    Prop where
  bounded : Bounded maxJobs concurrency l s
  books   : ∃ d pc, (s.threads p).drainOf = some (svc, d, pc) ∧ d.maxJobs = maxJobs ∧ d.concurrency = concurrency ∧
    (pc ≠ .raised → Books l s d pc)

theorem drainEvents_other (hd : (s.threads p).drainOf = some (svc, d, pc)) (hclaim : pc ≠ .claim)
    (hdispatch : ∀ spec, pc ≠ .dispatch spec) (a : Act) (s' : Sys) : drainEvents p s a s' = [] := by
  unfold drainEvents
  rw [hd]
  cases pc with
  | claim => exact absurd rfl hclaim
  | dispatch spec => exact absurd rfl (hdispatch spec)
  | _ => rfl

theorem drainEvents_claim (hd : (s.threads p).drainOf = some (svc, d, .claim)) {d' : Drain}
    (hd' : (s'.threads p).drainOf = some (svc, d', pc')) (a : Act) :
    drainEvents p s a s' = pc'.inHand.map .claimed := by
  unfold drainEvents
  rw [hd, hd']
  cases pc' <;> rfl

theorem drainEvents_idle (hother : ¬a.Of p) (hd : (s.threads p).drainOf = some (svc, d, pc))
    (hd' : (s'.threads p).drainOf = some (svc, d, pc)) : drainEvents p s a s' = [] := by
  cases pc with
  | claim => exact drainEvents_claim hd hd' a
  | dispatch spec =>
    unfold drainEvents
    rw [hd]
    cases a with
    | advance q k fresh inp =>
      have hne : q ≠ p := by
        rintro rfl
        exact hother (Or.inr ⟨k, fresh, inp, rfl⟩)
      exact if_neg hne
    | _ => rfl
  | _ => exact drainEvents_other hd (by simp) (by simp) a s'

theorem accounted_step {maxJobs : Option Nat} {concurrency : Nat} (h : Accounted cfg p svc maxJobs concurrency l s)
    (hstep : Sys.step cfg s a = some s') :
    Accounted cfg p svc maxJobs concurrency (l ++ drainEvents p s a s') s' := by
  obtain ⟨d, pc, hd, rfl, rfl, hbooks⟩ := h.books
  obtain ⟨d', pc', hd', hmove⟩ := drain_move hstep hd
  -- a drain that goes on has books to show for it, and they bound it
  have hgo : d'.maxJobs = d.maxJobs → d'.concurrency = d.concurrency → Books (l ++ drainEvents p s a s') s' d' pc' →
      Accounted cfg p svc d.maxJobs d.concurrency (l ++ drainEvents p s a s') s' := by
    intro hjobs hconc hb
    have hbounded := hb.bounded
    rw [hjobs, hconc] at hbounded
    exact ⟨hbounded, d', pc', hd', hjobs, hconc, fun _ => hb⟩
  -- one that has raised claims and starts nothing more
  have hstop : d'.maxJobs = d.maxJobs → d'.concurrency = d.concurrency → pc' = .raised → drainEvents p s a s' = [] →
      Accounted cfg p svc d.maxJobs d.concurrency (l ++ drainEvents p s a s') s' := by
    rintro hjobs hconc rfl hnone
    rw [hnone, List.append_nil]
    exact ⟨⟨h.bounded.claims, (unfinished_le hstep _).trans h.bounded.running⟩, d', _, hd', hjobs, hconc,
      fun hne => absurd rfl hne⟩
  by_cases hraised : pc = .raised
  · subst hraised
    have hnone := drainEvents_other hd (by simp) (by simp) a s'
    cases hmove with
    | idle => exact hstop rfl rfl rfl hnone
    | called _ _ _ _ _ _ hop => cases hop
    | advanced _ _ _ _ _ _ _ hadv => cases hadv
  · have hb := hbooks hraised
    cases hmove with
    | idle hother =>
      refine hgo rfl rfl ?_
      rw [drainEvents_idle hother hd hd', List.append_nil]
      exact hb.later hstep
    | called fresh locked op child _ _ hop =>
      have hdispatch : ∀ spec, pc ≠ .dispatch spec := by
        rintro spec rfl
        cases hop
      by_cases hne : pc.resume (cfg.service svc) child (op.reply cfg.backend s.clock s.db) d = .raised
      · refine hstop rfl rfl hne ?_
        by_cases hclaim : pc = .claim
        · subst hclaim
          rw [drainEvents_claim hd hd', hne]
          rfl
        · exact drainEvents_other hd hclaim hdispatch a s'
      · rcases hb.resume hop child _ hne with ⟨spec, rfl, hpc', hmore⟩ | ⟨hno, hsame⟩
        · refine hgo rfl rfl ?_
          rw [drainEvents_claim hd hd', hpc']
          exact hmore.later hstep
        · refine hgo rfl rfl ?_
          have hnone : drainEvents p s a s' = [] := by
            by_cases hclaim : pc = .claim
            · subst hclaim
              rw [drainEvents_claim hd hd', DrainPc.inHand_eq_nil hno]
              rfl
            · exact drainEvents_other hd hclaim hdispatch a s'
          rw [hnone, List.append_nil]
          exact hsame.later hstep
    | advanced k fresh inp _ _ eff hact hadv =>
      by_cases hne : pc' = .raised
      · subst hne
        obtain ⟨rfl, hclaim, hdispatch⟩ := DrainPc.advance_stops hadv
        exact hstop rfl rfl rfl (drainEvents_other hd hclaim hdispatch a s')
      · obtain ⟨hjobs, hconc, ⟨spec, rfl, hmore⟩ | ⟨hdispatch, hclaim, hsame⟩⟩ := hb.advance hadv hne
        · refine hgo hjobs hconc ?_
          have hstart : drainEvents p s a s' = [.started k spec.jobId] := by
            unfold drainEvents
            rw [hd, hact]
            exact if_pos rfl
          rw [hstart]
          exact hmore.later hstep
        · refine hgo hjobs hconc ?_
          rw [drainEvents_other hd hclaim hdispatch, List.append_nil]
          exact hsame.later hstep

end Step

end EdaLab
