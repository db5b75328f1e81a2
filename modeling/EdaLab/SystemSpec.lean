import EdaLab.StoreSpec
import EdaLab.System
import Mathlib.Data.Fintype.EquivFin
/-!
# SystemSpec — what one step of the system can do

The inversions every invariant of the system is read off: a step that calls the store runs one `StoreOp` and moves its
thread; every other step leaves the database, and moves at most its thread, the one it starts and the one whose future it
cancels.
-/
namespace EdaLab

/-- The step of the machine behind an `advance`. -/
structure Advanced (cfg : Config) (s : Sys) (i k : Nat) (fresh : String) (inp : Input) (th : Thread) (eff : Effect) :
    Prop where
  advance_eq : (s.threads i).advance cfg s k fresh inp = some (th, eff)
  is_fresh : s.isFresh fresh = true

namespace Sys

variable {cfg : Config} {s s' : Sys}

/-- What a store call of a thread leaves. -/
structure Called (cfg : Config) (s : Sys) (i : Nat) (fresh : String) (locked : List String) (op : StoreOp) (s' : Sys) :
    Prop where
  is_op : (s.threads i).op cfg s locked = some op
  is_fresh : s.isFresh fresh = true
  clock_eq : s'.clock = s.clock
  db_eq : s'.db = op.after cfg.backend s.clock s.db
  threads_eq : s'.threads =
    Function.update s.threads i ((s.threads i).resume cfg s fresh (op.reply cfg.backend s.clock s.db))
  owners_eq : s'.owners = s.owners
  futures_eq : s'.futures = s.futures
  processes_eq : s'.processes = s.processes
  births_eq : s'.births = s.births
  tokens_eq : s'.tokens = fresh :: s.tokens
  recorded_eq : s'.recorded = s.recordedAfter (s.threads i) (op.reply cfg.backend s.clock s.db)
  history_eq : s'.history = s.historyAfter cfg (s.threads i) locked (op.reply cfg.backend s.clock s.db)

theorem call_some {i : Nat} {fresh : String} {locked : List String} (h : s.call cfg i fresh locked = some s') :
    ∃ op, Called cfg s i fresh locked op s' := by
  unfold call at h
  split at h
  · cases h
  · rename_i op hop
    split at h
    · rename_i hf
      cases h
      exact ⟨op, hop, hf, rfl, rfl, rfl, rfl, rfl, rfl, rfl, rfl, rfl, rfl⟩
    · cases h

theorem call_isSome_iff {i : Nat} {fresh : String} {locked : List String} :
    (s.call cfg i fresh locked).isSome = true ↔
      (∃ op, (s.threads i).op cfg s locked = some op) ∧ s.isFresh fresh = true := by
  constructor
  · intro h
    obtain ⟨s', h⟩ := Option.isSome_iff_exists.1 h
    obtain ⟨op, hc⟩ := call_some h
    exact ⟨⟨op, hc.is_op⟩, hc.is_fresh⟩
  · rintro ⟨⟨op, hop⟩, hf⟩
    unfold call
    rw [hop]
    simp [hf]

theorem proceed_some {i k : Nat} {fresh : String} {inp : Input} (h : s.proceed cfg i k fresh inp = some s') :
    ∃ th eff, Advanced cfg s i k fresh inp th eff ∧ (s.put i fresh th).apply cfg i k th eff = some s' := by
  unfold proceed at h
  split at h
  · cases h
  · rename_i th eff hadv
    split at h
    · rename_i hf
      exact ⟨th, eff, ⟨hadv, hf⟩, h⟩
    · cases h

/-- Cancelling a future moves at most a thread. -/
theorem cancelFuture_eq (svc : Nat) (j : String) : ∃ threads, s.cancelFuture svc j = { s with threads := threads } := by
  unfold cancelFuture
  split
  · exact ⟨s.threads, rfl⟩
  · split
    · exact ⟨_, rfl⟩
    · exact ⟨s.threads, rfl⟩

/-- Cancelling a future moves a pending execution only. -/
theorem cancelFuture_threads (svc : Nat) (j : String) (q : Nat) :
    (s.cancelFuture svc j).threads q = s.threads q ∨
    ∃ v spec, s.threads q = .exec v spec .pending ∧ (s.cancelFuture svc j).threads q = .exec v spec .cancelled := by
  unfold cancelFuture
  split
  · exact Or.inl rfl
  · rename_i k hk
    split
    · rename_i v spec hpend
      by_cases hq : q = k
      · subst hq
        exact Or.inr ⟨v, spec, hpend, by simp⟩
      · exact Or.inl (by simp [hq])
    · exact Or.inl rfl

/-! ## What a step is -/

/-- What an effect of thread `i` leaves. -/
inductive Applied (cfg : Config) (s : Sys) (i k : Nat) (th : Thread) : Effect → Sys → Prop
  | none : Applied cfg s i k th .none s
  | child (pid group : Nat) (identity : Option String) :
    Applied cfg s i k th (.child pid group identity)
      { s with
        processes := Function.update s.processes pid (some ⟨s.births, group, identity⟩)
        births := s.births + 1 }
  | own (owner : ExecutionOwner) (svc : Nat) :
    Applied cfg s i k th (.own owner) { s with owners := Function.update s.owners svc (some owner) }
  | cancelFuture (j : String) (svc : Nat) : Applied cfg s i k th (.cancelFuture j) (s.cancelFuture svc j)
  | execute (spec : JobSpec) (svc : Nat) (of_service : th.service = some svc) (was_none : (s.threads k).isNone = true) :
    Applied cfg s i k th (.execute spec) (s.execute svc k spec)
  | adapterRun (b : Beat) (run : AdapterRun) (entry_eq : th.adapterEntry cfg i = some (b, run))
      (was_none : (s.threads k).isNone = true) :
    Applied cfg s i k th .adapterRun
      { s with
        threads := Function.update s.threads k (.beat b .wait)
        history := { s.history with adapterRuns := s.history.adapterRuns ++ [run] } }

theorem apply_cases {i k : Nat} {th : Thread} {eff : Effect} (h : s.apply cfg i k th eff = some s') :
    Applied cfg s i k th eff s' := by
  cases eff with
  | none => cases h; exact .none
  | child pid group identity =>
    simp only [apply] at h
    split at h
    · cases h; exact .child pid group identity
    · cases h
  | own owner =>
    obtain ⟨svc, -, rfl⟩ := Option.map_eq_some_iff.1 h
    exact .own owner svc
  | cancelFuture j =>
    obtain ⟨svc, -, rfl⟩ := Option.map_eq_some_iff.1 h
    exact .cancelFuture j svc
  | execute spec =>
    simp only [apply] at h
    split at h
    · cases h
    · rename_i svc hsvc
      split at h
      · rename_i hnone
        cases h
        exact .execute spec svc hsvc hnone
      · cases h
  | adapterRun =>
    simp only [apply] at h
    split at h
    · cases h
    · rename_i b run hentry
      split at h
      · rename_i hnone
        cases h
        exact .adapterRun b run hentry hnone
      · cases h

/-- What a step is, with the state it leaves. -/
inductive Stepped (cfg : Config) (s : Sys) : Act → Sys → Prop
  | tick (now : Time) (le : s.clock ≤ now) : Stepped cfg s (.tick now) { s with clock := now }
  | start (i : Nat) (th : Thread) (was_none : (s.threads i).isNone = true) (is_entry : th.isEntry = true) :
    Stepped cfg s (.start i th) { s with threads := Function.update s.threads i th }
  | spawn (pid group : Nat) (identity : Option String) :
    Stepped cfg s (.spawn pid group identity)
      { s with
        processes := Function.update s.processes pid (some ⟨s.births, group, identity⟩)
        births := s.births + 1 }
  | exit (pid : Nat) :
    Stepped cfg s (.exit pid) { s with processes := Function.update s.processes pid none }
  | call (i : Nat) (fresh : String) (locked : List String) (op : StoreOp) (s' : Sys)
      (called : Called cfg s i fresh locked op s') : Stepped cfg s (.call i fresh locked) s'
  | advance (i k : Nat) (fresh : String) (inp : Input) (th : Thread) (eff : Effect) (s' : Sys)
      (advanced : Advanced cfg s i k fresh inp th eff) (applied : Applied cfg (s.put i fresh th) i k th eff s') :
    Stepped cfg s (.advance i k fresh inp) s'

/-- **Every step is one of these.** -/
theorem step_cases {a : Act} (h : Sys.step cfg s a = some s') : Stepped cfg s a s' := by
  cases a with
  | tick now =>
    simp only [step] at h
    split at h
    · rename_i hle
      cases h
      exact .tick now hle
    · cases h
  | start i th =>
    simp only [step] at h
    split at h
    · rename_i hg
      simp only [Bool.and_eq_true] at hg
      cases h
      exact .start i th hg.1 hg.2
    · cases h
  | spawn pid group identity =>
    simp only [step] at h
    split at h
    · cases h; exact .spawn pid group identity
    · cases h
  | exit pid =>
    simp only [step] at h
    cases h
    exact .exit pid
  | call i fresh locked =>
    obtain ⟨op, hc⟩ := call_some h
    exact .call i fresh locked op s' hc
  | advance i k fresh inp =>
    obtain ⟨th, eff, hadv, happ⟩ := proceed_some h
    exact .advance i k fresh inp th eff s' hadv (apply_cases happ)

/-- An effect leaves the database, the clock and the record of children. -/
theorem Applied.frame {i k : Nat} {th : Thread} {eff : Effect} (h : Applied cfg s i k th eff s') :
    s'.db = s.db ∧ s'.clock = s.clock ∧ s'.recorded = s.recorded := by
  cases h with
  | cancelFuture j svc =>
    obtain ⟨threads, heq⟩ := cancelFuture_eq (s := s) svc j
    rw [heq]
    exact ⟨rfl, rfl, rfl⟩
  | _ => exact ⟨rfl, rfl, rfl⟩

/-- **What a step can do to the database**: nothing, or one store call of a thread. -/
theorem step_db {a : Act} (h : Sys.step cfg s a = some s') :
    s'.db = s.db ∨ ∃ i fresh locked op, a = .call i fresh locked ∧ Called cfg s i fresh locked op s' := by
  cases step_cases h with
  | call i fresh locked op _ hc => exact Or.inr ⟨i, fresh, locked, op, rfl, hc⟩
  | advance _ _ _ _ _ _ _ _ happ => exact Or.inl happ.frame.1
  | _ => exact Or.inl rfl

/-- The clock does not go back. -/
theorem step_clock {a : Act} (h : Sys.step cfg s a = some s') : s.clock ≤ s'.clock := by
  cases step_cases h with
  | tick now hle => exact hle
  | call _ _ _ _ _ hc => exact le_of_eq hc.clock_eq.symm
  | advance _ _ _ _ _ _ _ _ happ => exact le_of_eq happ.frame.2.1.symm
  | _ => exact le_refl _

end Sys

/-- A thread stays a thread. -/
theorem Thread.advance_isNone {cfg : Config} {s : Sys} {th th' : Thread} {eff : Effect} {k : Nat} {fresh : String}
    {inp : Input} (h : th.advance cfg s k fresh inp = some (th', eff)) : th.isNone = false ∧ th'.isNone = false := by
  cases th with
  | none => cases h
  | _ =>
    obtain ⟨x, -, hx⟩ := Option.map_eq_some_iff.1 h
    cases hx
    exact ⟨rfl, rfl⟩

/-- The steps of `_execute` that call no store. -/
inductive ExecPc.Advance (svc : Service) (spec : JobSpec) (births : Nat) : ExecPc → ExecPc → Effect → Prop
  | begin : Advance svc spec births .pending .start .none
  | launch (n : Nat) (t : String) : Advance svc spec births (.launch n t) (.adapter n t) .adapterRun
  | child (n : Nat) (t : String) (pid group : Nat) (identity : Option String) :
    Advance svc spec births (.adapter n t) (.spawned n t ⟨pid, births⟩) (.child pid group identity)
  | returned (n : Nat) (t : String) (r : AdapterReturn) : Advance svc spec births (.adapter n t) (.collect n t r) .none
  | raised (n : Nat) (t : String) (e : AdapterError) :
    Advance svc spec births (.adapter n t) (adapterRaised svc spec n t e) .none
  | observed (n : Nat) (t : String) (o : Observation) :
    Advance svc spec births (.spawned n t o.child) (.observe n t o) .none

theorem ExecPc.advance_cases {svc : Service} {spec : JobSpec} {clock : Time}
    {observed : Nat → Option (Nat × Option String)} {births : Nat} {inp : Input} {pc pc' : ExecPc} {eff : Effect}
    (h : pc.advance svc spec clock observed births inp = some (pc', eff)) : Advance svc spec births pc pc' eff := by
  cases pc with
  | pending =>
    cases inp with
    | go => cases h; exact .begin
    | _ => cases h
  | launch n t =>
    cases inp with
    | go => cases h; exact .launch n t
    | _ => cases h
  | adapter n t =>
    cases inp with
    | child pid group identity => cases h; exact .child n t pid group identity
    | returned r => cases h; exact .returned n t r
    | raised e =>
      obtain ⟨rfl, rfl⟩ := Prod.mk.inj (Option.some.inj h)
      exact .raised n t e
    | _ => cases h
  | spawned n t c =>
    cases inp with
    | ps answered => cases h; exact .observed n t ⟨c, _, _, _, _⟩
    | _ => cases h
  | _ => cases h

theorem DrainPc.advance_effect {svc : Service} {owner : Option ExecutionOwner} {live : String → Bool} {clock : Time}
    {observed : Nat → Option (Nat × Option String)} {result : Nat → Option FutureResult} {child : Nat} {fresh : String}
    {inp : Input} {d d' : Drain} {pc pc' : DrainPc} {eff : Effect}
    (h : pc.advance svc owner live clock observed result child fresh inp d = some (d', pc', eff)) :
    eff = .none ∨ ∃ spec, pc = .dispatch spec ∧ eff = .execute spec := by
  cases pc with
  | enter => cases h; exact Or.inl rfl
  | recovering r =>
    obtain ⟨x, -, hx⟩ := Option.map_eq_some_iff.1 h
    cases hx
    exact Or.inl rfl
  | loop =>
    simp only [DrainPc.advance] at h
    split at h <;> cases h <;> exact Or.inl rfl
  | slots => cases h; exact Or.inl rfl
  | wait =>
    simp only [DrainPc.advance] at h
    split at h
    · cases h; exact Or.inl rfl
    · cases h
  | dispatch spec => cases h; exact Or.inr ⟨spec, rfl, rfl⟩
  | collect rest =>
    cases rest with
    | nil => cases h; exact Or.inl rfl
    | cons f rest =>
      simp only [DrainPc.advance] at h
      split at h
      · cases h; exact Or.inl rfl
      · cases h; exact Or.inl rfl
      · cases h
  | _ => cases h

theorem AgentPc.advance_effect {svc : Service} {self : ExecutionOwner} {owner : Option ExecutionOwner}
    {live : String → Bool} {clock : Time} {observed : Nat → Option (Nat × Option String)}
    {result : Nat → Option FutureResult} {child : Nat} {fresh : String} {inp : Input} {d d' : Drain} {pc pc' : AgentPc}
    {eff : Effect} (h : pc.advance svc self owner live clock observed result child fresh inp d = some (d', pc', eff)) :
    eff = .none ∨ eff = .own self ∨ ∃ spec, pc = .drain (.dispatch spec) ∧ eff = .execute spec := by
  cases pc with
  | enter => cases h; exact Or.inl rfl
  | own =>
    simp only [AgentPc.advance] at h
    split at h
    · cases h; exact Or.inr (Or.inl rfl)
    · cases h; exact Or.inl rfl
  | drain pc =>
    obtain ⟨x, hx, hx'⟩ := Option.map_eq_some_iff.1 h
    cases hx'
    rcases DrainPc.advance_effect hx with he | ⟨spec, rfl, he⟩
    · exact Or.inl he
    · exact Or.inr (Or.inr ⟨spec, rfl, he⟩)
  | _ => cases h

/-- The steps of `run_once` that call no store. -/
inductive SupervisorPc.Advance : SupervisorPc → SupervisorPc → Effect → Prop
  | launch (req : ExecutionRequestRow) : Advance (.ready req) (.running req) .adapterRun
  | child (req : ExecutionRequestRow) (pid group : Nat) (identity : Option String) :
    Advance (.running req) (.started req pid) (.child pid group identity)
  | returned (req : ExecutionRequestRow) (w : Witness) (r : AdapterReturn) :
    Advance (.running req) (.witness req w (some r)) .none
  | unread (req : ExecutionRequestRow) : Advance (.running req) .raised .none
  | raised (req : ExecutionRequestRow) (message : String) : Advance (.running req) (adapterFailed req message) .none

theorem SupervisorPc.advance_cases {inp : Input} {pc pc' : SupervisorPc} {eff : Effect}
    (h : pc.advance inp = some (pc', eff)) : Advance pc pc' eff := by
  cases pc with
  | ready req =>
    cases inp with
    | go => cases h; exact .launch req
    | _ => cases h
  | running req =>
    cases inp with
    | child pid group identity => cases h; exact .child req pid group identity
    | returned r =>
      simp only [SupervisorPc.advance] at h
      split at h
      · cases h; exact .unread req
      · cases h; exact .returned req _ r
    | raised e => cases e <;> cases h <;> exact .raised req _
    | _ => cases h
  | _ => cases h

theorem SubmitPc.advance_effect {svc : Service} {spec : JobSpec} {n : Nat} {pc pc' : SubmitPc} {eff : Effect}
    (h : pc.advance svc spec n = some (pc', eff)) : eff = .none ∨ (pc = .dispatch ∧ eff = .execute spec) := by
  cases pc with
  | limit =>
    simp only [SubmitPc.advance] at h
    split at h
    · cases h; exact Or.inl rfl
    · split at h <;> cases h <;> exact Or.inl rfl
  | dispatch => cases h; exact Or.inr ⟨rfl, rfl⟩
  | _ => cases h

/-- Only `cancel` cancels a future. -/
theorem Thread.advance_cancelFuture {cfg : Config} {s : Sys} {th th' : Thread} {k : Nat} {fresh : String} {inp : Input}
    {j : String} (h : th.advance cfg s k fresh inp = some (th', .cancelFuture j)) :
      ∃ svc j' pc, th' = .cancel svc j' pc := by
  cases th with
  | none => cases h
  | cancel svc j' pc =>
    obtain ⟨⟨pc', eff⟩, -, hx⟩ := Option.map_eq_some_iff.1 h
    cases hx
    exact ⟨svc, j', pc', rfl⟩
  | submit svc spec pc =>
    obtain ⟨⟨pc', eff⟩, hx, hx'⟩ := Option.map_eq_some_iff.1 h
    cases hx'
    rcases SubmitPc.advance_effect hx with he | ⟨-, he⟩ <;> cases he
  | exec svc spec pc =>
    obtain ⟨⟨pc', eff⟩, hx, hx'⟩ := Option.map_eq_some_iff.1 h
    cases hx'
    cases ExecPc.advance_cases hx
  | beat b pc => obtain ⟨x, -, hx'⟩ := Option.map_eq_some_iff.1 h; cases hx'
  | recover svc pc => obtain ⟨x, -, hx'⟩ := Option.map_eq_some_iff.1 h; cases hx'
  | drain svc d pc =>
    obtain ⟨⟨d', pc', eff⟩, hx, hx'⟩ := Option.map_eq_some_iff.1 h
    cases hx'
    rcases DrainPc.advance_effect hx with he | ⟨_, -, he⟩ <;> cases he
  | agent svc self d pc =>
    obtain ⟨⟨d', pc', eff⟩, hx, hx'⟩ := Option.map_eq_some_iff.1 h
    cases hx'
    rcases AgentPc.advance_effect hx with he | he | ⟨_, -, he⟩ <;> cases he
  | supervisor sup pc =>
    obtain ⟨⟨pc', eff⟩, hx, hx'⟩ := Option.map_eq_some_iff.1 h
    cases hx'
    cases SupervisorPc.advance_cases hx

/-- There is always a `uuid4` left. -/
theorem Sys.exists_fresh (s : Sys) : ∃ fresh, s.isFresh fresh = true := by
  obtain ⟨fresh, hf⟩ := Infinite.exists_notMem_finset ("" :: s.tokens).toFinset
  simp only [List.toFinset_cons, Finset.mem_insert, List.mem_toFinset, not_or] at hf
  exact ⟨fresh, by simp [Sys.isFresh, hf.1, hf.2]⟩

/-! ## What a step can do to one thread -/

inductive ThreadChange (cfg : Config) (s : Sys) (a : Act) (s' : Sys) (q : Nat) : Prop
  | same (threads_eq : s'.threads q = s.threads q)
  | entered (th : Thread) (is_act : a = .start q th) (was_none : (s.threads q).isNone = true)
      (is_entry : th.isEntry = true) (threads_eq : s'.threads q = th)
  | called (fresh : String) (locked : List String) (op : StoreOp) (is_act : a = .call q fresh locked)
      (call : Sys.Called cfg s q fresh locked op s')
      (threads_eq : s'.threads q = (s.threads q).resume cfg s fresh (op.reply cfg.backend s.clock s.db))
  | advanced (k : Nat) (fresh : String) (inp : Input) (th : Thread) (eff : Effect) (is_act : a = .advance q k fresh inp)
      (adv : Advanced cfg s q k fresh inp th eff) (threads_eq : s'.threads q = th)
  | executed (i : Nat) (fresh : String) (inp : Input) (th : Thread) (spec : JobSpec) (svc : Nat)
      (is_act : a = .advance i q fresh inp) (adv : Advanced cfg s i q fresh inp th (.execute spec))
      (of_service : th.service = some svc) (was_none : (s.threads q).isNone = true)
      (threads_eq : s'.threads q = .exec svc spec .pending) (parent_eq : s'.threads i = th)
  | beat (i : Nat) (fresh : String) (inp : Input) (th : Thread) (b : Beat) (run : AdapterRun)
      (is_act : a = .advance i q fresh inp) (adv : Advanced cfg s i q fresh inp th .adapterRun)
      (entry_eq : th.adapterEntry cfg i = some (b, run)) (was_none : (s.threads q).isNone = true)
      (threads_eq : s'.threads q = .beat b .wait)
  | cancelled (svc : Nat) (spec : JobSpec) (was_pending : s.threads q = .exec svc spec .pending)
      (threads_eq : s'.threads q = .exec svc spec .cancelled)

theorem thread_after_advance {cfg : Config} {s s' : Sys} {i k : Nat} {fresh : String} {inp : Input} {th : Thread}
    {eff : Effect} (q : Nat) (hadv : Advanced cfg s i k fresh inp th eff)
    (happ : Sys.Applied cfg (s.put i fresh th) i k th eff s') : ThreadChange cfg s (.advance i k fresh inp) s' q := by
  obtain ⟨hsome, hth⟩ := Thread.advance_isNone hadv.advance_eq
  have hput : ∀ x, (s.put i fresh th).threads x = if x = i then th else s.threads x := by
    intro x
    simp only [Sys.put, Function.update_apply]
  -- an effect that leaves the threads, and one that starts thread `k`
  have hkeep : s'.threads = (s.put i fresh th).threads → ThreadChange cfg s (.advance i k fresh inp) s' q := by
    intro heq
    by_cases hq : q = i
    · subst hq
      exact .advanced k fresh inp th eff rfl hadv (by rw [heq, hput, if_pos rfl])
    · exact .same (by rw [heq, hput, if_neg hq])
  have hfork : ∀ new, ((s.put i fresh th).threads k).isNone = true →
      s'.threads = Function.update (s.put i fresh th).threads k new →
      (q = k ∧ (s.threads q).isNone = true ∧ s'.threads q = new ∧ s'.threads i = th) ∨
        ThreadChange cfg s (.advance i k fresh inp) s' q := by
    intro new hnone heq
    have hne : k ≠ i := by
      rintro rfl
      rw [hput, if_pos rfl, hth] at hnone
      cases hnone
    rw [hput, if_neg hne] at hnone
    by_cases hk : q = k
    · subst hk
      refine Or.inl ⟨rfl, hnone, by rw [heq, Function.update_self], ?_⟩
      rw [heq, Function.update_of_ne (Ne.symm hne), hput, if_pos rfl]
    · right
      have hold : s'.threads q = (s.put i fresh th).threads q := by rw [heq, Function.update_of_ne hk]
      by_cases hq : q = i
      · subst hq
        exact .advanced k fresh inp th eff rfl hadv (by rw [hold, hput, if_pos rfl])
      · exact .same (by rw [hold, hput, if_neg hq])
  cases happ with
  | none => exact hkeep rfl
  | child pid group identity => exact hkeep rfl
  | own owner svc => exact hkeep rfl
  | adapterRun b run hentry hnone =>
    rcases hfork (.beat b .wait) hnone rfl with ⟨rfl, hq, hnew, -⟩ | hc
    · exact .beat i fresh inp th b run rfl hadv hentry hq hnew
    · exact hc
  | execute spec svc hsvc hnone =>
    rcases hfork (.exec svc spec .pending) hnone rfl with ⟨rfl, hq, hnew, hparent⟩ | hc
    · exact .executed i fresh inp th spec svc rfl hadv hsvc hq hnew hparent
    · exact hc
  | cancelFuture j svc =>
    rcases Sys.cancelFuture_threads (s := s.put i fresh th) svc j q with hsame | ⟨v, spec, hpend, hnow⟩
    · by_cases hq : q = i
      · subst hq
        exact .advanced k fresh inp th _ rfl hadv (by rw [hsame, hput, if_pos rfl])
      · exact .same (by rw [hsame, hput, if_neg hq])
    · have hq : q ≠ i := by
        rintro rfl
        obtain ⟨v', j', pc, rfl⟩ := Thread.advance_cancelFuture hadv.advance_eq
        rw [hput, if_pos rfl] at hpend
        cases hpend
      rw [hput, if_neg hq] at hpend
      exact .cancelled v spec hpend hnow

/-- **What a step can do to one thread.** -/
theorem thread_after {cfg : Config} {s s' : Sys} {a : Act} (q : Nat) (h : Sys.step cfg s a = some s') :
    ThreadChange cfg s a s' q := by
  cases Sys.step_cases h with
  | start i th hnone hentry =>
    by_cases hq : q = i
    · subst hq
      exact .entered th rfl hnone hentry (by simp)
    · exact .same (by simp [hq])
  | call i fresh locked op _ hc =>
    by_cases hq : q = i
    · subst hq
      exact .called fresh locked op rfl hc (by rw [hc.threads_eq, Function.update_self])
    · exact .same (by rw [hc.threads_eq, Function.update_of_ne hq])
  | advance i k fresh inp th eff _ hadv happ => exact thread_after_advance q hadv happ
  | _ => exact .same rfl

/-- The thread of an `advance` moves on. -/
theorem advanced_thread {cfg : Config} {s s' : Sys} {i k : Nat} {fresh : String} {inp : Input}
    (h : Sys.step cfg s (.advance i k fresh inp) = some s') :
    ∃ th eff, Advanced cfg s i k fresh inp th eff ∧ s'.threads i = th := by
  obtain ⟨th, eff, hadv, happ⟩ := Sys.proceed_some h
  refine ⟨th, eff, hadv, ?_⟩
  have hparty := (Thread.advance_isNone hadv.advance_eq).2
  have hput : (s.put i fresh th).threads i = th := Function.update_self ..
  have hfork : ((s.put i fresh th).threads k).isNone = true → i ≠ k := by
    rintro hnone rfl
    rw [hput, hparty] at hnone
    cases hnone
  cases Sys.apply_cases happ with
  | adapterRun b run _ hnone => exact (Function.update_of_ne (hfork hnone) ..).trans hput
  | execute spec svc _ hnone => exact (Function.update_of_ne (hfork hnone) ..).trans hput
  | cancelFuture j svc =>
    rcases Sys.cancelFuture_threads (s := s.put i fresh th) svc j i with hsame | ⟨v, spec, hpend, -⟩
    · exact hsame.trans hput
    · obtain ⟨v', j', pc, rfl⟩ := Thread.advance_cancelFuture hadv.advance_eq
      rw [hput] at hpend
      cases hpend
  | _ => exact hput

/-- Where the program counter of a supervisor comes from. -/
inductive SupervisorChange (cfg : Config) (s : Sys) (a : Act) (s' : Sys) (q : Nat) (sup : Supervisor) (pc' : SupervisorPc) :
    Prop
  | same (was : s.threads q = .supervisor sup pc')
  | entered (is_act : a = .start q (.supervisor sup .claim)) (pc_eq : pc' = .claim)
  | called (pc : SupervisorPc) (fresh : String) (locked : List String) (op : StoreOp)
      (was : s.threads q = .supervisor sup pc) (is_act : a = .call q fresh locked)
      (call : Sys.Called cfg s q fresh locked op s') (is_op : pc.op sup locked = some op)
      (pc_eq : pc' = pc.resume (op.reply cfg.backend s.clock s.db))
  | advanced (pc : SupervisorPc) (eff : Effect) (was : s.threads q = .supervisor sup pc) (k : Nat) (fresh : String)
      (inp : Input) (is_act : a = .advance q k fresh inp) (adv : SupervisorPc.Advance pc pc' eff)

theorem supervisor_after {cfg : Config} {s s' : Sys} {a : Act} {q : Nat} {sup : Supervisor} {pc' : SupervisorPc}
    (h : Sys.step cfg s a = some s') (hq : s'.threads q = .supervisor sup pc') :
    SupervisorChange cfg s a s' q sup pc' := by
  cases thread_after q h with
  | same heq => exact .same (by rw [← heq, hq])
  | entered th hact _ hentry heq =>
    rw [hq] at heq
    subst heq
    cases pc' with
    | claim => exact .entered hact rfl
    | _ => cases hentry
  | called fresh locked op hact hc heq =>
    rw [hq] at heq
    have hop := hc.is_op
    cases hth : s.threads q with
    | supervisor sup₀ pc =>
      rw [hth] at heq hop
      cases heq
      exact .called pc fresh locked op hth hact hc hop rfl
    | _ => rw [hth] at heq; cases heq
  | advanced k fresh inp th eff hact hadv heq =>
    rw [hq] at heq
    subst heq
    have hx := hadv.advance_eq
    cases hth : s.threads q with
    | none => rw [hth] at hx; cases hx
    | supervisor sup₀ pc =>
      rw [hth] at hx
      obtain ⟨⟨pc₁, eff₁⟩, hy, hy'⟩ := Option.map_eq_some_iff.1 hx
      cases hy'
      exact .advanced pc _ hth k fresh inp hact (SupervisorPc.advance_cases hy)
    | _ =>
      rw [hth] at hx
      obtain ⟨x, -, hx'⟩ := Option.map_eq_some_iff.1 hx
      cases hx'
  | executed _ _ _ _ _ _ _ _ _ _ heq => rw [hq] at heq; cases heq
  | beat _ _ _ _ _ _ _ _ _ _ heq => rw [hq] at heq; cases heq
  | cancelled _ _ _ heq => rw [hq] at heq; cases heq

/-- A party stays a party. -/
theorem thread_persists {cfg : Config} {s s' : Sys} {a : Act} (q : Nat) (h : Sys.step cfg s a = some s')
    (hq : (s.threads q).isNone = false) : (s'.threads q).isNone = false := by
  cases thread_after q h with
  | same heq => rw [heq]; exact hq
  | entered _ _ hnone => rw [hq] at hnone; cases hnone
  | called fresh locked op _ _ heq =>
    rw [heq]
    cases hth : s.threads q with
    | none => rw [hth] at hq; cases hq
    | _ => rfl
  | advanced k fresh inp th eff _ hadv heq =>
    rw [heq]
    exact (Thread.advance_isNone hadv.advance_eq).2
  | executed _ _ _ _ _ _ _ _ _ hnone => rw [hq] at hnone; cases hnone
  | beat _ _ _ _ _ _ _ _ _ hnone => rw [hq] at hnone; cases hnone
  | cancelled _ _ _ heq => rw [heq]; rfl

/-! ## What a step can do to the history -/

inductive HistoryChange (cfg : Config) (s : Sys) (a : Act) (s' : Sys) : Prop
  | same (history_eq : s'.history = s.history)
  | kept (i svc : Nat) (spec : JobSpec) (thread_eq : s.threads i = .submit svc spec .create)
      (is_local : (cfg.service svc).executionMode = .local)
      (history_eq : s'.history = { s.history with kept := s.history.kept ++ [spec.jobId] })
  | claimed (i : Nat) (fresh : String) (locked : List String) (op : StoreOp) (p : Option JobSpec)
      (is_act : a = .call i fresh locked) (call : Sys.Called cfg s i fresh locked op s')
      (replied : op.reply cfg.backend s.clock s.db = .payload p)
      (history_eq : s'.history = { s.history with
        claims := s.history.claims ++ ((PostgresStore.nextQueued s.db locked).map (·.jobId)).toList })
  | requested (i : Nat) (fresh : String) (locked : List String) (sup : Supervisor) (req : ExecutionRequestRow)
      (is_act : a = .call i fresh locked) (thread_eq : s.threads i = .supervisor sup .claim)
      (call : Sys.Called cfg s i fresh locked (.claimExecutionRequest sup.hostId sup.supervisorId locked) s')
      (replied : (StoreOp.claimExecutionRequest sup.hostId sup.supervisorId locked).reply cfg.backend s.clock s.db =
        .request (some req))
      (history_eq : s'.history = { s.history with requests := s.history.requests ++ [req.executionId] })
  | launched (i k : Nat) (fresh : String) (inp : Input) (th : Thread) (b : Beat) (run : AdapterRun)
      (is_act : a = .advance i k fresh inp) (adv : Advanced cfg s i k fresh inp th .adapterRun)
      (entry_eq : th.adapterEntry cfg i = some (b, run)) (threads_eq : s'.threads i = th)
      (history_eq : s'.history = { s.history with adapterRuns := s.history.adapterRuns ++ [run] })

theorem Sys.historyAfter_payload (cfg : Config) (s : Sys) (th : Thread) (locked : List String) (p : Option JobSpec) :
    s.historyAfter cfg th locked (.payload p) =
      { s.history with claims := s.history.claims ++ ((PostgresStore.nextQueued s.db locked).map (·.jobId)).toList } := by
  unfold Sys.historyAfter
  split
  · rename_i hrep; cases hrep
  · rename_i hrep; cases hrep
  · rfl
  · rename_i hno _ _; exact (hno _ rfl).elim

theorem history_after {cfg : Config} {s s' : Sys} {a : Act} (h : Sys.step cfg s a = some s') :
    HistoryChange cfg s a s' := by
  cases Sys.step_cases h with
  | call i fresh locked op _ hc =>
    have heq := hc.history_eq
    unfold Sys.historyAfter at heq
    split at heq
    · rename_i sup req hth hrep
      have hop := hc.is_op
      rw [hth] at hop
      cases hop
      exact .requested i fresh locked sup req rfl hth hc hrep heq
    · rename_i svc spec hth _
      split at heq
      · rename_i hlocal
        exact .kept i svc spec hth hlocal heq
      · exact .same heq
    · rename_i p hrep
      exact .claimed i fresh locked op p rfl hc hrep heq
    · exact .same heq
  | advance i k fresh inp th eff _ hadv happ =>
    cases happ with
    | cancelFuture j svc =>
      obtain ⟨threads, heq⟩ := Sys.cancelFuture_eq (s := s.put i fresh th) svc j
      exact .same (by rw [heq]; rfl)
    | adapterRun b run hentry hnone =>
      have hne : k ≠ i := by
        rintro rfl
        simp only [Sys.put, Function.update_self] at hnone
        rw [(Thread.advance_isNone hadv.advance_eq).2] at hnone
        cases hnone
      refine .launched i k fresh inp th b run rfl hadv hentry ?_ rfl
      simp only [Sys.put, Function.update_of_ne (Ne.symm hne), Function.update_self]
    | _ => exact .same rfl
  | _ => exact .same rfl

/-! ## What the parties call -/

/-- The calls of a scan. -/
inductive RecoverPc.Calls (svc : Service) : RecoverPc → StoreOp → Prop
  | expired (cutoff : Time) : Calls svc (.expired cutoff) .listExpiredLeasedAttempts
  | stale (cutoff : Time) (es : List (String × Nat)) : Calls svc (.stale cutoff es) (.staleRunning cutoff)
  | read (es : List (String × Nat)) (id : String) (ids : List String) (runs : List Snapshot) :
    Calls svc (.read es (id :: ids) runs) (.getRun id)
  | failNoAttempt (sc : Scan) (run : Snapshot) :
    Calls svc (.failNoAttempt sc run)
      (.updateRun run.jobId { status := some .failed, error := some (some noAttemptError) })
  | gate (sc : Scan) (run : Snapshot) (a : AttemptRow) :
    Calls svc (.gate sc run a) (.getTerminationWitness a.executionId)
  | claim (sc : Scan) (run : Snapshot) (a : AttemptRow) (t : String) :
    Calls svc (.claim sc run a t) (.claimRecovery run.jobId a.attemptNo svc.workerId t svc.recoveryLeaseSeconds)
  | release (sc : Scan) (run : Snapshot) (a : AttemptRow) (t : String) (why : ReleaseReason) :
    Calls svc (.release sc run a t why) (.releaseRecoveryClaim run.jobId a.attemptNo t)
  | witness (sc : Scan) (run : Snapshot) (a : AttemptRow) (t : String) :
    Calls svc (.witness sc run a t) (.getTerminationWitness a.executionId)
  | finalize (sc : Scan) (run : Snapshot) (a : AttemptRow) (t et e : String) :
    Calls svc (.finalize sc run a t et e) (.finalizeRecovery run.jobId a.attemptNo t et e)

theorem RecoverPc.op_cases {svc : Service} {r : RecoverPc} {op : StoreOp} (h : r.op svc = some op) : Calls svc r op := by
  cases r with
  | read es ids runs =>
    cases ids with
    | nil => cases h
    | cons id ids => cases h; exact .read es id ids runs
  | enter => cases h
  | scan => cases h
  | lease => cases h
  | probe => cases h
  | inspect => cases h
  | kill => cases h
  | returned => cases h
  | raised => cases h
  | _ => cases h; constructor

/-- The scan a thread is in. -/
def Thread.recovery : Thread → Option RecoverPc
  | .recover _ r                          => some r
  | .drain _ _ (.recovering r)            => some r
  | .agent _ _ _ (.drain (.recovering r)) => some r
  | _                                     => Option.none

theorem Thread.recovery_op (cfg : Config) (s : Sys) (locked : List String) {th : Thread} {r : RecoverPc}
    (h : th.recovery = some r) : ∃ svc, th.service = some svc ∧ th.op cfg s locked = r.op (cfg.service svc) := by
  cases th with
  | recover svc r' => cases h; exact ⟨svc, rfl, rfl⟩
  | drain svc d pc =>
    cases pc with
    | recovering r' => cases h; exact ⟨svc, rfl, rfl⟩
    | _ => cases h
  | agent svc self d pc =>
    cases pc with
    | drain pc =>
      cases pc with
      | recovering r' => cases h; exact ⟨svc, rfl, rfl⟩
      | _ => cases h
    | _ => cases h
  | _ => cases h

/-- The calls of a thread: those of its machine, where a worker's are its scan's, its queue's and its session's. -/
inductive Thread.Calls (cfg : Config) (s : Sys) (locked : List String) : Thread → StoreOp → Prop
  | submit (svc : Nat) (spec : JobSpec) (pc : SubmitPc) (op : StoreOp)
      (call : pc.op (cfg.service svc) cfg.specHash spec = some op) : Calls cfg s locked (.submit svc spec pc) op
  | cancel (svc : Nat) (j : String) :
    Calls cfg s locked (.cancel svc j .write) (.updateRun j
      { status := some .cancelled, trustStatus := some .invalid, error := some (some "cancelled before execution") })
  | exec (svc : Nat) (spec : JobSpec) (pc : ExecPc) (op : StoreOp)
      (call : pc.op (cfg.service svc) spec (s.owners svc) = some op) : Calls cfg s locked (.exec svc spec pc) op
  | beat (b : Beat) (pc : BeatPc) (op : StoreOp) (call : pc.op b = some op) : Calls cfg s locked (.beat b pc) op
  | scan (svc : Nat) (r : RecoverPc) (th : Thread) (op : StoreOp) (scans : th.recovery = some r)
      (call : r.op (cfg.service svc) = some op) : Calls cfg s locked th op
  | releaseTerminal (th : Thread) : Calls cfg s locked th .releaseTerminalExecutionRequests
  | capacity (th : Thread) (hostId : String) : Calls cfg s locked th (.countActiveExecutionRequests hostId)
  | claim (th : Thread) (is_claim : th.isClaim = true) : Calls cfg s locked th (.claimNextRun locked)
  | start (svc : Nat) (self : ExecutionOwner) (d : Drain) :
    Calls cfg s locked (.agent svc self d .start) (.startHostSession self (cfg.service svc).leaseSeconds)
  | session (svc : Nat) (self : ExecutionOwner) (d : Drain) :
    Calls cfg s locked (.agent svc self d .session)
      (.heartbeatHostSession self.sessionId (cfg.service svc).leaseSeconds)
  | refresh (svc : Nat) (self : ExecutionOwner) (d : Drain) :
    Calls cfg s locked (.agent svc self d .refresh)
      (.heartbeatQueuedExecutionAttempts self.sessionId (cfg.service svc).leaseSeconds)
  | supervisor (sup : Supervisor) (pc : SupervisorPc) (op : StoreOp) (call : pc.op sup locked = some op) :
    Calls cfg s locked (.supervisor sup pc) op

/-- **Every store call is one of these.** -/
theorem Thread.op_cases {cfg : Config} {s : Sys} {locked : List String} {th : Thread} {op : StoreOp}
    (h : th.op cfg s locked = some op) : Calls cfg s locked th op := by
  -- the worker's own, for the drain of a worker and of a Host Agent
  have hdrain : ∀ {svc : Nat} {pc : DrainPc}, pc.op (cfg.service svc) (s.owners svc) locked = some op →
      (∀ r, pc = .recovering r → th.recovery = some r) → (pc = .claim → th.isClaim = true) →
      Calls cfg s locked th op := by
    intro svc pc hpc hscan hclaim
    cases pc with
    | recovering r => exact .scan svc r th op (hscan r rfl) hpc
    | releaseTerminal => cases hpc; exact .releaseTerminal th
    | capacity =>
      obtain ⟨o, -, rfl⟩ := Option.map_eq_some_iff.1 hpc
      exact .capacity th o.hostId
    | claim => cases hpc; exact .claim th (hclaim rfl)
    | _ => cases hpc
  cases th with
  | none => cases h
  | submit svc spec pc => exact .submit svc spec pc op h
  | cancel svc j pc =>
    cases pc with
    | write => cases h; exact .cancel svc j
    | _ => cases h
  | exec svc spec pc => exact .exec svc spec pc op h
  | beat b pc => exact .beat b pc op h
  | recover svc r => exact .scan svc r _ op rfl h
  | drain svc d pc =>
    exact hdrain h (fun r hr => by rw [hr]; rfl) (fun hc => by rw [hc]; rfl)
  | agent svc self d pc =>
    cases pc with
    | drain pc => exact hdrain h (fun r hr => by rw [hr]; rfl) (fun hc => by rw [hc]; rfl)
    | start => cases h; exact .start svc self d
    | session => cases h; exact .session svc self d
    | refresh => cases h; exact .refresh svc self d
    | _ => cases h
  | supervisor sup pc => exact .supervisor sup pc op h

/-- The `update_run` of a thread: the job and the status it writes whatever the Run's is. -/
def RecoverPc.unfencedWrite : RecoverPc → Option (String × RunStatus)
  | .failNoAttempt _ run => some (run.jobId, .failed)
  | _                    => none

def Thread.unfencedWrite : Thread → Option (String × RunStatus)
  | .exec _ spec .start                      => some (spec.jobId, .running)
  | .cancel _ j .write                       => some (j, .cancelled)
  | .recover _ r                             => r.unfencedWrite
  | .drain _ _ (.recovering r)               => r.unfencedWrite
  | .agent _ _ _ (.drain (.recovering r))    => r.unfencedWrite
  | _                                        => Option.none

theorem Thread.unfencedWrite_scan {th : Thread} {r : RecoverPc} (h : th.recovery = some r) :
    th.unfencedWrite = r.unfencedWrite := by
  cases th with
  | recover svc r' => cases h; rfl
  | drain svc d pc =>
    cases pc with
    | recovering r' => cases h; rfl
    | _ => cases h
  | agent svc self d pc =>
    cases pc with
    | drain pc =>
      cases pc with
      | recovering r' => cases h; rfl
      | _ => cases h
    | _ => cases h
  | _ => cases h

/-- **Every `update_run` of the parties is one of the three unfenced writes.** -/
theorem Thread.op_updateRun {cfg : Config} {s : Sys} {locked : List String} {th : Thread} {j : String} {f : RunFields}
    (h : th.op cfg s locked = some (.updateRun j f)) : ∃ st, th.unfencedWrite = some (j, st) ∧ f.status = some st := by
  cases Thread.op_cases h with
  | cancel svc => exact ⟨.cancelled, rfl, rfl⟩
  | scan svc r _ _ hscan hr =>
    cases RecoverPc.op_cases hr with
    | failNoAttempt sc run => exact ⟨.failed, Thread.unfencedWrite_scan hscan, rfl⟩
  | exec svc spec pc _ hpc =>
    cases pc with
    | start => cases hpc; exact ⟨.running, rfl, rfl⟩
    | _ => cases hpc
  | submit svc spec pc _ hpc => cases pc <;> cases hpc
  | beat b pc _ hpc => cases pc <;> cases hpc
  | supervisor sup pc _ hpc => cases pc <;> cases hpc

end EdaLab
