import EdaLab.Execution
import Mathlib.Data.List.Pairwise
/-!
# Abandoned — what a dead execution has left

What a recovery scan reads of a Run is fixed by the phase of its execution: the last of its Attempts is the phase's
(`attemptsOf_getLast?`), it has no Host Agent session where its service has none (`OwnerInv`), and no other service has a
future for it (`FutureInv`).
-/
namespace EdaLab

open Relational

/-- **The last Attempt a read returns is the one of the largest number.** -/
theorem attemptsOf_getLast? {db : Db} {j : String} {k : Nat} (hn : db.numbered j k) :
    (Store.attemptsOf db j).getLast? = db.attempts.get (j, k) := by
  have hmem : ∀ a, a ∈ Store.attemptsOf db j ↔ db.attempts.get (j, a.attemptNo) = some a := by
    intro a
    rw [Store.attemptsOf, List.mem_insertionSort, List.mem_filter, decide_eq_true_eq, Table.get_eq_some_iff]
    refine and_congr_right fun _ => ?_
    rw [AttemptRow.key, Prod.mk.injEq]
    exact (and_iff_left rfl).symm
  have hsorted : (Store.attemptsOf db j).Pairwise (fun a b => a.attemptNo ≤ b.attemptNo) := by
    have : Std.Total (fun a b : AttemptRow => a.attemptNo ≤ b.attemptNo) := ⟨fun a b => le_total _ _⟩
    have : IsTrans AttemptRow (fun a b => a.attemptNo ≤ b.attemptNo) := ⟨fun a b c => le_trans⟩
    exact List.pairwise_insertionSort _ _
  cases hl : (Store.attemptsOf db j).getLast? with
  | none =>
    symm
    rw [Option.eq_none_iff_forall_ne_some]
    intro a ha
    have hkey : a.key = (j, k) := Table.key_of_get ha
    have hno : a.attemptNo = k := congrArg Prod.snd hkey
    have hin := (hmem a).2 (by rw [hno, ha])
    rw [List.getLast?_eq_none_iff.1 hl] at hin
    cases hin
  | some b =>
    have hbmem : b ∈ Store.attemptsOf db j := List.mem_of_getLast? hl
    have hne : Store.attemptsOf db j ≠ [] := List.ne_nil_of_mem hbmem
    have hb : (Store.attemptsOf db j).getLast hne = b := by
      rw [List.getLast?_eq_some_getLast hne] at hl
      exact Option.some.inj hl
    have hbget := (hmem b).1 hbmem
    obtain ⟨hpos, hle⟩ := (hn.isSome_iff b.attemptNo).1 (by rw [hbget]; rfl)
    obtain ⟨a, ha⟩ := Option.isSome_iff_exists.1 ((hn.isSome_iff k).2 ⟨le_trans hpos hle, le_refl k⟩)
    have hkey : a.key = (j, k) := Table.key_of_get ha
    have hano : a.attemptNo = k := congrArg Prod.snd hkey
    have hamem := (hmem a).2 (by rw [hano, ha])
    have : Std.Refl (fun a b : AttemptRow => a.attemptNo ≤ b.attemptNo) := ⟨fun a => le_refl _⟩
    have hlast := hsorted.rel_getLast hamem
    rw [hb] at hlast
    have hbk : b.attemptNo = k := by omega
    rw [← hbk, hbget]

section Step

variable {cfg : Config} {s s' : Sys} {a : Act}

/-! ## Owners -/

theorem owners_after (h : Sys.step cfg s a = some s') {svc : Nat} (hn : s'.owners svc = none) : s.owners svc = none := by
  cases Sys.step_cases h with
  | call i fresh locked op _ hc =>
    rw [← hc.owners_eq]
    exact hn
  | advance i k fresh inp th eff _ _ happ =>
    cases happ with
    | cancelFuture j v =>
      obtain ⟨threads, heq⟩ := Sys.cancelFuture_eq (s := s.put i fresh th) v j
      rw [heq] at hn
      exact hn
    | own owner v =>
      simp only [Sys.put] at hn
      by_cases hv : svc = v
      · subst hv
        rw [Function.update_self] at hn
        cases hn
      · rw [Function.update_of_ne hv] at hn
        exact hn
    | _ => exact hn
  | _ => exact hn

/-- Where the service of an execution has no owner, its Attempts have no session, and it registers none. -/
def OwnerInv (s : Sys) : Prop :=
  ∀ q svc spec pc, s.threads q = .exec svc spec pc → s.owners svc = none →
    (∀ n a, s.db.attempts.get (spec.jobId, n) = some a → a.executionHostSession = none) ∧
    ∀ n t e o, pc ≠ .register n t e o

/-- Only `record_attempt_execution` sets a session. -/
theorem session_after {b : Backend} {now : Time} {db : Db} {op : StoreOp} {k : String × Nat} {a' : AttemptRow}
    (ha' : (op.after b now db).attempts.get k = some a') :
    a'.executionHostSession = none ∨ (∃ a, db.attempts.get k = some a ∧ a.executionHostSession = a'.executionHostSession) ∨
    ∃ t o e, op = .recordAttemptExecution k.1 k.2 t o e := by
  cases attempts_after b now db op k with
  | same h =>
    rw [h] at ha'
    exact Or.inr (Or.inl ⟨a', ha', rfl⟩)
  | recorded st et e ap rc _ _ hget =>
    rw [hget] at ha'
    cases hk : db.attempts.get k with
    | none =>
      rw [hk] at ha'
      cases ha'
      exact Or.inl rfl
    | some a =>
      rw [hk] at ha'
      cases ha'
      exact Or.inr (Or.inl ⟨a, rfl, rfl⟩)
  | renewed session ttl a _ ha _ hget =>
    rw [hget] at ha'
    cases ha'
    exact Or.inr (Or.inl ⟨a, ha, rfl⟩)
  | updated u a hop hkey ha _ hget _ =>
    rw [hget] at ha'
    cases ha'
    cases op with
    | recordAttemptExecution j n t o e =>
      cases hop
      exact Or.inr (Or.inr ⟨t, o, e, by rw [← hkey]; rfl⟩)
    | finalizeRecovery j n t et e => cases hop; exact Or.inr (Or.inl ⟨a, ha, rfl⟩)
    | finalizeAttemptAndRun c => cases hop; exact Or.inr (Or.inl ⟨a, ha, rfl⟩)
    | acquireAttemptLease => cases hop; exact Or.inr (Or.inl ⟨a, ha, rfl⟩)
    | heartbeatAttempt => cases hop; exact Or.inr (Or.inl ⟨a, ha, rfl⟩)
    | recordAttemptProcess => cases hop; exact Or.inr (Or.inl ⟨a, ha, rfl⟩)
    | transitionAttempt => cases hop; exact Or.inr (Or.inl ⟨a, ha, rfl⟩)
    | claimRecovery => cases hop; exact Or.inr (Or.inl ⟨a, ha, rfl⟩)
    | releaseRecoveryClaim => cases hop; exact Or.inr (Or.inl ⟨a, ha, rfl⟩)
    | _ => cases hop

theorem ExecPc.resume_register {svc : Service} {spec : JobSpec} {fresh : String} {reply : Reply} {pc : ExecPc}
    (hpc : ∀ n t e o, pc ≠ .register n t e o) (n : Nat) (t e : String) (o : ExecutionOwner) :
    pc.resume svc spec none fresh reply ≠ .register n t e o := by
  intro h
  have hcases := pc.resume_cases svc spec none fresh reply
  rw [h] at hcases
  cases hcases with
  | owned _ _ _ howner => cases howner
  | idle _ _ => exact hpc n t e o rfl

theorem ExecPc.Advance.not_register {svc : Service} {spec : JobSpec} {births : Nat} {pc pc' : ExecPc} {eff : Effect}
    (h : ExecPc.Advance svc spec births pc pc' eff) (n : Nat) (t e : String) (o : ExecutionOwner) :
    pc' ≠ .register n t e o := by
  intro heq
  cases h with
  | raised m x err =>
    rcases adapterRaised_cases svc spec m x err with ⟨k, msg, hraised⟩ | ⟨c, hraised, -, -⟩
    · rw [hraised] at heq
      cases heq
    · rw [hraised] at heq
      cases heq
  | _ => cases heq

theorem ownerInv_step (hi : ExecInv cfg s) (hi' : AttemptInv s') (ho : OwnerInv s) (h : Sys.step cfg s a = some s') :
    OwnerInv s' := by
  intro q svc spec pc' hq howner
  have hbefore := owners_after h howner
  -- sessions are set by the execution at its registration only
  have hsessions : ∀ pc, s.threads q = .exec svc spec pc → ∀ n a', s'.db.attempts.get (spec.jobId, n) = some a' →
      a'.executionHostSession = none := by
    intro pc hth n a' ha'
    obtain ⟨hold, hnot⟩ := ho q svc spec pc hth hbefore
    rcases Sys.step_db h with hdb | ⟨i, fresh, locked, op, -, hc⟩
    · rw [hdb] at ha'
      exact hold n a' ha'
    · rw [hc.db_eq] at ha'
      rcases session_after ha' with hnone | ⟨a₀, ha₀, hsame⟩ | ⟨t, o, e, rfl⟩
      · exact hnone
      · rw [← hsame]
        exact hold n a₀ ha₀
      · obtain ⟨v, spec', pc₀, hi₀, hj, hop⟩ := Thread.op_ofExecution hc.is_op rfl
        obtain rfl := hi.sole q i spec.jobId (by rw [hth]; rfl) (by rw [hi₀]; exact congrArg some hj)
        rw [hth] at hi₀
        cases hi₀
        cases pc with
        | register m t' e' o' => exact absurd rfl (hnot m t' e' o')
        | _ => cases hop
  cases exec_after h hq with
  | same hth => exact ⟨hsessions _ hth, (ho q svc spec pc' hth hbefore).2⟩
  | called fresh locked pc op _ _ hth _ hpc =>
    refine ⟨hsessions _ hth, fun n t e o => ?_⟩
    rw [hpc, hbefore]
    exact ExecPc.resume_register (ho q svc spec pc hth hbefore).2 n t e o
  | advanced k fresh inp pc eff _ hth hadv => exact ⟨hsessions _ hth, hadv.not_register⟩
  | executed i _ _ _ hpc =>
    subst hpc
    refine ⟨fun n a' ha' => ?_, (fun n t e o heq => by cases heq)⟩
    have hn : s'.db.numbered spec.jobId 0 := hi' spec.jobId .none (Or.inl ⟨q, svc, spec, .pending, hq, rfl, rfl⟩)
    have := (hn.isSome_iff n).1 (by rw [ha']; rfl)
    omega
  | cancelled hth hpc =>
    subst hpc
    exact ⟨hsessions _ hth, (fun n t e o heq => by cases heq)⟩

/-! ## Futures -/

/-- A future is the execution of its service for its job. -/
def FutureInv (s : Sys) : Prop :=
  ∀ svc, ∀ f ∈ s.futures svc, ∃ spec pc, s.threads f.2 = .exec svc spec pc ∧ spec.jobId = f.1

theorem futures_after (h : Sys.step cfg s a = some s') {svc : Nat} {f : String × Nat} (hf : f ∈ s'.futures svc) :
    f ∈ s.futures svc ∨ ∃ spec, s'.threads f.2 = .exec svc spec .pending ∧ spec.jobId = f.1 := by
  cases Sys.step_cases h with
  | call i fresh locked op _ hc =>
    rw [hc.futures_eq] at hf
    exact Or.inl hf
  | advance i k fresh inp th eff _ _ happ =>
    cases happ with
    | cancelFuture j v =>
      obtain ⟨threads, heq⟩ := Sys.cancelFuture_eq (s := s.put i fresh th) v j
      rw [heq] at hf
      exact Or.inl hf
    | execute spec v _ _ =>
      by_cases hv : svc = v
      · subst hv
        simp only [Sys.execute, Sys.put, Function.update_self, List.mem_cons, List.mem_filter] at hf
        rcases hf with rfl | ⟨hf, -⟩
        · exact Or.inr ⟨spec, by simp [Sys.execute], rfl⟩
        · exact Or.inl hf
      · simp only [Sys.execute, Sys.put, Function.update_of_ne hv] at hf
        exact Or.inl hf
    | _ => exact Or.inl hf
  | _ => exact Or.inl hf

theorem futureInv_step (hf : FutureInv s) (h : Sys.step cfg s a = some s') : FutureInv s' := by
  intro svc f hmem
  rcases futures_after h hmem with hold | ⟨spec, hth, hj⟩
  · obtain ⟨spec, pc, hth, hj⟩ := hf svc f hold
    obtain ⟨pc', hth'⟩ := exec_persists h hth
    exact ⟨spec, pc', hth', hj⟩
  · exact ⟨spec, .pending, hth, hj⟩

/-- No Run was written in the future. -/
def UpdatedInv (s : Sys) : Prop := ∀ j r, s.db.runs.get j = some r → r.updatedAt ≤ s.clock

theorem updatedInv_step (hu : UpdatedInv s) (h : Sys.step cfg s a = some s') : UpdatedInv s' := by
  intro j r' hr'
  have hle := Sys.step_clock h
  rcases Sys.step_db h with hdb | ⟨i, fresh, locked, op, -, hc⟩
  · rw [hdb] at hr'
    exact le_trans (hu j r' hr') hle
  · rw [hc.db_eq] at hr'
    cases runs_after cfg.backend s.clock s.db op j with
    | same hget =>
      rw [hget] at hr'
      exact le_trans (hu j r' hr') hle
    | created _ _ _ _ _ _ _ _ hget _ => rw [hget] at hr'; cases hr'; exact hle
    | updated _ _ _ _ hget => rw [hget] at hr'; cases hr'; exact hle
    | claimed _ _ _ _ _ _ hget _ => rw [hget] at hr'; cases hr'; exact hle
    | closed _ _ _ _ _ _ _ hget _ => rw [hget] at hr'; cases hr'; exact hle

end Step

/-- The invariants a recovery scan relies on. -/
structure ScanInv (cfg : Config) (s : Sys) : Prop where
  exec : ExecInv cfg s
  owners : OwnerInv s
  futures : FutureInv s
  updated : UpdatedInv s

theorem scanInv_init (cfg : Config) : ScanInv cfg Sys.init :=
  ⟨execInv_init cfg, (fun q svc spec pc h => by cases h), (fun svc f hf => by cases hf), (fun j r hr => by cases hr)⟩

theorem scanInv_run {cfg : Config} : ∀ {acts : List Act} {s s' : Sys}, ScanInv cfg s →
    Trace.run (Sys.step cfg) s acts = some s' → s'.Separate → ScanInv cfg s'
  | [], _, _, hi, h, _ => by cases h; exact hi
  | _ :: _, _, _, hi, h, hsep => by
    obtain ⟨m, hm, h⟩ := Trace.run_cons.1 h
    have hexec := execInv_step hi.exec (separate_of_run h hsep) hm
    exact scanInv_run ⟨hexec, ownerInv_step hi.exec hexec.attempts hi.owners hm, futureInv_step hi.futures hm,
      updatedInv_step hi.updated hm⟩ h hsep

end EdaLab
