import EdaLab.Queue
/-!
# Finishing — where completions come from

The executions and the supervisors are the parties that complete an Attempt.  What they complete it with comes from four
functions and is carried to the store as it was made (`finishing_made_step`), so what those functions give holds of every
completion the store is ever called with.
-/
namespace EdaLab

/-- The completion a party is about to write. -/
def ExecPc.finishing : ExecPc → Option Completion
  | finalize c _ => some c
  | _            => none

def SupervisorPc.finishing : SupervisorPc → Option Completion
  | finalize _ c => some c
  | _            => none

def Thread.finishing : Thread → Option Completion
  | .exec _ _ pc     => pc.finishing
  | .supervisor _ pc => pc.finishing
  | _                => Option.none

/-- The completions of `_execute` and of `run_once`. -/
inductive Completion.Made : Completion → Prop
  | failed (spec : JobSpec) (n : Nat) (t m : String) (c : Completion)
      (finishing_eq : (executionError spec n t m).finishing = some c) : Made c
  | raised (svc : Service) (spec : JobSpec) (n : Nat) (t : String) (e : AdapterError) (c : Completion)
      (finishing_eq : (adapterRaised svc spec n t e).finishing = some c) : Made c
  | collected (spec : JobSpec) (n : Nat) (t : String) (r : AdapterReturn) (c : Completion)
      (finishing_eq : (collectResult spec n t r).finishing = some c) : Made c
  | supervised (req : ExecutionRequestRow) (r : AdapterReturn) (parsed : ParseResult) :
      Made (SupervisorPc.completion req r parsed)

theorem ExecPc.resume_made {svc : Service} {spec : JobSpec} {owner : Option ExecutionOwner} {fresh : String}
    {reply : Reply} {pc : ExecPc} (h : ∀ c, pc.finishing = some c → c.Made) :
    ∀ c, (pc.resume svc spec owner fresh reply).finishing = some c → c.Made := by
  intro c hc
  cases pc with
  | start => simp only [resume] at hc; split at hc <;> cases hc
  | record n => simp only [resume] at hc; split at hc <;> cases hc
  | acquire n t =>
    simp only [resume] at hc
    split at hc
    · unfold afterAcquire at hc
      split at hc
      · cases hc
      · split at hc
        · exact .failed spec n t _ c hc
        · cases hc
    · exact .failed spec n t _ c hc
  | register n t e o =>
    simp only [resume] at hc
    split at hc
    · split at hc <;> cases hc
    · exact .failed spec n t _ c hc
  | enqueue n t e o =>
    simp only [resume] at hc
    split at hc
    · cases hc
    · exact .failed spec n t _ c hc
  | collect n t r =>
    simp only [resume] at hc
    split at hc
    · exact .collected spec n t r c hc
    · exact .failed spec n t _ c hc
  | finalize c₀ scope =>
    cases scope with
    | body payload =>
      simp only [resume] at hc
      split at hc
      · split at hc <;> cases hc
      · exact .failed spec _ _ _ c hc
    | handler => simp only [resume] at hc; split at hc <;> cases hc
  | transition n t e m => simp only [resume] at hc; split at hc <;> cases hc
  | _ => exact h c hc

theorem ExecPc.Advance.made {svc : Service} {spec : JobSpec} {births : Nat} {pc pc' : ExecPc} {eff : Effect}
    (h : ExecPc.Advance svc spec births pc pc' eff) {c : Completion} (hc : pc'.finishing = some c) : c.Made := by
  cases h with
  | raised n t e => exact .raised svc spec n t e c hc
  | _ => cases hc

theorem SupervisorPc.resume_made {reply : Reply} {pc : SupervisorPc} (h : ∀ c, pc.finishing = some c → c.Made) :
    ∀ c, (pc.resume reply).finishing = some c → c.Made := by
  intro c hc
  cases pc with
  | claim => simp only [resume] at hc; split at hc <;> cases hc
  | started req pid => simp only [resume] at hc; split at hc <;> cases hc
  | witness req w result =>
    cases result with
    | none => cases hc
    | some r =>
      simp only [resume] at hc
      split at hc
      · cases hc
        exact .supervised req r _
      · cases hc
  | finalize req c₀ => simp only [resume] at hc; split at hc <;> cases hc
  | _ => exact h c hc

theorem Thread.resume_made {cfg : Config} (s : Sys) (fresh : String) (reply : Reply) {th : Thread}
    (h : ∀ c, th.finishing = some c → c.Made) : ∀ c, (th.resume cfg s fresh reply).finishing = some c → c.Made := by
  cases th with
  | exec svc spec pc => exact ExecPc.resume_made h
  | supervisor sup pc => exact SupervisorPc.resume_made h
  | _ => intro c hc; cases hc

theorem Thread.advance_made {cfg : Config} {s : Sys} {th th' : Thread} {k : Nat} {fresh : String} {inp : Input}
    {eff : Effect} (h : th.advance cfg s k fresh inp = some (th', eff)) {c : Completion} (hc : th'.finishing = some c) :
    c.Made := by
  cases th with
  | none => cases h
  | exec svc spec pc =>
    obtain ⟨⟨pc', eff⟩, hx, hx'⟩ := Option.map_eq_some_iff.1 h
    cases hx'
    exact (ExecPc.advance_cases hx).made hc
  | supervisor sup pc =>
    obtain ⟨⟨pc', eff⟩, hx, hx'⟩ := Option.map_eq_some_iff.1 h
    cases hx'
    -- a supervisor completes on the reply to its witness, not by itself
    cases SupervisorPc.advance_cases hx <;> cases hc
  | _ =>
    obtain ⟨x, hx, hx'⟩ := Option.map_eq_some_iff.1 h
    cases hx'
    cases hc

theorem Thread.entry_finishing {th : Thread} (h : th.isEntry = true) : th.finishing = Option.none := by
  cases th with
  | exec svc spec pc => cases h
  | supervisor sup pc =>
    cases pc with
    | finalize req c => cases h
    | _ => rfl
  | _ => rfl

def FinishingMade (s : Sys) : Prop := ∀ q c, (s.threads q).finishing = some c → c.Made

theorem finishing_made_init : FinishingMade Sys.init := fun _ _ h => by cases h

/-- **Every completion a thread is about to write was made by one of the four functions.** -/
theorem finishing_made_step {cfg : Config} {s s' : Sys} {a : Act} (hi : FinishingMade s)
    (h : Sys.step cfg s a = some s') : FinishingMade s' := by
  intro q c hc
  cases thread_after q h with
  | same heq => rw [heq] at hc; exact hi q c hc
  | entered th _ _ hentry heq =>
    rw [heq, Thread.entry_finishing hentry] at hc
    cases hc
  | called fresh locked op _ _ heq => rw [heq] at hc; exact Thread.resume_made s fresh _ (hi q) c hc
  | advanced k fresh inp th eff _ hadv heq => rw [heq] at hc; exact Thread.advance_made hadv.advance_eq hc
  | executed i fresh inp th spec svc _ _ _ _ heq _ => rw [heq] at hc; cases hc
  | beat i fresh inp th b run _ _ _ _ heq => rw [heq] at hc; cases hc
  | cancelled svc spec _ heq => rw [heq] at hc; cases hc

/-- Only a finishing thread calls `finalize_attempt_and_run`, with the completion it has. -/
theorem Thread.op_finalize {cfg : Config} {s : Sys} {locked : List String} {th : Thread} {c : Completion}
    (h : th.op cfg s locked = some (.finalizeAttemptAndRun c)) :
    ∃ c₀ owner, th.finishing = some c₀ ∧ c = { c₀ with executionOwner := owner } := by
  cases Thread.op_cases h with
  | exec svc spec pc _ hpc =>
    cases pc with
    | finalize c₀ scope => cases hpc; exact ⟨c₀, _, rfl, rfl⟩
    | _ => cases hpc
  | supervisor sup pc _ hpc =>
    cases pc with
    | finalize req c₀ => cases hpc; exact ⟨c, c.executionOwner, rfl, rfl⟩
    | _ => cases hpc
  | submit svc spec pc _ hpc => cases pc <;> cases hpc
  | beat b pc _ hpc => cases pc <;> cases hpc
  | scan svc r _ _ _ hr => cases RecoverPc.op_cases hr

end EdaLab
