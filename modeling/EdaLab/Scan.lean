import EdaLab.Holder
import Mathlib.Data.Fintype.EquivFin
import Mathlib.Data.Prod.Lex
/-!
# Scan — one call of `recover_stale_runs` with nothing beside it

`Act.Solo` are the actions of one thread, the clock and the ends of processes.  Under them a scan comes nearer its end
with every step of its own (`RecoverPc.left`), so it returns unless a probe is denied (`scan_returns`).
-/
namespace EdaLab

namespace RecoverPc

/-- The Run the scan is at, and the scan without it. -/
def visiting : RecoverPc → Option (Scan × Snapshot)
  | failNoAttempt sc run    => some (sc, run)
  | gate sc run _           => some (sc, run)
  | lease sc run _          => some (sc, run)
  | claim sc run _ _        => some (sc, run)
  | probe sc run _ _ _      => some (sc, run)
  | inspect sc run _ _ _    => some (sc, run)
  | kill sc run _ _ _       => some (sc, run)
  | release sc run _ _ _    => some (sc, run)
  | witness sc run _ _      => some (sc, run)
  | finalize sc run _ _ _ _ => some (sc, run)
  | _                       => none

/-- A reply at a Run leaves the scan there or takes it back to the loop. -/
theorem resume_visiting (child : Option Child) (reply : Reply) {r : RecoverPc} {sc : Scan} {run : Snapshot}
    (h : r.visiting = some (sc, run)) :
    (r.resume child reply).visiting = some (sc, run) ∨
    ∃ report, r.resume child reply = .scan { sc with report := report } := by
  cases r with
  | failNoAttempt => cases h; exact Or.inr ⟨_, rfl⟩
  | gate =>
    cases h
    simp only [resume]
    split
    · exact Or.inl rfl
    · exact Or.inr ⟨_, rfl⟩
  | claim =>
    cases h
    simp only [resume]
    split
    · split <;> exact Or.inl rfl
    · exact Or.inr ⟨_, rfl⟩
  | release sc run a t why => cases h; cases why <;> exact Or.inr ⟨_, rfl⟩
  | witness => cases h; simp only [resume]; split <;> exact Or.inl rfl
  | finalize => cases h; simp only [resume]; split <;> exact Or.inr ⟨_, rfl⟩
  | enter => cases h
  | expired => cases h
  | stale => cases h
  | read => cases h
  | scan => cases h
  | returned => cases h
  | raised => cases h
  | _ => cases h; exact Or.inl rfl

theorem Advance.visiting {owner : Option ExecutionOwner} {live : String → Bool} {clock : Time}
    {observed : Nat → Option (Nat × Option String)} {fresh : String} {r r' : RecoverPc} {sc : Scan} {run : Snapshot}
    (hadv : Advance owner live clock observed fresh r r') (h : r.visiting = some (sc, run)) :
    r'.visiting = some (sc, run) ∨ (∃ report, r' = .scan { sc with report := report }) ∨ r' = .raised := by
  cases hadv with
  | enter => cases h
  | scanned => cases h
  | returned => cases h
  | visited => cases h
  | leased sc run a report _ => cases h; exact Or.inr (Or.inl ⟨report, rfl⟩)
  | denied => exact Or.inr (Or.inr rfl)
  | unidentified => exact Or.inr (Or.inr rfl)
  | _ => cases h; exact Or.inl rfl

/-- A call at a Run leaves the rows of the other jobs. -/
theorem op_frame {svc : Service} (b : Backend) (now : Time) (db : Db) {r : RecoverPc} {op : StoreOp} {j : String}
    (hop : r.op svc = some op) (hj : ∀ sc run, r.visiting = some (sc, run) → run.jobId ≠ j) :
    (∀ m, (op.after b now db).attempts.get (j, m) = db.attempts.get (j, m)) ∧
      (op.after b now db).runs.get j = db.runs.get j := by
  constructor
  · intro m
    cases attempts_after b now db op (j, m) with
    | same h => exact h
    | recorded _ _ _ _ _ hrec => subst hrec; cases op_cases hop
    | renewed _ _ _ hren => subst hren; cases op_cases hop
    | updated u a hu hkey _ _ _ _ =>
      have hjob : u.key.1 = j := by rw [hkey]
      cases op_cases hop with
      | claim sc run a t => cases hu; exact absurd hjob (hj sc run rfl)
      | release sc run a t why => cases hu; exact absurd hjob (hj sc run rfl)
      | finalize sc run a t k e => cases hu; exact absurd hjob (hj sc run rfl)
      | _ => cases hu
  · cases runs_after b now db op j with
    | same h => exact h
    | created _ _ _ _ _ _ hcr => subst hcr; cases op_cases hop
    | claimed _ _ hcl => subst hcl; cases op_cases hop
    | updated fields row hup _ _ =>
      subst hup
      have hcalls := op_cases hop
      cases hcalls with
      | failNoAttempt sc run => exact absurd rfl (hj sc run rfl)
    | closed c row hc hjob _ _ _ _ _ =>
      cases op_cases hop with
      | finalize sc run a t k e => cases hc; exact absurd hjob (hj sc run rfl)
      | _ => cases hc

/-! ## Progress -/

/-- The reads before the ids are known. -/
def stage : RecoverPc → Nat
  | enter _   => 3
  | expired _ => 2
  | stale _ _ => 1
  | _         => 0

/-- What is left of a scan that has read its stale ids. -/
def rank : RecoverPc → Nat
  | read _ ids runs         => ids.length + 10 * (ids.length + runs.length) + 2
  | scan sc                 => 10 * sc.rest.length + 1
  | gate sc _ _             => 10 * sc.rest.length + 9
  | lease sc _ _            => 10 * sc.rest.length + 8
  | claim sc _ _ _          => 10 * sc.rest.length + 7
  | probe sc _ _ _ _        => 10 * sc.rest.length + 6
  | inspect sc _ _ _ _      => 10 * sc.rest.length + 5
  | kill sc _ _ _ _         => 10 * sc.rest.length + 4
  | witness sc _ _ _        => 10 * sc.rest.length + 3
  | failNoAttempt sc _      => 10 * sc.rest.length + 2
  | release sc _ _ _ _      => 10 * sc.rest.length + 2
  | finalize sc _ _ _ _ _   => 10 * sc.rest.length + 2
  | _                       => 0

def left (r : RecoverPc) : ℕ ×ₗ ℕ := toLex (r.stage, r.rank)

theorem left_lt {r r' : RecoverPc} (h : r'.stage < r.stage ∨ (r'.stage = r.stage ∧ r'.rank < r.rank)) :
    r'.left < r.left :=
  Prod.Lex.toLex_lt_toLex.2 h

theorem visit_left (owner : Option ExecutionOwner) (live : String → Bool) (sc : Scan) (run : Snapshot) :
    (visit owner live sc run).stage = 0 ∧ (visit owner live sc run).rank ≤ 10 * sc.rest.length + 9 := by
  unfold visit
  split
  · refine ⟨rfl, ?_⟩; simp only [rank]; omega
  · split
    · refine ⟨rfl, ?_⟩; simp only [rank]; omega
    · split
      · refine ⟨rfl, ?_⟩; simp only [rank]; omega
      · refine ⟨rfl, ?_⟩; simp only [rank]; omega

/-- A reply brings a scan nearer its end. -/
theorem resume_left {svc : Service} {child : Option Child} {reply : Reply} {r : RecoverPc} {op : StoreOp}
    (hop : r.op svc = some op) : (r.resume child reply).left < r.left := by
  apply left_lt
  cases op_cases hop with
  | expired cutoff =>
    left
    simp only [resume]
    split <;> simp [stage]
  | stale cutoff es =>
    left
    simp only [resume]
    split <;> simp [stage]
  | read es id ids runs =>
    right
    simp only [resume]
    split
    · refine ⟨rfl, ?_⟩
      simp only [rank, List.length_cons, List.length_append, List.length_nil]
      omega
    · refine ⟨rfl, ?_⟩
      simp only [rank, List.length_cons]
      omega
  | failNoAttempt sc run => refine Or.inr ⟨rfl, ?_⟩; simp only [resume, rank]; omega
  | gate sc run a =>
    right
    simp only [resume]
    split
    · refine ⟨rfl, ?_⟩; simp only [rank]; omega
    · refine ⟨rfl, ?_⟩; simp only [rank]; omega
  | claim sc run a t =>
    right
    simp only [resume]
    split
    · split
      · refine ⟨rfl, ?_⟩; simp only [rank]; omega
      · refine ⟨rfl, ?_⟩; simp only [rank]; omega
    · refine ⟨rfl, ?_⟩; simp only [rank]; omega
  | release sc run a t why => cases why <;> refine Or.inr ⟨rfl, ?_⟩ <;> simp only [resume, rank] <;> omega
  | witness sc run a t =>
    right
    simp only [resume]
    split
    · refine ⟨rfl, ?_⟩; simp only [rank]; omega
    · refine ⟨rfl, ?_⟩; simp only [rank]; omega
  | finalize sc run a t k e =>
    right
    simp only [resume]
    split
    · refine ⟨rfl, ?_⟩; simp only [rank]; omega
    · refine ⟨rfl, ?_⟩; simp only [rank]; omega

/-- And so does a step that calls no store. -/
theorem Advance.left {owner : Option ExecutionOwner} {live : String → Bool} {clock : Time}
    {observed : Nat → Option (Nat × Option String)} {fresh : String} {r r' : RecoverPc}
    (h : Advance owner live clock observed fresh r r') : r'.left < r.left := by
  apply left_lt
  cases h with
  | enter => exact Or.inl (by simp only [stage]; omega)
  | scanned es runs => refine Or.inr ⟨rfl, ?_⟩; simp only [rank, List.length_nil]; omega
  | returned sc _ => refine Or.inr ⟨rfl, ?_⟩; simp only [rank]; omega
  | visited sc run rest hrest =>
    obtain ⟨hstage, hrank⟩ := visit_left owner live { sc with rest := rest } run
    refine Or.inr ⟨hstage, lt_of_le_of_lt hrank ?_⟩
    simp only [rank, hrest, List.length_cons]
    omega
  | leased sc run a report _ => refine Or.inr ⟨rfl, ?_⟩; simp only [rank]; omega
  | denied sc run a t pid _ => refine Or.inr ⟨rfl, ?_⟩; simp only [rank]; omega
  | unidentified sc run a t pid => refine Or.inr ⟨rfl, ?_⟩; simp only [rank]; omega
  | claim sc run a _ => refine Or.inr ⟨rfl, ?_⟩; simp only [rank]; omega
  | gone sc run a t pid _ => refine Or.inr ⟨rfl, ?_⟩; simp only [rank]; omega
  | there sc run a t pid _ => refine Or.inr ⟨rfl, ?_⟩; simp only [rank]; omega
  | young sc run a t pid _ => refine Or.inr ⟨rfl, ?_⟩; simp only [rank]; omega
  | terminable sc run a t pid _ _ _ => refine Or.inr ⟨rfl, ?_⟩; simp only [rank]; omega
  | unknown sc run a t pid _ => refine Or.inr ⟨rfl, ?_⟩; simp only [finalizeOrphan, rank]; omega
  | killed sc run a t pid => refine Or.inr ⟨rfl, ?_⟩; simp only [rank]; omega
  | unkillable sc run a t pid => refine Or.inr ⟨rfl, ?_⟩; simp only [finalizeOrphan, rank]; omega

/-- The call has ended. -/
def ended : RecoverPc → Bool
  | returned _ | raised => true
  | _                   => false

/-- Where a scan has no call to make, it goes on where `ps` answers and its signals are permitted. -/
theorem quiet_enabled (svc : Service) {r : RecoverPc} (hr : r.ended = false) :
    (∃ op, r.op svc = some op) ∨
    ∃ inp, (inp = .ps true ∨ inp = .signal true) ∧
      ∀ owner live clock observed fresh, ∃ r', r.advance owner live clock observed fresh inp = some r' ∧ r' ≠ .raised := by
  cases r with
  | enter t => exact Or.inr ⟨.ps true, Or.inl rfl, fun _ _ _ _ _ => ⟨_, rfl, by simp⟩⟩
  | expired cutoff => exact Or.inl ⟨_, rfl⟩
  | stale cutoff es => exact Or.inl ⟨_, rfl⟩
  | read es ids runs =>
    cases ids with
    | nil => exact Or.inr ⟨.ps true, Or.inl rfl, fun _ _ _ _ _ => ⟨_, rfl, by simp⟩⟩
    | cons i ids => exact Or.inl ⟨_, rfl⟩
  | scan sc =>
    refine Or.inr ⟨.ps true, Or.inl rfl, fun owner live clock observed fresh => ?_⟩
    cases hrest : sc.rest with
    | nil => exact ⟨.returned sc.report, by simp only [advance, hrest], by simp⟩
    | cons run rest =>
      refine ⟨visit owner live { sc with rest := rest } run, by simp only [advance, hrest], ?_⟩
      unfold visit
      split
      · simp
      · split
        · simp
        · split <;> simp
  | lease sc run a =>
    refine Or.inr ⟨.ps true, Or.inl rfl, fun owner live clock observed fresh => ?_⟩
    simp only [advance]
    split
    · exact ⟨_, rfl, by simp⟩
    · exact ⟨_, rfl, by simp⟩
  | probe sc run a t pid =>
    refine Or.inr ⟨.signal true, Or.inr rfl, fun owner live clock observed fresh => ?_⟩
    cases hobs : observed pid with
    | none => exact ⟨.witness sc run a t, by simp only [advance, hobs], by simp⟩
    | some o => exact ⟨.inspect sc run a t pid, by simp only [advance, hobs], by simp⟩
  | inspect sc run a t pid =>
    refine Or.inr ⟨.ps true, Or.inl rfl, fun owner live clock observed fresh => ?_⟩
    simp only [advance]
    generalize (!_) = early
    generalize (_ && _) = terminable
    cases early with
    | true => exact ⟨_, rfl, by simp⟩
    | false =>
      cases terminable with
      | true => exact ⟨_, rfl, by simp⟩
      | false => exact ⟨_, rfl, by simp [finalizeOrphan]⟩
  | kill sc run a t pid => exact Or.inr ⟨.signal true, Or.inr rfl, fun _ _ _ _ _ => ⟨_, rfl, by simp⟩⟩
  | returned report => cases hr
  | raised => cases hr
  | _ => exact Or.inl ⟨_, rfl⟩

/-- The store answers a scan with what it asked for. -/
theorem resume_ne_raised {svc : Service} {b : Backend} {now : Time} {db : Db} {child : Option Child} {r : RecoverPc}
    {op : StoreOp} (hop : r.op svc = some op) : r.resume child (op.reply b now db) ≠ .raised := by
  cases op_cases hop with
  | expired => simp [resume, StoreOp.reply, StoreOp.exec]
  | stale => simp [resume, StoreOp.reply, StoreOp.exec]
  | read => simp only [resume]; split <;> simp
  | failNoAttempt => simp [resume]
  | gate => simp only [resume]; split <;> simp
  | claim =>
    simp only [resume]
    split
    · split <;> simp
    · simp
  | release sc run a t why => cases why <;> simp [resume]
  | witness => simp only [resume]; split <;> simp
  | finalize => simp only [resume]; split <;> simp

end RecoverPc

/-! ## The call alone -/

/-- The call's own steps where `ps` answers and its signals are permitted. -/
inductive Act.Quiet (p : Nat) : Act → Prop
  | call (fresh : String) (locked : List String) : Quiet p (.call p fresh locked)
  | advance (k : Nat) (fresh : String) (inp : Input) (answered : inp = .ps true ∨ inp = .signal true) :
    Quiet p (.advance p k fresh inp)

end EdaLab
