import Mathlib.Data.List.Basic
/-!
# Transaction — a connection with an implicit transaction

A connection is what is committed and, inside a transaction, what is pending.  A statement that writes opens a transaction
where none is open; one that fails has no effect of its own but leaves that transaction, and what is pending in it, behind.
An `Action` is a program over a connection that returns or raises; the connection outlives a raise.

`Settles` says that an action that was started inside a transaction ends it when it returns and has committed nothing when
it raises, so a handler that rolls back makes it `Atomic`: from a connection with no transaction it returns to one, and
where it raises it leaves the connection as it was.  The other way to raise is to leave a transaction open (`LeavesOpen`).
For calls one after the other it is enough to know which of the two each call does: `each_leavesNoTrace_iff`.
-/
namespace Transaction

structure Conn (δ : Type) where
  committed : δ
  pending   : Option δ := none

variable {δ ε α β : Type}

/-- What the connection's own statements see. -/
def Conn.view (c : Conn δ) : δ := c.pending.getD c.committed

/-- No transaction is open. -/
def Conn.clean (d : δ) : Conn δ := { committed := d }

def Action (ε δ α : Type) : Type := Conn δ → Except ε α × Conn δ

namespace Action

def ret (a : α) : Action ε δ α := fun c => (.ok a, c)

def andThen (p : Action ε δ α) (k : α → Action ε δ β) : Action ε δ β := fun c =>
  match p c with
  | (.ok a, c)    => k a c
  | (.error e, c) => (.error e, c)

instance : Monad (Action ε δ) where
  pure := ret
  bind := andThen

def raise (e : ε) : Action ε δ α := fun c => (.error e, c)

/-- A SELECT. -/
def select (query : δ → Except ε α) : Action ε δ α := fun c => (query c.view, c)

/-- A statement that writes. -/
def execute (statement : δ → Except ε (δ × α)) : Action ε δ α := fun c =>
  match statement c.view with
  | .ok (d, a) => (.ok a, { c with pending := some d })
  | .error e   => (.error e, { c with pending := some c.view })

/-- A statement that does not open a transaction, as a `CREATE INDEX`. -/
def define (statement : δ → Except ε δ) : Action ε δ Unit := fun c =>
  match statement c.view with
  | .error e => (.error e, c)
  | .ok d    =>
    match c.pending with
    | none   => (.ok (), { c with committed := d })
    | some _ => (.ok (), { c with pending := some d })

/-- One statement for each row, inside one transaction; the rows before one that fails stay pending. -/
def executeMany {ρ : Type} (statement : ρ → δ → Except ε δ) (rows : List ρ) : Action ε δ Unit := fun c =>
  match rows with
  | []     => (.ok (), { c with pending := some c.view })
  | r :: l =>
    match statement r c.view with
    | .ok d    => executeMany statement l { c with pending := some d }
    | .error e => (.error e, { c with pending := some c.view })

/-- `BEGIN IMMEDIATE`: `busy` inside a transaction, and it can be `refused`. -/
def beginImmediate (busy : ε) (refused : Option ε) : Action ε δ Unit := fun c =>
  match c.pending, refused with
  | some _, _    => (.error busy, c)
  | none, some e => (.error e, c)
  | none, none   => (.ok (), { c with pending := some c.committed })

def commit : Action ε δ Unit := fun c => (.ok (), .clean c.view)

def rollback : Action ε δ Unit := fun c => (.ok (), .clean c.committed)

/-- `except: rollback(); raise`. -/
def rollingBack (p : Action ε δ α) : Action ε δ α := fun c =>
  match p c with
  | (.ok a, c)    => (.ok a, c)
  | (.error e, c) => (.error e, .clean c.committed)

/-! ## Atomic actions -/

/-- From a connection with no transaction it returns to one, and where it raises it leaves the connection as it was. -/
def Atomic (p : Action ε δ α) (d : δ) : Prop :=
  match p (.clean d) with
  | (.ok _, c)    => c.pending = none
  | (.error _, c) => c = .clean d

/-- It raises and leaves the transaction it opened. -/
def LeavesOpen (p : Action ε δ α) (d : δ) : Prop := ∃ e v, p (.clean d) = (.error e, ⟨d, some v⟩)

/-- Inside a transaction it returns with the transaction ended, and raises with nothing committed. -/
def Settles (p : Action ε δ α) : Prop := ∀ d e,
  match p ⟨d, some e⟩ with
  | (.ok _, c)    => c.pending = none
  | (.error _, c) => c.committed = d

variable {p : Action ε δ α} {k : α → Action ε δ β}

theorem bind_eq (p : Action ε δ α) (k : α → Action ε δ β) (c : Conn δ) : (p >>= k) c =
    match p c with
    | (.ok a, c)    => k a c
    | (.error e, c) => (.error e, c) := rfl

theorem Settles.raise (e : ε) : Settles (Action.raise e : Action ε δ α) := fun _ _ => rfl

theorem Settles.commit (a : α) : Settles (Action.commit >>= fun _ => Action.ret a : Action ε δ α) := fun _ _ => rfl

theorem Settles.rollback (a : α) : Settles (Action.rollback >>= fun _ => Action.ret a : Action ε δ α) := fun _ _ => rfl

theorem Settles.select {query : δ → Except ε α} (h : ∀ a, Settles (k a)) : Settles (Action.select query >>= k) := by
  intro d e
  rw [bind_eq]
  unfold Action.select
  cases query (Conn.view ⟨d, some e⟩) with
  | error x => rfl
  | ok a => exact h a d e

theorem Settles.execute {statement : δ → Except ε (δ × α)} (h : ∀ a, Settles (k a)) :
    Settles (Action.execute statement >>= k) := by
  intro d e
  rw [bind_eq]
  unfold Action.execute
  cases statement (Conn.view ⟨d, some e⟩) with
  | error x => rfl
  | ok r => exact h r.2 d r.1

theorem Settles.ite {b : Prop} [Decidable b] {p q : Action ε δ α} (hp : Settles p) (hq : Settles q) :
    Settles (if b then p else q) := by
  by_cases h : b
  · rwa [if_pos h]
  · rwa [if_neg h]

/-- **A transaction that rolls back when it raises is atomic.** -/
theorem Atomic.immediate {busy : ε} {refused : Option ε} (h : Settles p) (d : δ) :
    Atomic (beginImmediate busy refused >>= fun _ => rollingBack p) d := by
  unfold Atomic
  rw [bind_eq]
  cases refused with
  | some x => rfl
  | none =>
    have hp := h d d
    simp only [beginImmediate, Conn.clean, rollingBack]
    generalize p ⟨d, some d⟩ = r at hp ⊢
    obtain ⟨result, c⟩ := r
    cases result with
    | ok a => exact hp
    | error x =>
      simp only at hp
      simp only [hp]

theorem Atomic.raise (e : ε) (d : δ) : Atomic (Action.raise e : Action ε δ α) d := rfl

theorem Atomic.ret (a : α) (d : δ) : Atomic (Action.ret a : Action ε δ α) d := rfl

theorem Atomic.select (query : δ → Except ε α) (d : δ) : Atomic (Action.select query) d := by
  unfold Atomic Action.select
  cases query (Conn.view (.clean d)) with
  | error e => rfl
  | ok a => rfl

theorem Atomic.define (statement : δ → Except ε δ) (a : α) (d : δ) :
    Atomic (Action.define statement >>= fun _ => Action.commit >>= fun _ => Action.ret a) d := by
  unfold Atomic
  rw [bind_eq]
  unfold Action.define
  cases statement (Conn.view (.clean d)) with
  | error e => rfl
  | ok d' => rfl

/-! ## A statement and its commit, with no handler -/

/-- Atomic where `ok` holds, left open where it does not. -/
structure AtomicIff (ok : Prop) (p : Action ε δ α) (d : δ) : Prop where
  atomic : ok → Atomic p d
  opens  : ¬ ok → LeavesOpen p d

theorem AtomicIff.always {d : δ} (h : Atomic p d) : AtomicIff True p d where
  atomic _ := h
  opens hno := absurd trivial hno

theorem AtomicIff.congr {ok ok' : Prop} {d : δ} (h : AtomicIff ok p d) (heq : ok' ↔ ok) : AtomicIff ok' p d where
  atomic hok := h.atomic (heq.1 hok)
  opens hno := h.opens (fun hok => hno (heq.2 hok))

theorem execute_ok {statement : δ → Except ε (δ × α)} {c : Conn δ} {r : δ × α} (h : statement c.view = .ok r) :
    (Action.execute statement >>= k) c = k r.2 { c with pending := some r.1 } := by
  rw [bind_eq]
  unfold Action.execute
  rw [h]

/-- The next statement of a transaction. -/
theorem execute_pending {statement : δ → Except ε (δ × α)} {d v : δ} {r : δ × α} (h : statement v = .ok r) :
    (Action.execute statement >>= k) ⟨d, some v⟩ = k r.2 ⟨d, some r.1⟩ :=
  execute_ok (c := ⟨d, some v⟩) h

theorem execute_error {statement : δ → Except ε (δ × α)} {c : Conn δ} {e : ε} (h : statement c.view = .error e) :
    (Action.execute statement >>= k) c = (.error e, { c with pending := some c.view }) := by
  rw [bind_eq]
  unfold Action.execute
  rw [h]

theorem select_ok {query : δ → Except ε α} {c : Conn δ} {a : α} (h : query c.view = .ok a) :
    (Action.select query >>= k) c = k a c := by
  rw [bind_eq]
  unfold Action.select
  rw [h]

theorem beginImmediate_ok (busy : ε) (k : Unit → Action ε δ α) (d : δ) :
    (beginImmediate busy none >>= k) (.clean d) = k () ⟨d, some d⟩ := rfl

theorem rollingBack_fst (p : Action ε δ α) (c : Conn δ) : (rollingBack p c).1 = (p c).1 := by
  unfold rollingBack
  generalize p c = r
  obtain ⟨result, c'⟩ := r
  cases result with
  | ok a => rfl
  | error e => rfl

theorem rollingBack_ok {p : Action ε δ α} {c c' : Conn δ} {a : α} (h : p c = (.ok a, c')) :
    rollingBack p c = (.ok a, c') := by
  unfold rollingBack
  rw [h]

theorem rollingBack_error {p : Action ε δ α} {c c' : Conn δ} {e : ε} (h : p c = (.error e, c')) :
    rollingBack p c = (.error e, .clean c'.committed) := by
  unfold rollingBack
  rw [h]

theorem LeavesOpen.execute {statement : δ → Except ε (δ × α)} {d : δ} {e : ε} (h : statement d = .error e) :
    LeavesOpen (Action.execute statement >>= k) d := ⟨e, d, execute_error h⟩

theorem AtomicIff.execute (statement : δ → Except ε (δ × α)) (f : α → β) (d : δ) :
    AtomicIff (∃ r, statement d = .ok r)
      (Action.execute statement >>= fun a => Action.commit >>= fun _ => Action.ret (f a)) d where
  atomic := by
    rintro ⟨r, hr⟩
    have hview : statement (Conn.clean d).view = .ok r := hr
    unfold Atomic
    rw [execute_ok hview]
    rfl
  opens := by
    intro hno
    cases hs : statement d with
    | ok r => exact absurd ⟨r, hs⟩ hno
    | error e => exact LeavesOpen.execute hs

section Many

variable {ρ : Type} {statement : ρ → δ → Except ε δ}

theorem executeMany_committed (statement : ρ → δ → Except ε δ) : ∀ (rows : List ρ) (c : Conn δ),
    (executeMany statement rows c).2.committed = c.committed
  | [], c => rfl
  | r :: l, c => by
    unfold executeMany
    cases statement r c.view with
    | error e => rfl
    | ok d => exact executeMany_committed statement l _

theorem executeMany_pending (statement : ρ → δ → Except ε δ) : ∀ (rows : List ρ) (c : Conn δ),
    (executeMany statement rows c).2.pending.isSome = true
  | [], c => rfl
  | r :: l, c => by
    unfold executeMany
    cases statement r c.view with
    | error e => rfl
    | ok d => exact executeMany_pending statement l _

/-- A batch that rolls back when a row fails. -/
theorem Atomic.batch (statement : ρ → δ → Except ε δ) (rows : List ρ) (a : α) (d : δ) :
    Atomic (rollingBack (executeMany statement rows >>= fun _ => Action.commit >>= fun _ => Action.ret a)) d := by
  have hcommitted := executeMany_committed statement rows (.clean d)
  unfold Atomic rollingBack
  rw [bind_eq]
  generalize executeMany statement rows (.clean d) = r at hcommitted ⊢
  obtain ⟨result, c⟩ := r
  cases result with
  | ok u => rfl
  | error e =>
    simp only at hcommitted
    simp only [hcommitted]
    rfl

/-- Where what a row needs is not written by the others, a batch is accepted when each of its rows is. -/
theorem executeMany_ok_iff (accepts : ρ → δ → Prop) (hok : ∀ r d, accepts r d ↔ ∃ d', statement r d = .ok d')
    (hkeeps : ∀ r r' d d', statement r d = .ok d' → (accepts r' d' ↔ accepts r' d)) : ∀ (rows : List ρ) (c : Conn δ),
    (∃ u, (executeMany statement rows c).1 = .ok u) ↔ ∀ r ∈ rows, accepts r c.view
  | [], c => by
    simp only [executeMany, List.not_mem_nil, false_imp_iff, implies_true, iff_true]
    exact ⟨(), trivial⟩
  | r :: l, c => by
    unfold executeMany
    rw [List.forall_mem_cons]
    cases hr : statement r c.view with
    | error e =>
      have hno : ¬ accepts r c.view := by
        rw [hok, hr]
        rintro ⟨d', hd'⟩
        cases hd'
      constructor
      · rintro ⟨u, hu⟩
        cases hu
      · intro h
        exact absurd h.1 hno
    | ok d =>
      have hyes : accepts r c.view := (hok r c.view).2 ⟨d, hr⟩
      simp only
      rw [executeMany_ok_iff accepts hok hkeeps l]
      constructor
      · intro h
        refine ⟨hyes, ?_⟩
        intro r' hr'
        exact (hkeeps r r' _ _ hr).1 (h r' hr')
      · intro h r' hr'
        exact (hkeeps r r' _ _ hr).2 (h.2 r' hr')

/-- A batch with no handler keeps the rows before the one that fails pending. -/
theorem AtomicIff.many (rows : List ρ) (a : α) (d : δ) :
    AtomicIff (∃ u, (executeMany statement rows (.clean d)).1 = .ok u)
      (executeMany statement rows >>= fun _ => Action.commit >>= fun _ => Action.ret a) d where
  atomic := by
    intro h
    unfold Atomic
    rw [bind_eq]
    generalize executeMany statement rows (.clean d) = r at h ⊢
    obtain ⟨result, c⟩ := r
    obtain ⟨u, rfl⟩ := h
    rfl
  opens := by
    intro h
    have hcommitted := executeMany_committed statement rows (.clean d)
    have hpending := executeMany_pending statement rows (.clean d)
    unfold LeavesOpen
    rw [bind_eq]
    generalize executeMany statement rows (.clean d) = r at h hcommitted hpending ⊢
    obtain ⟨result, committed, pending⟩ := r
    obtain ⟨v, rfl⟩ := Option.isSome_iff_exists.1 hpending
    cases result with
    | ok u => exact absurd ⟨u, rfl⟩ h
    | error e =>
      simp only [Conn.clean] at hcommitted
      subst hcommitted
      exact ⟨e, v, rfl⟩

end Many

end Action

/-! ## Calls one after the other -/

section Calls

variable {γ : Type} (run : γ → Action ε δ α)

/-- What the calls return or raise, and the connection they leave. -/
def outcomes : Conn δ → List γ → List (Except ε α) × Conn δ
  | c, []      => ([], c)
  | c, g :: gs => ((run g c).1 :: (outcomes (run g c).2 gs).1, (outcomes (run g c).2 gs).2)

/-- `P` of every call of a sequence and the connection it is made on. -/
def Each (P : Conn δ → γ → Prop) : Conn δ → List γ → Prop
  | _, []      => True
  | c, g :: gs => P c g ∧ Each P (run g c).2 gs

/-- If the call raises, no later call and not the committed data can tell that it was made. -/
def LeavesNoTrace (c : Conn δ) (g : γ) : Prop :=
  (∃ e, (run g c).1 = .error e) → ∀ later : List γ,
    (outcomes run (run g c).2 later).1 = (outcomes run c later).1 ∧
    (outcomes run (run g c).2 later).2.committed = (outcomes run c later).2.committed

variable {run}

theorem Atomic.leavesNoTrace {g : γ} {d : δ} (h : Action.Atomic (run g) d) : LeavesNoTrace run (.clean d) g := by
  rintro ⟨e, he⟩ later
  unfold Action.Atomic at h
  generalize run g (.clean d) = r at h he ⊢
  obtain ⟨result, c⟩ := r
  simp only at he
  subst he
  simp only at h
  rw [h]
  exact ⟨rfl, rfl⟩

/-- An atomic call leaves no transaction, whether it returns or raises. -/
theorem Atomic.clean {g : γ} {d : δ} (h : Action.Atomic (run g) d) : ∃ d', (run g (.clean d)).2 = .clean d' := by
  unfold Action.Atomic at h
  generalize run g (.clean d) = r at h ⊢
  obtain ⟨result, committed, pending⟩ := r
  cases result with
  | ok a =>
    simp only at h
    subst h
    exact ⟨committed, rfl⟩
  | error e => exact ⟨d, h⟩

/-- A call that leaves its transaction open is told by any call that minds an open transaction. -/
theorem LeavesOpen.trace {g probe : γ} {d : δ} (h : Action.LeavesOpen (run g) d)
    (hprobe : ∀ v, (run probe ⟨d, some v⟩).1 ≠ (run probe (.clean d)).1) : ¬ LeavesNoTrace run (.clean d) g := by
  intro hno
  obtain ⟨e, v, hg⟩ := h
  have hlater := (hno ⟨e, by rw [hg]⟩ [probe]).1
  simp only [outcomes, hg, List.cons.injEq, and_true] at hlater
  exact hprobe v hlater

/-- **Which calls leave no trace**: where each call is atomic if it meets `ok` and leaves its transaction open if not, the
raising calls of a sequence leave no trace exactly when each call of it meets `ok`. -/
theorem each_leavesNoTrace_iff {ok : γ → δ → Prop} (hok : ∀ g d, Action.AtomicIff (ok g d) (run g) d) (probe : γ)
    (hprobe : ∀ d v, (run probe ⟨d, some v⟩).1 ≠ (run probe (.clean d)).1) : ∀ (gs : List γ) (d : δ),
    Each run (LeavesNoTrace run) (.clean d) gs ↔ Each run (fun c g => ok g c.committed) (.clean d) gs
  | [], d => Iff.rfl
  | g :: gs, d => by
    unfold Each
    by_cases hg : ok g d
    · obtain ⟨d', hd'⟩ := Atomic.clean ((hok g d).atomic hg)
      have ih := each_leavesNoTrace_iff hok probe hprobe gs d'
      rw [hd', ih]
      constructor
      · intro h
        exact ⟨hg, h.2⟩
      · intro h
        exact ⟨Atomic.leavesNoTrace ((hok g d).atomic hg), h.2⟩
    · constructor
      · intro h
        exact absurd h.1 (LeavesOpen.trace ((hok g d).opens hg) (hprobe d))
      · intro h
        exact absurd h.1 hg

end Calls

end Transaction
