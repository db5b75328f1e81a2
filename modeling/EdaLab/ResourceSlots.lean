import EdaLab.Absorbing
import EdaLab.RetryLoop
import EdaLab.Semaphore
/-!
# ResourceSlots — how many executions of a service run their adapter

Every execution of a service takes one of its `resource_slots` before it calls the adapter, with its heartbeat thread
running, and gives it back in the `finally` clause of the Attempt.  So no more executions than slots are in the adapter, one
waits only while the others hold them all, and no `release()` raises (`slots_bound_adapters`).
-/
namespace EdaLab

/-- `BoundedSemaphore(resource_slots) if resource_slots else None`. -/
def semaphoreOf : Option Nat → Option Semaphore
  | some (k + 1) => some (.new (k + 1))
  | _            => none

/-- The system, with the `resource_slots` of each service and the local `acquired` of each execution. -/
structure Rationed where
  sys      : Sys
  slots    : Nat → Option Semaphore
  acquired : Nat → Bool

namespace Rationed

inductive Move
  | act (a : Act)
  /-- The execution's `self.resource_slots.acquire()` returns. -/
  | acquire (q : Nat)

/-- The step of the system, if it is one. -/
def Move.act? : Move → Option Act
  | act a     => some a
  | acquire _ => none

def init (resourceSlots : Nat → Option Nat) : Rationed :=
  ⟨Sys.init, fun svc => semaphoreOf (resourceSlots svc), fun _ => false⟩

/-- The execution has not got its slot yet. -/
def waits (m : Rationed) (q : Nat) : Bool :=
  match m.sys.threads q with
  | .exec svc _ (.adapter _ _) => (m.slots svc).isSome && !m.acquired q
  | _                          => false

/-- The semaphore of the service after a call of `q`. -/
def put (m : Rationed) (q svc : Nat) (x : Semaphore) (acquired : Bool) : Rationed :=
  { m with slots := Function.update m.slots svc (some x), acquired := Function.update m.acquired q acquired }

def acquire (m : Rationed) (q : Nat) : Option Rationed :=
  match m.sys.threads q with
  | .exec svc _ (.adapter _ _) =>
    if m.acquired q then none else ((m.slots svc).bind Semaphore.acquire).map (fun x => m.put q svc x true)
  | _ => none

/-- `self.resource_slots.release()`; one beyond the bound raises out of `_execute`. -/
def release (m : Rationed) (q svc : Nat) (spec : JobSpec) : Rationed :=
  match (m.slots svc).bind Semaphore.release with
  | some x => m.put q svc x false
  | none   =>
    { m with
      sys := { m.sys with threads := Function.update m.sys.threads q (.exec svc spec .raised) }
      acquired := Function.update m.acquired q false }

/-- The thread `q` has taken the system to `s'`. -/
def after (m : Rationed) (q : Nat) (s' : Sys) : Rationed :=
  match m.sys.threads q, s'.execPc q with
  | .exec svc spec pc, some pc' =>
    if pc.leaves pc' && m.acquired q then release { m with sys := s' } q svc spec else { m with sys := s' }
  | _, _ => { m with sys := s' }

def step (cfg : Config) (m : Rationed) : Move → Option Rationed
  | .acquire q                     => m.acquire q
  | .act (.call q fresh locked)    => (Sys.step cfg m.sys (.call q fresh locked)).map (m.after q)
  | .act (.advance q k fresh inp)  =>
    if m.waits q then none else (Sys.step cfg m.sys (.advance q k fresh inp)).map (m.after q)
  | .act a                         => (Sys.step cfg m.sys a).map (fun s' => { m with sys := s' })

/-- Between its `acquire` and its `finally` clause. -/
def Holds (m : Rationed) (svc q : Nat) : Prop :=
  m.acquired q = true ∧ ∃ spec pc, m.sys.threads q = .exec svc spec pc ∧ pc.slotless = false

end Rationed

/-- A child of the adapter is there to be recorded. -/
def ExecPc.recording : ExecPc → Bool
  | spawned _ _ _ | observe _ _ _ => true
  | _                             => false

/-- Inside `adapter.run`. -/
def Rationed.InAdapter (m : Rationed) (svc q : Nat) : Prop :=
  ∃ spec pc, m.sys.threads q = .exec svc spec pc ∧
    (pc.recording = true ∨ (∃ n t, pc = .adapter n t) ∧ m.waits q = false)

/-- A slot is held where an execution needs it, and each semaphore counts the executions that hold one. -/
structure SlotsInv (resourceSlots : Nat → Option Nat) (m : Rationed) : Prop where
  held : ∀ q, m.acquired q = true → ∃ svc x, m.slots svc = some x ∧ m.Holds svc q
  counts : ∀ svc x, m.slots svc = some x → x.Counts (m.Holds svc)
  bounds : ∀ svc, (m.slots svc).map Semaphore.bound = (semaphoreOf (resourceSlots svc)).map Semaphore.bound
  recording : ∀ q svc spec pc, m.sys.threads q = .exec svc spec pc → pc.recording = true → (m.slots svc).isSome = true →
    m.acquired q = true

theorem slotsInv_init (resourceSlots : Nat → Option Nat) : SlotsInv resourceSlots (Rationed.init resourceSlots) where
  held _ h := by cases h
  counts svc x h := by
    have hnone : ∀ q, ¬(Rationed.init resourceSlots).Holds svc q := by
      rintro q ⟨hacquired, -⟩
      cases hacquired
    simp only [Rationed.init] at h
    unfold semaphoreOf at h
    split at h
    · cases h; exact Semaphore.counts_new _ hnone
    · cases h
  bounds _ := rfl
  recording _ _ _ _ h := by cases h

/-! ## One step -/

section Step

variable {cfg : Config} {resourceSlots : Nat → Option Nat} {m m' : Rationed} {a : Act} {q : Nat} {s' : Sys}

/-- Of a holder's slot only its own step disposes. -/
theorem Rationed.Holds.other {svc p : Nat} (hp : m.Holds svc p) (h : Sys.step cfg m.sys a = some s')
    (hown : a.isOf p = false) : ∃ spec pc, s'.threads p = .exec svc spec pc ∧ pc.slotless = false := by
  obtain ⟨-, spec, pc, hth, hheld⟩ := hp
  exact ⟨spec, pc, Act.isOf_other h hth (fun hpc => by subst hpc; cases hheld) hown, hheld⟩

/-- The holder's own step keeps it inside the section, or runs the `finally` clause. -/
theorem leaves_of_slotless {svc : Nat} {spec : JobSpec} {pc pc' : ExecPc} (h : Sys.step cfg m.sys a = some s')
    (hq : m.sys.threads q = .exec svc spec pc) (hheld : pc.slotless = false) (hq' : s'.threads q = .exec svc spec pc')
    (hfree : pc'.slotless = true) : pc.leaves pc' = true := by
  cases exec_after h hq' with
  | same hth =>
    rw [hq] at hth
    cases hth
    rw [hheld] at hfree
    cases hfree
  | called fresh locked pc₀ op _ _ hth _ hpc =>
    rw [hq] at hth
    cases hth
    have hresumed := pc.resume_cases (cfg.service svc) spec (m.sys.owners svc) fresh
      (op.reply cfg.backend m.sys.clock m.sys.db)
    rw [← hpc] at hresumed
    exact hresumed.leaves hheld hfree
  | advanced _ fresh inp pc₀ eff _ hth hadv =>
    rw [hq] at hth
    cases hth
    have hin := hadv.held (fun hpc => by subst hpc; cases hheld)
    rw [hin] at hfree
    cases hfree
  | executed i _ _ hnone _ => rw [hq] at hnone; cases hnone
  | cancelled hth _ =>
    rw [hq] at hth
    cases hth
    cases hheld

theorem not_leaves_of_held {pc pc' : ExecPc} (h : pc'.slotless = false) : pc.leaves pc' = false := by
  cases pc' with
  | record | returned | raised => cases h
  | _ => simp [ExecPc.leaves]

/-- What the thread does with its slot. -/
inductive Rationed.Disposed (m : Rationed) (q : Nat) (s' : Sys) : Rationed → Prop
  | kept (is_kept : ∀ svc spec pc pc', m.sys.threads q = .exec svc spec pc → s'.threads q = .exec svc spec pc' →
      pc.leaves pc' = true → m.acquired q = false) : Disposed m q s' { m with sys := s' }
  | released (svc : Nat) (spec : JobSpec) (pc pc' : ExecPc) (thread_eq : m.sys.threads q = .exec svc spec pc)
      (after_eq : s'.execPc q = some pc') (leaves : pc.leaves pc' = true) (has : m.acquired q = true) :
      Disposed m q s' (release { m with sys := s' } q svc spec)

theorem Rationed.after_cases (m : Rationed) (q : Nat) (s' : Sys) : m.Disposed q s' (m.after q s') := by
  unfold after
  split
  · rename_i svc spec pc pc' hq hq'
    split
    · rename_i hboth
      obtain ⟨hleaves, hhas⟩ := Bool.and_eq_true_iff.1 hboth
      exact .released svc spec pc pc' hq hq' hleaves hhas
    · rename_i hnot
      refine .kept (fun svc₁ spec₁ pc₁ pc₁' hth hth' hleaves => ?_)
      rw [hq] at hth
      cases hth
      rw [execPc_of_thread hth'] at hq'
      cases hq'
      rw [hleaves, Bool.true_and, Bool.not_eq_true] at hnot
      exact hnot
  · rename_i hno
    exact .kept (fun svc₁ spec₁ pc₁ pc₁' hth hth' _ => absurd (execPc_of_thread hth') (hno svc₁ spec₁ pc₁ pc₁' hth))

/-- Where every holder stays inside its section the slots stay as they are. -/
theorem slotsInv_keep (hi : SlotsInv resourceSlots m)
    (hheld : ∀ p svc, m.Holds svc p → ∃ spec pc, s'.threads p = .exec svc spec pc ∧ pc.slotless = false)
    (hrecording : ∀ p svc spec pc, s'.threads p = .exec svc spec pc → pc.recording = true → (m.slots svc).isSome = true →
      m.acquired p = true) : SlotsInv resourceSlots { m with sys := s' } where
  held p hp := by
    obtain ⟨svc, x, hx, hholds⟩ := hi.held p hp
    exact ⟨svc, x, hx, hp, hheld p svc hholds⟩
  counts svc x hx := by
    refine (hi.counts svc x hx).congr (fun p => ⟨fun hp => ⟨hp.1, hheld p svc hp⟩, fun hp => ?_⟩)
    obtain ⟨hhas, spec, pc, hth, -⟩ := hp
    obtain ⟨v, y, -, hholds⟩ := hi.held p hhas
    obtain ⟨spec', pc', hth', -⟩ := hheld p v hholds
    rw [hth] at hth'
    cases hth'
    exact hholds
  bounds := hi.bounds
  recording := hrecording

/-- Who holds a slot after a call of `q` on the semaphore of its service. -/
theorem holds_put (hi : SlotsInv resourceSlots m)
    (hheld : ∀ p v, p ≠ q → m.Holds v p → ∃ spec pc, s'.threads p = .exec v spec pc ∧ pc.slotless = false) (svc : Nat)
    (x : Semaphore) (has : Bool) (v p : Nat) : (({ m with sys := s' } : Rationed).put q svc x has).Holds v p ↔
      (p ≠ q ∧ m.Holds v p) ∨ (p = q ∧ has = true ∧ ∃ spec pc, s'.threads q = .exec v spec pc ∧ pc.slotless = false) := by
  unfold Rationed.Holds Rationed.put
  by_cases hpq : p = q
  · subst hpq
    simp
  · simp only [Function.update_of_ne hpq, ne_eq, hpq, not_false_eq_true, true_and, false_and, or_false]
    refine ⟨fun ⟨hhas, spec, pc, hth, _⟩ => ?_, fun hp => ⟨hp.1, hheld p v hpq hp⟩⟩
    obtain ⟨w, y, -, hw⟩ := hi.held p hhas
    obtain ⟨spec', pc', hth', -⟩ := hheld p w hpq hw
    rw [hth] at hth'
    cases hth'
    exact hw

/-- **A call on a semaphore** that keeps its count. -/
theorem slotsInv_put (hi : SlotsInv resourceSlots m)
    (hheld : ∀ p v, p ≠ q → m.Holds v p → ∃ spec pc, s'.threads p = .exec v spec pc ∧ pc.slotless = false) {svc : Nat}
    {x y : Semaphore} {has : Bool} (hx : m.slots svc = some x) (hbound : y.bound = x.bound)
    (hof : ∀ v, m.Holds v q → v = svc)
    (hself : has = true → ∃ spec pc, s'.threads q = .exec svc spec pc ∧ pc.slotless = false)
    (hcounts : y.Counts (fun p => (p ≠ q ∧ m.Holds svc p) ∨ (p = q ∧ has = true)))
    (hrecording : ∀ p v spec pc, s'.threads p = .exec v spec pc → pc.recording = true → (m.slots v).isSome = true →
      Function.update m.acquired q has p = true) :
    SlotsInv resourceSlots (({ m with sys := s' } : Rationed).put q svc y has) where
  held p hp := by
    by_cases hpq : p = q
    · subst hpq
      simp only [Rationed.put, Function.update_self] at hp
      exact ⟨svc, y, Function.update_self .., (holds_put hi hheld svc y has svc p).2 (Or.inr ⟨rfl, hp, hself hp⟩)⟩
    · simp only [Rationed.put, Function.update_of_ne hpq] at hp
      obtain ⟨v, z, hz, hv⟩ := hi.held p hp
      have hholds := (holds_put hi hheld svc y has v p).2 (Or.inl ⟨hpq, hv⟩)
      by_cases hvs : v = svc
      · subst hvs
        exact ⟨v, y, Function.update_self .., hholds⟩
      · exact ⟨v, z, by simp only [Rationed.put, Function.update_of_ne hvs, hz], hholds⟩
  counts v z hz := by
    by_cases hvs : v = svc
    · subst hvs
      simp only [Rationed.put, Function.update_self, Option.some.injEq] at hz
      subst hz
      refine hcounts.congr (fun p => ?_)
      rw [holds_put hi hheld]
      exact or_congr_right ⟨fun hp => ⟨hp.1, hp.2, hself hp.2⟩, fun hp => ⟨hp.1, hp.2.1⟩⟩
    · -- `q` holds none of another service
      simp only [Rationed.put, Function.update_of_ne hvs] at hz
      refine (hi.counts v z hz).congr (fun p => ?_)
      rw [holds_put hi hheld]
      constructor
      · intro hp
        refine Or.inl ⟨?_, hp⟩
        rintro rfl
        exact hvs (hof v hp)
      · rintro (⟨-, hp⟩ | ⟨-, hhas, spec, pc, hth, -⟩)
        · exact hp
        · obtain ⟨spec', pc', hth', -⟩ := hself hhas
          rw [hth] at hth'
          cases hth'
          exact absurd rfl hvs
  bounds v := by
    by_cases hvs : v = svc
    · subst hvs
      simp only [Rationed.put, Function.update_self, ← hi.bounds v, hx, Option.map_some, hbound]
    · simp only [Rationed.put, Function.update_of_ne hvs, hi.bounds v]
  recording p v spec pc hp hrec hsome := by
    refine hrecording p v spec pc hp hrec ?_
    by_cases hvs : v = svc
    · subst hvs
      rw [hx]
      rfl
    · simpa only [Rationed.put, Function.update_of_ne hvs] using hsome

/-- **The `finally` clause** gives back the slot that was taken, and raises nothing. -/
theorem slotsInv_release (hi : SlotsInv resourceSlots m) {svc : Nat} {spec : JobSpec} {pc pc' : ExecPc}
    (hq : m.sys.threads q = .exec svc spec pc) (hhas : m.acquired q = true) (hq' : s'.threads q = .exec svc spec pc')
    (hfree : pc'.slotless = true)
    (hheld : ∀ p v, p ≠ q → m.Holds v p → ∃ spec pc, s'.threads p = .exec v spec pc ∧ pc.slotless = false)
    (hrecording : ∀ p v spec pc, s'.threads p = .exec v spec pc → pc.recording = true → (m.slots v).isSome = true →
      m.acquired p = true) :
    SlotsInv resourceSlots (Rationed.release { m with sys := s' } q svc spec) ∧
      (Rationed.release { m with sys := s' } q svc spec).sys = s' := by
  have hof : ∀ v, m.Holds v q → v = svc := by
    rintro v ⟨-, spec₁, pc₁, hth, -⟩
    rw [hq] at hth
    cases hth
    rfl
  obtain ⟨v, x, hx, hholds⟩ := hi.held q hhas
  obtain rfl := hof v hholds
  obtain ⟨y, hy, hcounts⟩ := (hi.counts v x hx).release hholds
    (Q := fun p => (p ≠ q ∧ m.Holds v p) ∨ (p = q ∧ false = true)) (fun p => by simp)
  have hrelease : Rationed.release { m with sys := s' } q v spec = ({ m with sys := s' } : Rationed).put q v y false := by
    simp only [Rationed.release, hx, Option.bind_some, hy]
  rw [hrelease]
  refine ⟨slotsInv_put hi hheld hx (Semaphore.release_bound hy) hof (fun h => by cases h) hcounts ?_, rfl⟩
  intro p w spec₁ pc₁ hp hrec hsome
  have hne : p ≠ q := by
    rintro rfl
    rw [hq'] at hp
    cases hp
    cases pc' with
    | spawned | observe => cases hfree
    | _ => cases hrec
  rw [Function.update_of_ne hne]
  exact hrecording p w spec₁ pc₁ hp hrec hsome

/-- An execution that records a child has got its slot. -/
theorem recording_after (hi : SlotsInv resourceSlots m) (h : Sys.step cfg m.sys a = some s')
    (hfree : ∀ i k fresh inp, a = .advance i k fresh inp → m.waits i = false) {p svc : Nat} {spec : JobSpec} {pc' : ExecPc}
    (hp : s'.threads p = .exec svc spec pc') (hrec : pc'.recording = true) (hsome : (m.slots svc).isSome = true) :
    m.acquired p = true := by
  cases exec_after h hp with
  | same hth => exact hi.recording p svc spec pc' hth hrec hsome
  | called fresh locked pc op _ _ hth _ hpc =>
    have hresumed := pc.resume_cases (cfg.service svc) spec (m.sys.owners svc) fresh
      (op.reply cfg.backend m.sys.clock m.sys.db)
    rw [← hpc] at hresumed
    cases hresumed with
    | idle => exact hi.recording p svc spec pc' hth hrec hsome
    | _ => cases hrec
  | advanced k fresh inp pc eff hact hth hadv =>
    cases hadv with
    | child n t pid group identity =>
      have hwaits := hfree p k fresh inp hact
      simp only [Rationed.waits, hth, hsome, Bool.true_and, Bool.not_eq_false'] at hwaits
      exact hwaits
    | observed n t o => exact hi.recording p svc spec _ hth rfl hsome
    | raised n t e =>
      rcases adapterRaised_cases (cfg.service svc) spec n t e with ⟨k, x, heq⟩ | ⟨c, heq, -⟩
      · rw [heq] at hrec; cases hrec
      · rw [heq] at hrec; cases hrec
    | _ => cases hrec
  | executed i _ _ _ hpc => subst hpc; cases hrec
  | cancelled _ hpc => subst hpc; cases hrec

/-- **A step of the system** keeps the slots, and what it does to the system is not changed by them. -/
theorem slotsInv_after (hi : SlotsInv resourceSlots m) (h : Sys.step cfg m.sys a = some s')
    (hfree : ∀ i k fresh inp, a = .advance i k fresh inp → m.waits i = false) (hown : ∀ p, p ≠ q → a.isOf p = false) :
    SlotsInv resourceSlots (m.after q s') ∧ (m.after q s').sys = s' := by
  have hrecording : ∀ p svc spec pc, s'.threads p = .exec svc spec pc → pc.recording = true →
      (m.slots svc).isSome = true → m.acquired p = true :=
    fun p svc spec pc hp hrec hsome => recording_after hi h hfree hp hrec hsome
  have hcases := m.after_cases q s'
  generalize m.after q s' = m₁ at hcases
  cases hcases with
  | kept hkept =>
    refine ⟨slotsInv_keep hi (fun p svc hp => ?_) hrecording, rfl⟩
    by_cases hpq : p = q
    · subst hpq
      obtain ⟨hhas, spec, pc, hth, hheld⟩ := hp
      obtain ⟨pc', hth'⟩ := exec_persists h hth
      refine ⟨spec, pc', hth', ?_⟩
      cases hfree' : pc'.slotless with
      | false => rfl
      | true =>
        have hno := hkept svc spec pc pc' hth hth' (leaves_of_slotless h hth hheld hth' hfree')
        rw [hhas] at hno
        cases hno
    · exact hp.other h (hown p hpq)
  | released svc spec pc pc' hq hpc' hleaves hhas =>
    obtain ⟨pc₁, hq'⟩ := exec_persists h hq
    rw [execPc_of_thread hq'] at hpc'
    cases hpc'
    refine slotsInv_release hi hq hhas hq' ?_ (fun p v hne hp => hp.other h (hown p hne)) hrecording
    cases hfree' : pc'.slotless with
    | true => rfl
    | false =>
      rw [not_leaves_of_held hfree'] at hleaves
      cases hleaves

/-- **A slot is taken** where one is free. -/
theorem slotsInv_acquire (hi : SlotsInv resourceSlots m) (h : m.acquire q = some m') :
    SlotsInv resourceSlots m' ∧ m'.sys = m.sys := by
  unfold Rationed.acquire at h
  split at h
  · rename_i svc spec n t hq
    split at h
    · cases h
    · rename_i hnot
      obtain ⟨y, hy, rfl⟩ := Option.map_eq_some_iff.1 h
      obtain ⟨x, hx, hxy⟩ := Option.bind_eq_some_iff.1 hy
      have hno : ∀ v, ¬m.Holds v q := fun v hv => hnot hv.1
      refine ⟨slotsInv_put hi (fun p v _ hp => hp.2) hx (Semaphore.acquire_bound hxy) (fun v hv => absurd hv (hno v))
        (fun _ => ⟨spec, _, hq, rfl⟩) ?_ ?_, rfl⟩
      · refine (hi.counts svc x hx).acquire hxy (hno svc) (fun p => ?_)
        by_cases hpq : p = q
        · simp [hpq]
        · simp [hpq]
      · intro p v spec₁ pc₁ hp hrec hsome
        by_cases hpq : p = q
        · rw [hpq, Function.update_self]
        · rw [Function.update_of_ne hpq]
          exact hi.recording p v spec₁ pc₁ hp hrec hsome
  · cases h

/-- **One step** keeps the slots, and is a step of the system or the taking of a slot. -/
theorem slotsInv_step {mv : Rationed.Move} (hi : SlotsInv resourceSlots m) (h : Rationed.step cfg m mv = some m') :
    SlotsInv resourceSlots m' ∧ Trace.run (Sys.step cfg) m.sys mv.act?.toList = some m'.sys := by
  cases mv with
  | acquire q =>
    obtain ⟨hi', hsys⟩ := slotsInv_acquire hi h
    exact ⟨hi', by rw [hsys]; rfl⟩
  | act a =>
    have hone : ∀ s', Sys.step cfg m.sys a = some s' → m'.sys = s' → Trace.run (Sys.step cfg) m.sys [a] = some m'.sys := by
      rintro s' hs' hsys
      exact Trace.run_cons.2 ⟨s', hs', by rw [hsys]; rfl⟩
    have hidle : ∀ s', Sys.step cfg m.sys a = some s' → (∀ p, a.isOf p = false) → m' = { m with sys := s' } →
        SlotsInv resourceSlots m' ∧ Trace.run (Sys.step cfg) m.sys [a] = some m'.sys := by
      rintro s' hs' hnobody rfl
      refine ⟨slotsInv_keep hi (fun p svc hp => hp.other hs' (hnobody p)) (fun p svc spec pc hp hrec hsome =>
        recording_after hi hs' (fun i k fresh inp hact => ?_) hp hrec hsome), hone s' hs' rfl⟩
      have hsome := hnobody i
      rw [hact] at hsome
      simp [Act.isOf] at hsome
    cases a with
    | call q fresh locked =>
      obtain ⟨s', hs', rfl⟩ := Option.map_eq_some_iff.1 h
      obtain ⟨hi', hsys⟩ := slotsInv_after (q := q) hi hs' (fun i k fresh inp hact => by cases hact)
        (fun p hp => decide_eq_false (fun heq => hp heq.symm))
      exact ⟨hi', hone s' hs' hsys⟩
    | advance q k fresh inp =>
      simp only [Rationed.step] at h
      split at h
      · cases h
      · rename_i hwaits
        obtain ⟨s', hs', rfl⟩ := Option.map_eq_some_iff.1 h
        obtain ⟨hi', hsys⟩ := slotsInv_after (q := q) hi hs'
          (fun i k' fresh' inp' hact => by cases hact; exact Bool.not_eq_true _ ▸ hwaits)
          (fun p hp => decide_eq_false (fun heq => hp heq.symm))
        exact ⟨hi', hone s' hs' hsys⟩
    | _ =>
      simp only [Rationed.step] at h
      obtain ⟨s', hs', heq⟩ := Option.map_eq_some_iff.1 h
      exact hidle s' hs' (fun p => rfl) heq.symm

theorem slotsInv_run : ∀ {moves : List Rationed.Move} {m m' : Rationed}, SlotsInv resourceSlots m →
    Trace.run (Rationed.step cfg) m moves = some m' →
    SlotsInv resourceSlots m' ∧ Trace.run (Sys.step cfg) m.sys (moves.filterMap Rationed.Move.act?) = some m'.sys
  | [], _, _, hi, h => by cases h; exact ⟨hi, rfl⟩
  | mv :: moves, m, m', hi, h => by
    obtain ⟨n, hn, hrest⟩ := Trace.run_cons.1 h
    obtain ⟨hi', hone⟩ := slotsInv_step hi hn
    obtain ⟨hi'', hmany⟩ := slotsInv_run hi' hrest
    have hsplit : (mv :: moves).filterMap Rationed.Move.act? = mv.act?.toList ++ moves.filterMap Rationed.Move.act? := by
      cases mv <;> rfl
    rw [hsplit]
    exact ⟨hi'', Trace.run_append.2 ⟨n.sys, hone, hmany⟩⟩

end Step

/-! ## Runs -/

/-- An execution in the adapter holds a slot. -/
theorem Rationed.InAdapter.holds {resourceSlots : Nat → Option Nat} {m : Rationed} {svc q : Nat} (h : m.InAdapter svc q)
    (hi : SlotsInv resourceSlots m) (hsome : (m.slots svc).isSome = true) : m.Holds svc q := by
  obtain ⟨spec, pc, hth, hrec | ⟨⟨n, t, rfl⟩, hwaits⟩⟩ := h
  · refine ⟨hi.recording q svc spec pc hth hrec hsome, spec, pc, hth, ?_⟩
    cases pc with
    | spawned | observe => rfl
    | _ => cases hrec
  · simp only [Rationed.waits, hth, hsome, Bool.true_and, Bool.not_eq_false'] at hwaits
    exact ⟨hwaits, spec, _, hth, rfl⟩

/-- **In every run the slots of a service bound its calls of the adapter, and none is lost.**  The semaphores only delay the
system: giving a slot back never raises.  At most as many executions of a service as it has slots are in the adapter; an
execution has to wait exactly while that many others are between their `acquire` and their `finally` clause; where none is,
all slots are free; and where one is, its `release()` is within the bound. -/
theorem slots_bound_adapters (cfg : Config) (resourceSlots : Nat → Option Nat) (moves : List Rationed.Move) (m : Rationed)
    (h : Trace.run (Rationed.step cfg) (Rationed.init resourceSlots) moves = some m) :
    Trace.run (Sys.step cfg) Sys.init (moves.filterMap Rationed.Move.act?) = some m.sys ∧
    ∀ svc k, resourceSlots svc = some (k + 1) → ∃ x, m.slots svc = some x ∧
      (∀ inside : Finset Nat, (∀ q ∈ inside, m.InAdapter svc q) → inside.card ≤ k + 1) ∧
      (x.acquire = none ↔ ∃ held : Finset Nat, (∀ q ∈ held, m.Holds svc q) ∧ held.card = k + 1) ∧
      ((∀ q, ¬m.Holds svc q) → x.value = k + 1) ∧ ∀ q, m.Holds svc q → x.release.isSome = true := by
  obtain ⟨hi, hrun⟩ := slotsInv_run (slotsInv_init resourceSlots) h
  refine ⟨hrun, fun svc k hk => ?_⟩
  have hbounds := hi.bounds svc
  rw [hk] at hbounds
  obtain ⟨x, hx, hbound⟩ := Option.map_eq_some_iff.1 hbounds
  have hbound' : x.bound = k + 1 := hbound
  have hcounts := hi.counts svc x hx
  refine ⟨x, hx, fun inside hinside => ?_, ?_, fun hnone => ?_, fun q hq => ?_⟩
  · rw [← hbound']
    exact hcounts.card_le inside (fun q hq => (hinside q hq).holds hi (by rw [hx]; rfl))
  · rw [← hbound']
    exact hcounts.waits_iff
  · rw [← hbound']
    exact hcounts.all_free hnone
  · obtain ⟨y, hy, -⟩ := hcounts.release hq (fun p => Iff.rfl)
    rw [hy]
    rfl

/-- Service 0 has one slot and two executions, threads 2 and 3: the first takes the slot, the other is before its
`acquire`. -/
def contendedMoves : List Rationed.Move :=
  ([.start 0 (.submit 0 timingSpec .lookup), .call 0 "a1" [], .advance 0 0 "a2" .go, .call 0 "a3" [], .advance 0 2 "a4" .go,
    .call 0 "a5" [], .start 1 (.submit 0 { timingSpec with jobId := "next" } .lookup), .call 1 "b1" [],
    .advance 1 0 "b2" .go, .call 1 "b3" [], .advance 1 3 "b4" .go, .call 1 "b5" [], .advance 2 0 "c1" .go,
    .call 2 "c2" [], .call 2 "c3" [], .call 2 "c4" [], .advance 2 4 "c5" .go] : List Act).map .act ++ [.acquire 2] ++
  ([.advance 3 0 "d1" .go, .call 3 "d2" [], .call 3 "d3" [], .call 3 "d4" [], .advance 3 5 "d5" .go] : List Act).map .act

/-- The first is completed and gives the slot back, and the other takes it. -/
def handedOnMoves : List Rationed.Move :=
  ([.advance 2 0 "c6" (.returned timingReturn), .call 2 "c7" [], .call 2 "c8" []] : List Act).map .act ++ [.acquire 3]

theorem slot_handed_on : ∃ m m',
    Trace.run (Rationed.step localConfig) (Rationed.init (fun _ => some 1)) contendedMoves = some m ∧
    m.waits 3 = true ∧ (m.acquire 3).isNone = true ∧
    Trace.run (Rationed.step localConfig) m handedOnMoves = some m' ∧ m'.acquired 2 = false ∧ m'.acquired 3 = true ∧
    Trace.run (Sys.step localConfig) Sys.init ((contendedMoves ++ handedOnMoves).filterMap Rationed.Move.act?) =
      some m'.sys ∧
    ∃ x, m'.slots 0 = some x ∧
      (∀ inside : Finset Nat, (∀ q ∈ inside, m'.InAdapter 0 q) → inside.card ≤ 1) ∧
      (x.acquire = none ↔ ∃ held : Finset Nat, (∀ q ∈ held, m'.Holds 0 q) ∧ held.card = 1) ∧
      ((∀ q, ¬m'.Holds 0 q) → x.value = 1) ∧ ∀ q, m'.Holds 0 q → x.release.isSome = true := by
  have hwaits : (Trace.run (Rationed.step localConfig) (Rationed.init (fun _ => some 1)) contendedMoves).map (fun m =>
      (m.waits 3, (m.acquire 3).isNone)) = some (true, true) := by
    decide +kernel
  have hhanded : (Trace.run (Rationed.step localConfig) (Rationed.init (fun _ => some 1))
      (contendedMoves ++ handedOnMoves)).map (fun m => (m.acquired 2, m.acquired 3)) = some (false, true) := by
    decide +kernel
  obtain ⟨m, hm, hm'⟩ := Option.map_eq_some_iff.1 hwaits
  obtain ⟨m', hrun, hm''⟩ := Option.map_eq_some_iff.1 hhanded
  obtain ⟨h3, hacquire⟩ := Prod.mk.inj hm'
  obtain ⟨hgiven, htaken⟩ := Prod.mk.inj hm''
  obtain ⟨n, hn, hrest⟩ := Trace.run_append.1 hrun
  rw [hm] at hn
  cases hn
  obtain ⟨hsys, hslots⟩ := slots_bound_adapters localConfig (fun _ => some 1) (contendedMoves ++ handedOnMoves) m' hrun
  exact ⟨m, m', hm, h3, hacquire, hrest, hgiven, htaken, hsys, hslots 0 0 rfl⟩

end EdaLab
