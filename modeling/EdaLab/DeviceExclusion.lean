import EdaLab.Adapters
/-!
# DeviceExclusion — one holder for each device

A lock is taken for one lease and released for whichever lease a caller shows that names the resource.  So the leases, the
locks and the runs agree in exactly those runs where no release comes to a lock that is held for another lease, and where
no client raises past the `except Exception` of a `run` that connects (`device_exclusive_iff`).
-/
namespace EdaLab

open Locks

/-! ## The property -/

namespace Devices

/-- Of the leases of a resource one is unreleased at most, a run that has ended left none, and a lock is locked for one. -/
structure OneHolder (s : Devices) : Prop where
  single : ∀ l ∈ s.table.unreleased, ∀ l' ∈ s.table.unreleased, l.resourceKey = l'.resourceKey → l = l'
  ended  : ∀ i c l out, s.calls i = some c → c.method = .run → c.pc = .ended (some l) out → l ∉ s.table.unreleased
  free   : ∀ k, s.table.locks k = some true → ∃ l ∈ s.table.unreleased, l.resourceKey = k

/-- A release leaves the resource to a holder whose lease it is not given. -/
def Spares (s : Devices) (a : DeviceAct) (s' : Devices) : Prop :=
  ∀ i inp c lease out, a = .step i inp → s.calls i = some c → c.pc = .unlock lease out →
    ∀ k l, s.table.holder k = some l → l ≠ lease → s'.table.holder k = some l ∧ s'.table.locks k = some true

/-- A release comes to the lock while it is held for another lease. -/
def Intrudes (s : Devices) (a : DeviceAct) : Prop :=
  ∃ i c lease out l, a = .step i .go ∧ s.calls i = some c ∧ c.pc = .unlock lease out ∧
    lease.resourceKey = c.self.resourceKey ∧ s.table.holder lease.resourceKey = some l ∧ l ≠ lease

/-- The client of a `run` that holds the resource raises where it connects, and what it raises is no `Exception`. -/
def Escapes (s : Devices) (a : DeviceAct) : Prop :=
  ∃ i c lease endpoint, a = .step i (.raised false) ∧ s.calls i = some c ∧ c.method = .run ∧
    c.pc = .connect lease endpoint ∧ s.table.holder lease.resourceKey = some lease

end Devices

/-- At every moment of the run, and over every step of it. -/
structure DeviceExclusive (py : Runtime) (acts : List DeviceAct) : Prop where
  holder : ∀ pre post s, acts = pre ++ post → Trace.run (Devices.step py) .init pre = some s → s.OneHolder
  spares : Trace.Every (Devices.step py) (fun s a => ∀ s', s.step py a = some s' → s.Spares a s') .init acts

/-! ## What a step does -/

/-- The lease a call has. -/
def DevicePc.lease : DevicePc → Option DeviceLease
  | .acquire       => none
  | .connect l _   => some l
  | .execute l     => some l
  | .command l _ _ => some l
  | .collect l _   => some l
  | .close l _     => some l
  | .unlock l _    => some l
  | .ended l _     => l

def DevicePc.isEnded : DevicePc → Bool
  | .ended _ _ => true
  | _          => false

namespace DeviceCall

variable {py : Runtime} {c : DeviceCall} {lock : Option Bool} {number : Nat} {inp : DeviceInput} {pc' : DevicePc}
  {eff : LockEffect} {lease : DeviceLease} {out : DeviceOutcome}

/-- A step of a call: it tries to take the lock, releases it, or goes on with its lease. -/
inductive Move (py : Runtime) (c : DeviceCall) (lock : Option Bool) (number : Nat) (inp : DeviceInput) :
    DevicePc → LockEffect → Prop
  | refused (e : DeviceError) (pc_eq : c.pc = .acquire) : Move py c lock number inp (.ended none (.raised e)) .none
  | taken (l : DeviceLease) (pc' : DevicePc) (pc_eq : c.pc = .acquire) (lock_eq : lock = some false)
      (key_eq : l.resourceKey = c.self.resourceKey) (number_eq : l.number = number) (lease_eq : pc'.lease = some l)
      (goes_on : c.method = .run → pc'.isEnded = false) : Move py c lock number inp pc' (.take l)
  | kept (l : DeviceLease) (out out' : DeviceOutcome) (pc_eq : c.pc = .unlock l out)
      (kept : l.resourceKey ≠ c.self.resourceKey ∨ lock ≠ some true) : Move py c lock number inp (.ended (some l) out') .none
  | released (l : DeviceLease) (out : DeviceOutcome) (pc_eq : c.pc = .unlock l out) (inp_eq : inp = .go)
      (key_eq : l.resourceKey = c.self.resourceKey) (lock_eq : lock = some true) :
      Move py c lock number inp (.ended (some l) out) (.release l)
  | onwards (l : DeviceLease) (pc' : DevicePc) (was : c.pc.lease = some l) (not_unlock : ∀ out, c.pc ≠ .unlock l out)
      (is_now : pc'.lease = some l)
      (goes_on : c.method = .run → pc'.isEnded = false ∨ ∃ endpoint, c.pc = .connect l endpoint ∧ inp = .raised false) :
      Move py c lock number inp pc' .none

theorem leaving_lease : (c.leaving lease out).lease = some lease := by
  unfold leaving
  split <;> rfl

theorem leaving_isEnded : (c.leaving lease out).isEnded = false := by
  unfold leaving
  split <;> rfl

theorem acquired_lease : (c.acquired lease).lease = some lease := by
  unfold acquired
  split <;> rfl

theorem acquired_isEnded (h : c.method = .run) : (c.acquired lease).isEnded = false := by
  unfold acquired
  rw [h]
  rfl

theorem executed_lease (r : Except DeviceError RawResult) : (c.executed lease r).lease = some lease := by
  cases r with
  | ok raw =>
    simp only [executed]
    split <;> rfl
  | error e =>
    simp only [executed]
    split
    · exact leaving_lease
    · rfl

theorem executed_isEnded (h : c.method = .run) (r : Except DeviceError RawResult) :
    (c.executed lease r).isEnded = false := by
  cases r with
  | ok raw =>
    simp only [executed, h]
    rfl
  | error e =>
    simp only [executed, h]
    exact leaving_isEnded

theorem execute_lease : (c.execute lease).lease = some lease := by
  unfold execute
  split
  · split
    · rfl
    · exact executed_lease _
  · exact executed_lease _

theorem execute_isEnded (h : c.method = .run) : (c.execute lease).isEnded = false := by
  unfold execute
  split
  · split
    · rfl
    · exact executed_isEnded h _
  · exact executed_isEnded h _

theorem tryLock_move (t : Time) (hpc : c.pc = .acquire) :
    Move py c lock number inp (c.tryLock py lock number t).1 (c.tryLock py lock number t).2 := by
  unfold tryLock
  split
  · exact .refused _ hpc
  · split
    · exact .refused _ hpc
    · exact .refused _ hpc
    · exact .refused _ hpc
    · refine .taken _ _ hpc rfl rfl rfl ?_ (fun hrun => ?_)
      · simp only
        split
        · rfl
        · exact acquired_lease
      · simp only
        split
        · rfl
        · exact acquired_isEnded hrun

theorem unlock_move (hpc : c.pc = .unlock lease out) (hinp : inp = .go) :
    Move py c lock number inp (c.unlock lock lease out).1 (c.unlock lock lease out).2 := by
  unfold unlock
  split
  · rename_i hkey
    exact .kept lease out _ hpc (Or.inl hkey)
  · rename_i hkey
    cases lock with
    | none => exact .kept lease out _ hpc (Or.inr (by simp))
    | some locked =>
      cases locked with
      | false => exact .kept lease out _ hpc (Or.inr (by simp))
      | true => exact .released lease out hpc hinp (not_not.1 hkey) rfl

/-- A step that leaves the locks alone. -/
theorem Move.keeps (hpc : c.pc.lease = some lease) (hlock : ∀ out, c.pc ≠ .unlock lease out) (hnow : pc'.lease = some lease)
    (hend : c.method = .run → pc'.isEnded = false) : Move py c lock number inp pc' .none :=
  .onwards lease pc' hpc hlock hnow (fun hrun => Or.inl (hend hrun))

/-- **What a step of a call does.** -/
theorem advance_move (h : c.advance py lock number inp = some (pc', eff)) : Move py c lock number inp pc' eff := by
  unfold advance at h
  split at h
  case h_1 t hpc =>
    have hmove : Move py c lock number (.now t) (c.tryLock py lock number t).1 (c.tryLock py lock number t).2 :=
      tryLock_move t hpc
    rw [Option.some.inj h] at hmove
    exact hmove
  case h_2 l _ v hpc =>
    cases h
    exact .keeps (by rw [hpc]; rfl) (by rw [hpc]; simp) acquired_lease acquired_isEnded
  case h_3 l endpoint isException hpc =>
    split at h
    · cases h
      exact .keeps (by rw [hpc]; rfl) (by rw [hpc]; simp) rfl (fun _ => rfl)
    · rename_i hraised
      cases h
      refine .onwards l _ (by rw [hpc]; rfl) (by rw [hpc]; simp) rfl (fun _ => Or.inr ⟨endpoint, hpc, ?_⟩)
      rw [Bool.not_eq_true] at hraised
      rw [hraised]
  case h_4 l hpc =>
    cases h
    exact .keeps (by rw [hpc]; rfl) (by rw [hpc]; simp) execute_lease execute_isEnded
  case h_5 l responses hpc =>
    cases h
    exact .keeps (by rw [hpc]; rfl) (by rw [hpc]; simp) (executed_lease _) (fun hrun => executed_isEnded hrun _)
  case h_6 l _ rest responses v hpc =>
    split at h <;> cases h
    exact .keeps (by rw [hpc]; rfl) (by rw [hpc]; simp) rfl (fun _ => rfl)
  case h_7 l _ _ _ isException hpc =>
    split at h <;> cases h
    exact .keeps (by rw [hpc]; rfl) (by rw [hpc]; simp) (executed_lease _) (fun hrun => executed_isEnded hrun _)
  case h_8 l _ _ _ hpc =>
    split at h <;> cases h
    exact .keeps (by rw [hpc]; rfl) (by rw [hpc]; simp) (executed_lease _) (fun hrun => executed_isEnded hrun _)
  case h_9 l raw path hpc =>
    cases h
    exact .keeps (by rw [hpc]; rfl) (by rw [hpc]; simp) leaving_lease (fun _ => leaving_isEnded)
  case h_10 l _ hpc =>
    cases h
    exact .keeps (by rw [hpc]; rfl) (by rw [hpc]; simp) leaving_lease (fun _ => leaving_isEnded)
  case h_11 l out _ hpc =>
    cases h
    exact .keeps (by rw [hpc]; rfl) (by rw [hpc]; simp) rfl (fun _ => rfl)
  case h_12 l _ isException hpc =>
    cases h
    exact .keeps (by rw [hpc]; rfl) (by rw [hpc]; simp) rfl (fun _ => rfl)
  case h_13 l out hpc =>
    have hmove : Move py c lock number .go (c.unlock lock l out).1 (c.unlock lock l out).2 := unlock_move hpc rfl
    rw [Option.some.inj h] at hmove
    exact hmove
  case h_14 => cases h

end DeviceCall

/-! ## What the runs keep -/

namespace Devices

variable {py : Runtime} {s s' : Devices} {a : DeviceAct}

/-- A step of the system: an adapter is made, a call begins, or a call takes a step. -/
inductive Change (py : Runtime) (s : Devices) (a : DeviceAct) : Devices → Prop
  | created (x : DeviceAdapter) (no_step : ∀ i inp, a ≠ .step i inp) :
    Change py s a { s with adapters := x :: s.adapters, table := s.table.make x.resourceKey }
  | entered (i : Nat) (c : DeviceCall) (no_step : ∀ i inp, a ≠ .step i inp) (at_start : c.method = .run → c.pc = .acquire) :
    Change py s a { s with calls := Function.update s.calls i (some c) }
  | moved (i : Nat) (inp : DeviceInput) (c : DeviceCall) (pc' : DevicePc) (eff : LockEffect) (is_act : a = .step i inp)
      (call_eq : s.calls i = some c)
      (move : c.Move py (s.table.locks c.self.resourceKey) s.issued inp pc' eff) :
    Change py s a { s.apply c.self.resourceKey eff with calls := Function.update s.calls i (some { c with pc := pc' }) }

theorem enter_change {i : Nat} {c : DeviceCall} (hact : ∀ i inp, a ≠ .step i inp) (hrun : c.method = .run → c.pc = .acquire)
    (h : s.enter i c = some s') : Change py s a s' := by
  unfold enter at h
  split at h <;> cases h
  exact .entered i c hact hrun

theorem step_change (h : s.step py a = some s') : Change py s a s' := by
  cases a with
  | create x =>
    cases h
    exact .created x (by simp)
  | acquire i self spec => exact enter_change (by simp) (fun _ => rfl) h
  | run i self spec => exact enter_change (by simp) (fun _ => rfl) h
  | execute i self lease spec => exact enter_change (by simp) (fun hm => by cases hm) h
  | release i self lease => exact enter_change (by simp) (fun hm => by cases hm) h
  | step i inp =>
    simp only [step] at h
    cases hc : s.calls i with
    | none => rw [hc] at h; cases h
    | some c =>
      rw [hc] at h
      obtain ⟨⟨pc', eff⟩, hadv, hs'⟩ := Option.map_eq_some_iff.1 h
      cases hs'
      exact .moved i inp c pc' eff rfl hc (DeviceCall.advance_move hadv)

theorem step_call {i : Nat} {inp : DeviceInput} {c : DeviceCall} {pc' : DevicePc} {eff : LockEffect}
    (hc : s.calls i = some c)
    (hadv : c.advance py (s.table.locks c.self.resourceKey) s.issued inp = some (pc', eff)) :
    s.step py (.step i inp) =
      some { s.apply c.self.resourceKey eff with calls := Function.update s.calls i (some { c with pc := pc' }) } := by
  simp only [step, hc, hadv, Option.map_some]

/-- The leases and the locks agree, and a run's lease is its own. -/
structure Inv (s : Devices) : Prop where
  kept  : s.table.Kept DeviceLease.resourceKey
  own   : ∀ i c l, s.calls i = some c → c.method = .run → c.pc.lease = some l →
    l.resourceKey = c.self.resourceKey ∧ l.number < s.issued
  ended : ∀ i c l, s.calls i = some c → c.method = .run → c.pc.isEnded = true → c.pc.lease = some l → l ∉ s.table.unreleased

theorem Inv.init : Devices.init.Inv :=
  ⟨.empty, by simp [Devices.init], by simp [Devices.init]⟩

theorem Inv.oneHolder (h : s.Inv) : s.OneHolder where
  single _ hl _ hl' hkey := h.kept.single hl hl' hkey
  ended i c l out hc hrun hpc := h.ended i c l hc hrun (by rw [hpc]; rfl) (by rw [hpc]; rfl)
  free _ hk := h.kept.for_lease hk

/-- A lease that does not hold its resource is not unreleased. -/
theorem Inv.not_mem (h : s.Inv) {l : DeviceLease} (hne : s.table.holder l.resourceKey ≠ some l) : l ∉ s.table.unreleased :=
  fun hl => hne ((h.kept.unreleased l).1 hl)

theorem Inv.unlocked (h : s.Inv) {l : DeviceLease} (hlock : s.table.locks l.resourceKey ≠ some true) :
    l ∉ s.table.unreleased := by
  refine h.not_mem (fun hl => hlock ((h.kept.locked _).2 ?_))
  rw [hl]
  rfl

/-- Where the locks stay, the calls keep theirs if the one that moved does. -/
theorem Inv.goto (h : s.Inv) {i : Nat} {c : DeviceCall}
    (hown : c.method = .run → ∀ l, c.pc.lease = some l → l.resourceKey = c.self.resourceKey ∧ l.number < s.issued)
    (hend : c.method = .run → c.pc.isEnded = true → ∀ l, c.pc.lease = some l → l ∉ s.table.unreleased) :
    Inv { s with calls := Function.update s.calls i (some c) } := by
  refine ⟨h.kept, fun j d l hd hrun hl => ?_, fun j d l hd hrun hended hl => ?_⟩
  · by_cases hj : j = i
    · subst hj
      simp only [Function.update_self, Option.some.injEq] at hd
      subst hd
      exact hown hrun l hl
    · simp only [Function.update_of_ne hj] at hd
      exact h.own j d l hd hrun hl
  · by_cases hj : j = i
    · subst hj
      simp only [Function.update_self, Option.some.injEq] at hd
      subst hd
      exact hend hrun hended l hl
    · simp only [Function.update_of_ne hj] at hd
      exact h.ended j d l hd hrun hended hl

theorem Inv.make (h : s.Inv) (x : DeviceAdapter) :
    Inv { s with adapters := x :: s.adapters, table := s.table.make x.resourceKey } :=
  ⟨h.kept.make x.resourceKey, h.own, h.ended⟩

theorem Inv.take (h : s.Inv) {l : DeviceLease} (hlock : s.table.locks l.resourceKey = some false)
    (hnumber : l.number = s.issued) : (s.apply l.resourceKey (.take l)).Inv := by
  refine ⟨h.kept.take hlock, fun i c x hc hrun hx => ?_, fun i c x hc hrun hended hx => ?_⟩
  · obtain ⟨hkey, hlt⟩ := h.own i c x hc hrun hx
    exact ⟨hkey, Nat.lt_succ_of_lt hlt⟩
  · -- the new lease has a number of its own
    have hlt := (h.own i c x hc hrun hx).2
    have hne : x ≠ l := by
      rintro rfl
      omega
    exact List.not_mem_cons_of_ne_of_not_mem hne (h.ended i c x hc hrun hended hx)

theorem Inv.release (h : s.Inv) {l : DeviceLease} (hown : ∀ x, s.table.holder l.resourceKey = some x → x = l) :
    (s.apply l.resourceKey (.release l)).Inv :=
  ⟨h.kept.release hown, h.own, fun i c x hc hrun hended hx hmem =>
    h.ended i c x hc hrun hended hx (List.mem_filter.1 hmem).1⟩

/-- **Every step that neither intrudes nor escapes keeps the invariant.** -/
theorem Inv.step (h : s.Inv) (hintrudes : ¬s.Intrudes a) (hescapes : ¬s.Escapes a) (hstep : s.step py a = some s') :
    s'.Inv := by
  cases step_change hstep with
  | created x => exact h.make x
  | entered i c _ hrun =>
    refine h.goto (fun hm l hl => ?_) (fun hm hended => ?_)
    · rw [hrun hm] at hl
      cases hl
    · rw [hrun hm] at hended
      cases hended
  | moved i inp c pc' eff hact hc hmove =>
    cases hmove with
    | refused e => exact h.goto (fun _ l hl => by cases hl) (fun _ _ l hl => by cases hl)
    | taken l _ _ hlock hkey hnumber hlease hgo =>
      rw [← hkey] at hlock ⊢
      refine (h.take hlock hnumber).goto (fun _ x hx => ?_) (fun hrun hended => ?_)
      · rw [hlease] at hx
        cases hx
        exact ⟨hkey, by rw [hnumber]; exact Nat.lt_succ_self _⟩
      · rw [hgo hrun] at hended
        cases hended
    | kept l out out' hpc hkept =>
      have hl : c.method = .run → l.resourceKey = c.self.resourceKey ∧ l.number < s.issued :=
        fun hrun => h.own i c l hc hrun (by rw [hpc]; rfl)
      refine h.goto (fun hrun x hx => ?_) (fun hrun _ x hx => ?_)
      · cases hx
        exact hl hrun
      · cases hx
        rcases hkept with hkey | hlock
        · exact absurd (hl hrun).1 hkey
        · rw [← (hl hrun).1] at hlock
          exact h.unlocked hlock
    | released l out hpc hinp hkey hlock =>
      subst hinp
      have hown : ∀ x, s.table.holder l.resourceKey = some x → x = l := by
        intro x hx
        by_contra hne
        exact hintrudes ⟨i, c, l, out, x, hact, hc, hpc, hkey, hx, hne⟩
      rw [← hkey]
      refine (h.release hown).goto (fun hrun x hx => ?_) (fun _ _ x hx hmem => ?_)
      · cases hx
        exact h.own i c l hc hrun (by rw [hpc]; rfl)
      · cases hx
        simpa using (List.mem_filter.1 hmem).2
    | onwards l _ hwas _ hnow hgo =>
      refine h.goto (fun hrun x hx => ?_) (fun hrun hended x hx => ?_)
      · rw [hnow] at hx
        cases hx
        exact h.own i c l hc hrun hwas
      · rw [hnow] at hx
        cases hx
        rcases hgo hrun with hnot | ⟨endpoint, hpc, rfl⟩
        · rw [hnot] at hended
          cases hended
        · exact h.not_mem (fun hheld => hescapes ⟨i, c, l, endpoint, hact, hc, hrun, hpc, hheld⟩)

/-! ## The two exceptions -/

/-- A release that does not intrude spares every other holder. -/
theorem Inv.spares (h : s.Inv) (hintrudes : ¬s.Intrudes a) (hstep : s.step py a = some s') : s.Spares a s' := by
  rintro i inp c lease out rfl hc hpc k l hl hne
  have hlocked : s.table.locks k = some true := (h.kept.locked k).2 (by rw [hl]; rfl)
  cases step_change hstep with
  | created _ hno => exact absurd rfl (hno i inp)
  | entered _ _ hno => exact absurd rfl (hno i inp)
  | moved j inp' d pc' eff hact hd hmove =>
    cases hact
    rw [hc] at hd
    cases hd
    cases hmove with
    | refused _ hpc' => rw [hpc] at hpc'; cases hpc'
    | taken _ _ hpc' => rw [hpc] at hpc'; cases hpc'
    | kept => exact ⟨hl, hlocked⟩
    | released l' out' hpc' hinp hkey =>
      subst hinp
      rw [hpc] at hpc'
      cases hpc'
      have hk : k ≠ c.self.resourceKey := by
        rintro rfl
        rw [← hkey] at hl
        exact hintrudes ⟨i, c, lease, out, l, rfl, hc, hpc, hkey, hl, hne⟩
      simp only [apply, LockTable.release, Function.update_of_ne hk]
      exact ⟨hl, hlocked⟩
    | onwards l' _ hwas hnot =>
      rw [hpc] at hwas
      cases hwas
      exact absurd hpc (hnot out)

/-- One that does takes the lock from the holder. -/
theorem Inv.not_spares (py : Runtime) (h : s.Inv) (hintrudes : s.Intrudes a) :
    ∃ s', s.step py a = some s' ∧ ¬s.Spares a s' := by
  obtain ⟨i, c, lease, out, l, rfl, hc, hpc, hkey, hl, hne⟩ := hintrudes
  have hlocked : s.table.locks c.self.resourceKey = some true := by
    rw [← hkey]
    exact (h.kept.locked _).2 (by rw [hl]; rfl)
  have hadv : c.advance py (s.table.locks c.self.resourceKey) s.issued .go =
    some (.ended (some lease) out, .release lease) := by
    simp only [DeviceCall.advance, hpc, DeviceCall.unlock, hkey, hlocked]
    simp
  refine ⟨_, step_call hc hadv, fun hspares => ?_⟩
  have hheld := (hspares i .go c lease out rfl hc hpc _ l hl hne).1
  simp only [apply, LockTable.release, hkey, Function.update_self] at hheld
  cases hheld

/-- And a run that escapes ends with the resource held. -/
theorem Inv.not_oneHolder (py : Runtime) (h : s.Inv) (hescapes : s.Escapes a) :
    ∃ s', s.step py a = some s' ∧ ¬s'.OneHolder := by
  obtain ⟨i, c, lease, endpoint, rfl, hc, hrun, hpc, hheld⟩ := hescapes
  have hadv : c.advance py (s.table.locks c.self.resourceKey) s.issued (.raised false) =
      some (.ended (some lease) (.raised (.client false)), .none) := by
    simp only [DeviceCall.advance, hpc]
    rfl
  refine ⟨_, step_call hc hadv, fun hone => ?_⟩
  exact hone.ended i _ lease _ (Function.update_self ..) hrun rfl ((h.kept.unreleased lease).2 hheld)

end Devices

/-! ## The whole run -/

section Run

variable {py : Runtime}

theorem exclusive_of_every {acts : List DeviceAct}
    (h : Trace.Every (Devices.step py) (fun s a => ¬s.Intrudes a ∧ ¬s.Escapes a) .init acts) : DeviceExclusive py acts := by
  have hinv : ∀ pre post s, acts = pre ++ post → Trace.run (Devices.step py) .init pre = some s → s.Inv := by
    rintro pre post s rfl hrun
    refine Trace.run_preserves_of_every (fun m act m' hm hgood hstep => ?_) Devices.Inv.init (Trace.every_append.1 h).1 hrun
    exact hm.step hgood.1 hgood.2 hstep
  refine ⟨fun pre post s hacts hrun => (hinv pre post s hacts hrun).oneHolder, Trace.every_iff_forall_split.2 ?_⟩
  intro pre act post s hacts hrun s' hstep
  have hgood := Trace.every_iff_forall_split.1 h pre act post s hacts hrun
  exact (hinv pre (act :: post) s hacts hrun).spares hgood.1 hstep

/-- From a state that keeps the invariant, the property leaves room for no exception. -/
theorem every_of_exclusive : ∀ {acts : List DeviceAct} {s : Devices}, s.Inv →
    (∀ pre post m, acts = pre ++ post → Trace.run (Devices.step py) s pre = some m → m.OneHolder) →
    Trace.Every (Devices.step py) (fun s a => ∀ s', s.step py a = some s' → s.Spares a s') s acts →
    Trace.Every (Devices.step py) (fun s a => ¬s.Intrudes a ∧ ¬s.Escapes a) s acts
  | [], _, _, _, _ => trivial
  | act :: acts, s, hinv, hholder, hspares => by
    have hintrudes : ¬s.Intrudes act := by
      intro hi
      obtain ⟨s', hstep, hnot⟩ := hinv.not_spares py hi
      exact hnot (hspares.1 s' hstep)
    have hescapes : ¬s.Escapes act := by
      intro he
      obtain ⟨s', hstep, hnot⟩ := hinv.not_oneHolder py he
      exact hnot (hholder [act] acts s' rfl (Trace.run_cons.2 ⟨s', hstep, rfl⟩))
    refine ⟨⟨hintrudes, hescapes⟩, fun s' hstep => ?_⟩
    refine every_of_exclusive (hinv.step hintrudes hescapes hstep) (fun pre post m hacts hrun => ?_) (hspares.2 s' hstep)
    exact hholder (act :: pre) post m (by rw [hacts]; rfl) (Trace.run_cons.2 ⟨s', hstep, hrun⟩)

end Run

/-- **The resources have one holder each, in every run without an intruding release or an escaping `run` and in no
other.** -/
theorem device_exclusive_iff (py : Runtime) (acts : List DeviceAct) : DeviceExclusive py acts ↔
    Trace.Every (Devices.step py) (fun s a => ¬s.Intrudes a ∧ ¬s.Escapes a) .init acts :=
  ⟨fun h => every_of_exclusive Devices.Inv.init h.holder h.spares, exclusive_of_every⟩

/-! ### A lease that is released twice -/

def fixtureDevice : DeviceAdapter := ⟨.fixture, "device", false⟩

def ownedBy (owner : String) (number : Nat) : DeviceLease := ⟨"device", owner, number, number⟩

/-- The first owner releases its lease, the second takes the resource, the first lease is released again, and a third owner
takes the resource too. -/
def staleReleaseActs : List DeviceAct :=
  [.create fixtureDevice,
   .acquire 0 fixtureDevice [("job_id", .str "first")], .step 0 (.now 0), .release 1 fixtureDevice (ownedBy "first" 0),
   .step 1 .go,
   .acquire 2 fixtureDevice [("job_id", .str "second")], .step 2 (.now 1),
   .release 3 fixtureDevice (ownedBy "first" 0), .step 3 .go,
   .acquire 4 fixtureDevice [("job_id", .str "third")], .step 4 (.now 2)]

/-- **Two leases of one resource are unreleased.** -/
theorem stale_release_frees_holder : ¬DeviceExclusive ⟨fun _ _ => none, fun _ => ""⟩ staleReleaseActs := by
  intro h
  have hrun : (Trace.run (Devices.step ⟨fun _ _ => none, fun _ => ""⟩) .init staleReleaseActs).map (·.table.unreleased) =
      some [ownedBy "third" 2, ownedBy "second" 1] := by
    decide +kernel
  obtain ⟨s, hs, hleases⟩ := Option.map_eq_some_iff.1 hrun
  have hone := h.holder staleReleaseActs [] s (List.append_nil _).symm hs
  have hsame := hone.single (ownedBy "third" 2) (by rw [hleases]; simp) (ownedBy "second" 1) (by rw [hleases]; simp) rfl
  exact absurd hsame (by decide)

end EdaLab
