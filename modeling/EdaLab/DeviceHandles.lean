import EdaLab.Clients
import EdaLab.DeviceExclusion
/-!
# DeviceHandles — the adapters with their clients

The lock of a resource is taken before its client connects and released after it has closed, so what a device is asked comes
from the `run` that holds the resource, with what the module gave this `run` when it opened the device.  A handle that the
module fails to close stays open behind a lock that is free; where the module gives no handle twice while it is open, only
then can a resource have two (`one_handle_iff`).
-/
namespace EdaLab

open Locks

/-- Adapters, the client each of them was given, and the clients as they were made; a client serves one resource. -/
structure Bench where
  adapter      : Nat → DeviceAdapter
  client       : Nat → Nat
  made         : Nat → DeviceClient
  made_closed  : ∀ k, (made k).isOpen = false
  one_resource : ∀ k l, client k = client l → (adapter k).resourceKey = (adapter l).resourceKey

/-- What the module returned for a device, the resource it was opened for and the call that opened it. -/
structure DeviceHandle where
  value       : Json
  resourceKey : String
  call        : Nat
  deriving DecidableEq

structure Rig where
  devices   : Devices
  clients   : Nat → DeviceClient
  adapterOf : Nat → Nat
  /-- What `module.open` has returned to each call. -/
  given     : Nat → Json
  /-- What the module has opened and not closed. -/
  handles   : List DeviceHandle
  /-- The handles it failed to close. -/
  stranded  : List DeviceHandle

inductive RigAct
  | create (k : Nat)
  | run (i k : Nat) (spec : DeviceSpec)
  /-- A step of a call that asks no client. -/
  | step (i : Nat) (inp : DeviceInput)
  /-- One that does. -/
  | ask (i : Nat) (answer : ClientAnswer)

def DevicePc.asks : DevicePc → Bool
  | .connect _ _        => true
  | .command _ (_ :: _) _ => true
  | .close _ _          => true
  | _                   => false

/-- What a call asks its client. -/
def DeviceClient.serve (py : Runtime) (c : DeviceClient) (answer : ClientAnswer) : DevicePc → Option ClientStep
  | .connect _ target           => some (c.connect target answer)
  | .command _ (command :: _) _ => some (c.command py command answer)
  | .close _ _                  => some (c.close answer)
  | _                           => none

namespace ClientStep

def input (x : ClientStep) : DeviceInput :=
  match x.result with
  | .ok v    => .returned v
  | .error e => .raised e.isException

/-- What the module returned where it opened a device. -/
def opened (x : ClientStep) : Option Json :=
  match x.asked, x.result with
  | some (.openDevice _), .ok _ => some x.client.handle
  | _, _                        => none

end ClientStep

namespace Rig

/-- The handles of a device that has been opened; `None` is no handle. -/
def handlesOf (key : String) (i : Nat) (v : Json) : List DeviceHandle := if v = .null then [] else [⟨v, key, i⟩]

/-- What the module holds after it was asked. -/
def asked (s : Rig) (i : Nat) (key : String) (x : ClientStep) : Rig :=
  match x.asked, x.result with
  | some (.openDevice _), .ok _ =>
    { s with given := Function.update s.given i x.client.handle, handles := handlesOf key i x.client.handle ++ s.handles }
  | some (.close h), .ok _ =>
    { s with
      handles  := s.handles.filter (fun y => decide (y.value ≠ h))
      stranded := s.stranded.filter (fun y => decide (y.value ≠ h)) }
  | some (.close h), .error _ => { s with stranded := s.handles.filter (fun y => decide (y.value = h)) ++ s.stranded }
  | _, _ => s

variable (b : Bench) (py : Runtime)

def init : Rig := ⟨.init, b.made, fun _ => 0, fun _ => .null, [], []⟩

/-- The client of a call. -/
def clientOf (s : Rig) (i : Nat) : DeviceClient := s.clients (b.client (s.adapterOf i))

def step (s : Rig) : RigAct → Option Rig
  | .create k     => (s.devices.step py (.create (b.adapter k))).map (fun d => { s with devices := d })
  | .run i k spec =>
    (s.devices.step py (.run i (b.adapter k) spec)).map (fun d =>
      { s with devices := d, adapterOf := Function.update s.adapterOf i k })
  | .step i inp =>
    if (s.devices.calls i).any (fun c => c.pc.asks) then none
    else (s.devices.step py (.step i inp)).map (fun d => { s with devices := d })
  | .ask i answer =>
    (s.devices.calls i).bind (fun c =>
      ((s.clientOf b i).serve py answer c.pc).bind (fun x =>
        (s.devices.step py (.step i x.input)).map (fun d =>
          { s.asked i c.self.resourceKey x with
            devices := d
            clients := Function.update s.clients (b.client (s.adapterOf i)) x.client })))

end Rig

/-! ## The properties -/

namespace Rig

variable (b : Bench) (py : Runtime)

/-- What a step asks of a device. -/
def asks (s : Rig) : RigAct → Option (Nat × DeviceCall × ClientStep)
  | .ask i answer =>
    (s.devices.calls i).bind (fun c => ((s.clientOf b i).serve py answer c.pc).map (fun x => (i, c, x)))
  | _ => none

/-- The handles a step opens: one, or none. -/
def opens (s : Rig) (a : RigAct) : List DeviceHandle :=
  match s.asks b py a with
  | some (i, c, x) => (x.opened.map (handlesOf c.self.resourceKey i)).getD []
  | none           => []

end Rig

/-- The handle an operation is given. -/
def DeviceOp.handle : DeviceOp → Option Json
  | .transfer h _ => some h
  | .close h      => some h
  | _             => none

/-- A client is asked by the `run` that holds the resource; where it asks the device, it gives what the module returned to
this `run`; and a command comes to a client that is open, unless the module returned `None` to this `run`. -/
def AskedByHolder (b : Bench) (py : Runtime) (s : Rig) (a : RigAct) : Prop :=
  ∀ i c x, s.asks b py a = some (i, c, x) →
    (∃ l, c.pc.lease = some l ∧ s.devices.table.holder c.self.resourceKey = some l) ∧
    (∀ op h, x.asked = some op → op.handle = some h → h = s.given i ∧ h ≠ .null) ∧
    ∀ l command rest responses, c.pc = .command l (command :: rest) responses →
      (s.clientOf b i).isOpen = true ∨ ((s.clientOf b i).cls = .aardvark ∧ s.given i = .null)

/-- What the module is given is a handle that nobody has closed. -/
def HandleOpen (b : Bench) (py : Runtime) (s : Rig) (a : RigAct) : Prop :=
  ∀ i c x op h, s.asks b py a = some (i, c, x) → x.asked = some op → op.handle = some h →
    ⟨h, c.self.resourceKey, i⟩ ∈ s.handles ∧ ⟨h, c.self.resourceKey, i⟩ ∉ s.stranded

/-- The module returns no handle that is still open. -/
def FreshHandle (b : Bench) (py : Runtime) (s : Rig) (a : RigAct) : Prop :=
  ∀ y ∈ s.opens b py a, ∀ z ∈ s.handles, z.value ≠ y.value

/-- A resource has one open handle at most. -/
def Rig.OneHandle (s : Rig) : Prop := ∀ x ∈ s.handles, ∀ y ∈ s.handles, x.resourceKey = y.resourceKey → x = y

/-- A device is opened for a resource that has a handle the module failed to close. -/
def OpensStranded (b : Bench) (py : Runtime) (s : Rig) (a : RigAct) : Prop :=
  ∃ y ∈ s.opens b py a, ∃ z ∈ s.stranded, z.resourceKey = y.resourceKey

instance (b : Bench) (py : Runtime) (s : Rig) (a : RigAct) : Decidable (FreshHandle b py s a) :=
  inferInstanceAs (Decidable (∀ y ∈ s.opens b py a, ∀ z ∈ s.handles, z.value ≠ y.value))

instance (b : Bench) (py : Runtime) (s : Rig) (a : RigAct) : Decidable (OpensStranded b py s a) :=
  inferInstanceAs (Decidable (∃ y ∈ s.opens b py a, ∃ z ∈ s.stranded, z.resourceKey = y.resourceKey))

/-! ## What a client does -/

/-- A call of a client, by what it does to the handle and to the connection. -/
inductive DeviceClient.Served (c : DeviceClient) : DevicePc → ClientStep → Prop
  | opened (l : DeviceLease) (target device v : Json) (c' : DeviceClient) (is_aardvark : c.cls = .aardvark)
      (cls_eq : c'.cls = c.cls) : Served c (.connect l target) ⟨c', some (.openDevice device), .ok v⟩
  | connected (l : DeviceLease) (target v : Json) (c' : DeviceClient) (not_aardvark : c.cls ≠ .aardvark)
      (cls_eq : c'.cls = c.cls) (is_connected : c'.connected = true) : Served c (.connect l target) ⟨c', none, .ok v⟩
  | refused (l : DeviceLease) (target : Json) (c' : DeviceClient) (asked : Option DeviceOp) (e : ClientError)
      (no_handle : ∀ op ∈ asked, ∃ device, op = .openDevice device) : Served c (.connect l target) ⟨c', asked, .error e⟩
  | commanded (l : DeviceLease) (command : Json) (rest responses : List Json) (asked : Option DeviceOp)
      (result : Except ClientError Json)
      (of_handle : ∀ op ∈ asked, (∃ args, op = .command args) ∨
        ∃ transaction, op = .transfer c.handle transaction ∧ c.cls = .aardvark ∧ c.handle ≠ .null) :
      Served c (.command l (command :: rest) responses) ⟨c, asked, result⟩
  | closed (l : DeviceLease) (out : DeviceOutcome) (v : Json) (c' : DeviceClient) (is_aardvark : c.cls = .aardvark)
      (was : c.handle ≠ .null) : Served c (.close l out) ⟨c', some (.close c.handle), .ok v⟩
  | failed (l : DeviceLease) (out : DeviceOutcome) (e : ClientError) (is_aardvark : c.cls = .aardvark)
      (was : c.handle ≠ .null) : Served c (.close l out) ⟨c, some (.close c.handle), .error e⟩
  | left (l : DeviceLease) (out : DeviceOutcome) (v : Json) (c' : DeviceClient)
      (none_open : c.cls = .aardvark → c.handle = .null) : Served c (.close l out) ⟨c', none, .ok v⟩

namespace DeviceClient

theorem openDevice_served (c : DeviceClient) (hc : c.cls = .aardvark) (l : DeviceLease) (target device : Json)
    (answer : ClientAnswer) : c.Served (.connect l target) (c.openDevice device answer) := by
  cases answer with
  | returned v => exact .opened l target _ _ _ hc rfl
  | missing =>
    simp only [openDevice]
    split
    · exact .refused l target _ _ _ (fun op hop => ⟨_, (Option.mem_some.1 hop).symm⟩)
    · exact .refused l target _ _ _ (fun op hop => by cases hop)
  | _ => exact .refused l target _ _ _ (fun op hop => ⟨_, (Option.mem_some.1 hop).symm⟩)

theorem connect_served (c : DeviceClient) (l : DeviceLease) (target : Json) (answer : ClientAnswer) :
    c.Served (.connect l target) (c.connect target answer) := by
  unfold connect
  cases hcls : c.cls with
  | aardvark => exact c.openDevice_served hcls l target target answer
  | trace32 => exact .connected l target _ _ (by rw [hcls]; decide) hcls.symm rfl
  | replayTrace32 => exact .connected l target _ _ (by rw [hcls]; decide) hcls.symm rfl
  | replayAardvark => exact .connected l target _ _ (by rw [hcls]; decide) hcls.symm rfl

theorem command_served (py : Runtime) (c : DeviceClient) (l : DeviceLease) (command : Json) (rest responses : List Json)
    (answer : ClientAnswer) : c.Served (.command l (command :: rest) responses) (c.command py command answer) := by
  have hnone : ∀ result, c.Served (.command l (command :: rest) responses) ⟨c, none, result⟩ :=
    fun result => .commanded l command rest responses none result (fun op hop => by cases hop)
  have hreplay : ∀ missing key, c.Served (.command l (command :: rest) responses) (c.replay missing key) := by
    intro missing key
    unfold replay
    split <;> (try split) <;> exact hnone _
  unfold DeviceClient.command
  by_cases hopen : c.isOpen = true
  · rw [if_pos hopen]
    cases hcls : c.cls with
    | aardvark =>
      have hhandle : c.handle ≠ .null := by simpa [isOpen, hcls] using hopen
      have htransfer : ∀ result, c.Served (.command l (command :: rest) responses)
          ⟨c, some (.transfer c.handle command), result⟩ :=
        fun result => .commanded l command rest responses _ result
          (fun op hop => Or.inr ⟨command, (Option.mem_some.1 hop).symm, hcls, hhandle⟩)
      cases answer <;> exact htransfer _
    | trace32 =>
      have hrun : ∀ result, c.Served (.command l (command :: rest) responses)
          ⟨c, some (.command (c.arguments command)), result⟩ :=
        fun result => .commanded l command rest responses _ result (fun op hop => Or.inl ⟨_, (Option.mem_some.1 hop).symm⟩)
      cases answer <;> exact hrun _
    | replayTrace32 => exact hreplay _ _
    | replayAardvark => exact hreplay _ _
  · rw [if_neg hopen]
    exact hnone _

theorem close_served (c : DeviceClient) (l : DeviceLease) (out : DeviceOutcome) (answer : ClientAnswer) :
    c.Served (.close l out) (c.close answer) := by
  unfold close
  cases hcls : c.cls with
  | aardvark =>
    by_cases hh : c.handle = .null
    · simp only [if_pos hh]
      exact .left l out _ _ (fun _ => hh)
    · simp only [if_neg hh]
      cases answer with
      | returned v => exact .closed l out _ _ hcls hh
      | _ => exact .failed l out _ hcls hh
  | trace32 => exact .left l out _ _ (fun h => by rw [hcls] at h; cases h)
  | replayTrace32 => exact .left l out _ _ (fun h => by rw [hcls] at h; cases h)
  | replayAardvark => exact .left l out _ _ (fun h => by rw [hcls] at h; cases h)

/-- **What a call of a client does.** -/
theorem serve_served {py : Runtime} {c : DeviceClient} {answer : ClientAnswer} {pc : DevicePc} {x : ClientStep}
    (h : c.serve py answer pc = some x) : c.Served pc x := by
  unfold serve at h
  split at h
  · cases h; exact c.connect_served _ _ answer
  · cases h; exact c.command_served py _ _ _ _ answer
  · cases h; exact c.close_served _ _ answer
  · cases h

end DeviceClient

/-! ## What a `run` does -/

/-- Between the connection of the client and the end of its closing. -/
def DevicePc.inSession : DevicePc → Bool
  | .execute _     => true
  | .command _ _ _ => true
  | .collect _ _   => true
  | .close _ _     => true
  | _              => false

/-- Whether a step leaves the call in the session. -/
def DevicePc.staysIn : DevicePc → DeviceInput → Bool
  | .connect _ _, .returned _ => true
  | .close _ _, _             => false
  | pc, _                     => pc.inSession

/-- Where a `run` is: an adapter of a client class has its client once it has a lease, and no other comes to a client. -/
structure DeviceAdapter.Fits (d : DeviceAdapter) (pc : DevicePc) : Prop where
  client : d.cls.isReal = true → pc.lease.isSome = true → d.hasClient = true
  real   : pc.asks = true ∨ (∃ l rest responses, pc = .command l rest responses) → d.cls.isReal = true

/-- What a step of a `run` keeps. -/
structure DeviceAdapter.RunStep (d : DeviceAdapter) (pc : DevicePc) (inp : DeviceInput) (pc' : DevicePc) : Prop where
  fits : d.Fits pc'
  session : d.cls.isReal = true → pc'.inSession = pc.staysIn inp

namespace DeviceCall

variable {py : Runtime} {c : DeviceCall} {lock : Option Bool} {number : Nat} {inp : DeviceInput} {pc pc' : DevicePc}
  {eff : LockEffect} {lease : DeviceLease} {out : DeviceOutcome} {d : DeviceAdapter}

/-- A place with a lease that is no command and asks nothing. -/
theorem fits_plain (hclient : d.cls.isReal = true → d.hasClient = true) (hasks : pc.asks = false)
    (hcommand : ∀ l rest responses, pc ≠ .command l rest responses) : d.Fits pc := by
  refine ⟨fun hr _ => hclient hr, ?_⟩
  rintro (h | ⟨l, rest, responses, h⟩)
  · rw [hasks] at h
    cases h
  · exact absurd h (hcommand l rest responses)

theorem fits_real (hclient : d.cls.isReal = true → d.hasClient = true) (hreal : d.cls.isReal = true) : d.Fits pc :=
  ⟨fun hr _ => hclient hr, fun _ => hreal⟩

theorem leaving_run (hclient : c.self.cls.isReal = true → c.self.hasClient = true) (hin : c.pc.staysIn inp = true) :
    c.self.RunStep c.pc inp (c.leaving lease out) := by
  unfold leaving
  split
  · rename_i hreal
    exact ⟨fits_real hclient hreal.1, fun _ => hin.symm⟩
  · rename_i hnot
    exact ⟨fits_plain hclient rfl (fun _ _ _ h => by cases h), fun hr => absurd ⟨hr, hclient hr⟩ hnot⟩

theorem executed_run (hrun : c.method = .run) (hclient : c.self.cls.isReal = true → c.self.hasClient = true)
    (hin : c.pc.staysIn inp = true) (r : Except DeviceError RawResult) : c.self.RunStep c.pc inp (c.executed lease r) := by
  cases r with
  | ok raw =>
    simp only [executed, hrun]
    exact ⟨fits_plain hclient rfl (fun _ _ _ h => by cases h), fun _ => hin.symm⟩
  | error e =>
    simp only [executed, hrun]
    exact leaving_run hclient hin

/-- **What a step of a `run` keeps**: its client is connected from the answer to `connect` to that of `close`. -/
theorem advance_run (hrun : c.method = .run) (hfits : c.self.Fits c.pc)
    (hadv : c.advance py lock number inp = some (pc', eff)) : c.self.RunStep c.pc inp pc' := by
  have hclient : ∀ l, c.pc.lease = some l → c.self.cls.isReal = true → c.self.hasClient = true :=
    fun l hl hr => hfits.client hr (by rw [hl]; rfl)
  unfold advance at hadv
  split at hadv
  case h_1 t hpc =>
    have hin : c.pc.staysIn (.now t) = false := by rw [hpc]; rfl
    have hrefused : ∀ e, c.self.RunStep c.pc (.now t) (.ended none (.raised e)) := fun e =>
      ⟨⟨fun _ h => (by cases h), fun h => by rcases h with h | ⟨_, _, _, h⟩ <;> cases h⟩, fun _ => hin.symm⟩
    have hpc' := congrArg Prod.fst (Option.some.inj hadv)
    simp only [tryLock] at hpc'
    split at hpc'
    · cases hpc'
      exact hrefused _
    · rename_i hconfigured
      have hclient' : c.self.cls.isReal = true → c.self.hasClient = true := fun hr => by simpa [hr] using hconfigured
      split at hpc'
      · cases hpc'
        exact hrefused _
      · cases hpc'
        exact hrefused _
      · cases hpc'
        exact hrefused _
      · split at hpc' <;> cases hpc'
        · rename_i hreal
          exact ⟨fits_real hclient' hreal, fun _ => hin.symm⟩
        · rename_i hfixture
          simp only [acquired, hrun]
          exact ⟨fits_plain hclient' rfl (fun _ _ _ h => by cases h), fun hr => absurd hr hfixture⟩
  case h_2 l target v hpc =>
    cases hadv
    simp only [acquired, hrun]
    exact ⟨fits_plain (hclient l (by rw [hpc]; rfl)) rfl (fun _ _ _ h => by cases h), fun _ => by rw [hpc]; rfl⟩
  case h_3 l endpoint isException hpc =>
    have hplain := hclient l (by rw [hpc]; rfl)
    split at hadv <;> cases hadv
    · exact ⟨fits_plain hplain rfl (fun _ _ _ h => by cases h), fun _ => by rw [hpc]; rfl⟩
    · exact ⟨fits_plain hplain rfl (fun _ _ _ h => by cases h), fun _ => by rw [hpc]; rfl⟩
  case h_4 l hpc =>
    cases hadv
    have hplain := hclient l (by rw [hpc]; rfl)
    have hin : c.pc.staysIn .go = true := by rw [hpc]; rfl
    unfold execute
    split
    · rename_i hreal
      split
      · exact ⟨fits_real hplain hreal, fun _ => hin.symm⟩
      · exact executed_run hrun hplain hin _
    · exact executed_run hrun hplain hin _
  case h_5 l responses hpc =>
    cases hadv
    exact executed_run hrun (hclient l (by rw [hpc]; rfl)) (by rw [hpc]; rfl) _
  case h_6 l command rest responses v hpc =>
    split at hadv <;> cases hadv
    exact ⟨fits_real (hclient l (by rw [hpc]; rfl)) (hfits.real (Or.inr ⟨_, _, _, hpc⟩)), fun _ => by rw [hpc]; rfl⟩
  case h_7 l command rest responses isException hpc =>
    split at hadv <;> cases hadv
    exact executed_run hrun (hclient l (by rw [hpc]; rfl)) (by rw [hpc]; rfl) _
  case h_8 l command rest responses hpc =>
    split at hadv <;> cases hadv
    exact executed_run hrun (hclient l (by rw [hpc]; rfl)) (by rw [hpc]; rfl) _
  case h_9 l raw path hpc =>
    cases hadv
    exact leaving_run (hclient l (by rw [hpc]; rfl)) (by rw [hpc]; rfl)
  case h_10 l raw hpc =>
    cases hadv
    exact leaving_run (hclient l (by rw [hpc]; rfl)) (by rw [hpc]; rfl)
  case h_11 l out v hpc =>
    cases hadv
    exact ⟨fits_plain (hclient l (by rw [hpc]; rfl)) rfl (fun _ _ _ h => by cases h), fun _ => by rw [hpc]; rfl⟩
  case h_12 l out isException hpc =>
    cases hadv
    exact ⟨fits_plain (hclient l (by rw [hpc]; rfl)) rfl (fun _ _ _ h => by cases h), fun _ => by rw [hpc]; rfl⟩
  case h_13 l out hpc =>
    have hplain := hclient l (by rw [hpc]; rfl)
    have hpc' := congrArg Prod.fst (Option.some.inj hadv)
    simp only [unlock] at hpc'
    split at hpc'
    · cases hpc'
      exact ⟨fits_plain hplain rfl (fun _ _ _ h => by cases h), fun _ => by rw [hpc]; rfl⟩
    · split at hpc' <;> cases hpc' <;>
        exact ⟨fits_plain hplain rfl (fun _ _ _ h => by cases h), fun _ => by rw [hpc]; rfl⟩
  case h_14 => cases hadv

end DeviceCall

/-! ## Runs and no other calls -/

namespace Devices

variable {py : Runtime} {s s' : Devices}

/-- Where every call is a `run`: one that has a lease and has not ended holds its resource. -/
structure Held (s : Devices) : Prop where
  kept  : s.table.Kept DeviceLease.resourceKey
  run   : ∀ i c, s.calls i = some c → c.method = .run ∧ c.self.Fits c.pc
  own   : ∀ i c l, s.calls i = some c → c.pc.lease = some l → l.resourceKey = c.self.resourceKey ∧ l.number < s.issued
  apart : ∀ i j c d l m, s.calls i = some c → s.calls j = some d → c.pc.lease = some l → d.pc.lease = some m →
    l.number = m.number → i = j
  holds : ∀ i c l, s.calls i = some c → c.pc.lease = some l → c.pc.isEnded = false →
    s.table.holder c.self.resourceKey = some l

theorem Held.init : Devices.init.Held :=
  ⟨.empty, (fun i c h => by cases h), (fun i c l h => by cases h), (fun i j c d l m h => by cases h),
    fun i c l h => by cases h⟩

theorem update_cases {calls : Nat → Option DeviceCall} {i j : Nat} {c d : DeviceCall}
    (h : Function.update calls i (some c) j = some d) : (j = i ∧ d = c) ∨ (j ≠ i ∧ calls j = some d) := by
  by_cases hj : j = i
  · subst hj
    rw [Function.update_self] at h
    exact Or.inl ⟨rfl, (Option.some.inj h).symm⟩
  · rw [Function.update_of_ne hj] at h
    exact Or.inr ⟨hj, h⟩

/-- Two calls that hold one resource are one. -/
theorem Held.sole (h : s.Held) {i j : Nat} {c d : DeviceCall} {l m : DeviceLease} (hc : s.calls i = some c)
    (hd : s.calls j = some d) (hl : c.pc.lease = some l) (hm : d.pc.lease = some m) (hcend : c.pc.isEnded = false)
    (hdend : d.pc.isEnded = false) (hkey : c.self.resourceKey = d.self.resourceKey) : i = j := by
  have hci := h.holds i c l hc hl hcend
  have hdj := h.holds j d m hd hm hdend
  rw [hkey, hdj] at hci
  obtain rfl := Option.some.inj hci
  exact h.apart i j c d _ _ hc hd hl hm rfl

/-- A call that goes on, with the lease it had or with a new one of its own. -/
theorem Held.goto (h : s.Held) {i : Nat} {c : DeviceCall} {pc' : DevicePc} (hc : s.calls i = some c)
    (hfits : c.self.Fits pc') (hlease : ∀ l, pc'.lease = some l → c.pc.lease = some l)
    (hholds : ∀ l, pc'.lease = some l → pc'.isEnded = false → s.table.holder c.self.resourceKey = some l) :
    Held { s with calls := Function.update s.calls i (some { c with pc := pc' }) } := by
  refine ⟨h.kept, fun j d hd => ?_, fun j d l hd hl => ?_, fun j k d e l m hd he hl hm hnumber => ?_,
    fun j d l hd hl hend => ?_⟩
  · rcases update_cases hd with ⟨rfl, rfl⟩ | ⟨-, hd⟩
    · exact ⟨(h.run j c hc).1, hfits⟩
    · exact h.run j d hd
  · rcases update_cases hd with ⟨rfl, rfl⟩ | ⟨-, hd⟩
    · exact h.own j c l hc (hlease l hl)
    · exact h.own j d l hd hl
  · rcases update_cases hd with ⟨rfl, rfl⟩ | ⟨-, hd'⟩ <;> rcases update_cases he with ⟨rfl, rfl⟩ | ⟨-, he'⟩
    · rfl
    · exact h.apart j k c e l m hc he' (hlease l hl) hm hnumber
    · exact h.apart j k d c l m hd' hc hl (hlease m hm) hnumber
    · exact h.apart j k d e l m hd' he' hl hm hnumber
  · rcases update_cases hd with ⟨rfl, rfl⟩ | ⟨-, hd⟩
    · exact hholds l hl hend
    · exact h.holds j d l hd hl hend

theorem Held.make (h : s.Held) (x : DeviceAdapter) :
    Held { s with adapters := x :: s.adapters, table := s.table.make x.resourceKey } :=
  ⟨h.kept.make x.resourceKey, h.run, h.own, h.apart, h.holds⟩

theorem Held.enter (h : s.Held) {i : Nat} {c : DeviceCall} (hrun : c.method = .run) (hpc : c.pc = .acquire) :
    Held { s with calls := Function.update s.calls i (some c) } := by
  have hnone : ∀ l, c.pc.lease ≠ some l := by
    intro l hl
    rw [hpc] at hl
    cases hl
  refine ⟨h.kept, fun j d hd => ?_, fun j d l hd hl => ?_, fun j k d e l m hd he hl hm hnumber => ?_,
    fun j d l hd hl hend => ?_⟩
  · rcases update_cases hd with ⟨rfl, rfl⟩ | ⟨-, hd⟩
    · refine ⟨hrun, fun _ hl => ?_, fun hasks => ?_⟩
      · rw [hpc] at hl
        cases hl
      · rw [hpc] at hasks
        rcases hasks with hasks | ⟨_, _, _, hasks⟩ <;> cases hasks
    · exact h.run j d hd
  · rcases update_cases hd with ⟨rfl, rfl⟩ | ⟨-, hd⟩
    · exact absurd hl (hnone l)
    · exact h.own j d l hd hl
  · rcases update_cases hd with ⟨rfl, rfl⟩ | ⟨-, hd'⟩
    · exact absurd hl (hnone l)
    · rcases update_cases he with ⟨rfl, rfl⟩ | ⟨-, he'⟩
      · exact absurd hm (hnone m)
      · exact h.apart j k d e l m hd' he' hl hm hnumber
  · rcases update_cases hd with ⟨rfl, rfl⟩ | ⟨-, hd⟩
    · exact absurd hl (hnone l)
    · exact h.holds j d l hd hl hend

/-- The lock of the resource is taken for a lease with a new number. -/
theorem Held.take (h : s.Held) {i : Nat} {c : DeviceCall} {pc' : DevicePc} {l : DeviceLease} (hc : s.calls i = some c)
    (hfits : c.self.Fits pc') (hlease : pc'.lease = some l)
    (hlock : s.table.locks c.self.resourceKey = some false) (hkey : l.resourceKey = c.self.resourceKey)
    (hnumber : l.number = s.issued) :
    Held { s.apply c.self.resourceKey (.take l) with calls := Function.update s.calls i (some { c with pc := pc' }) } := by
  have hfree : s.table.holder c.self.resourceKey = none := by
    rw [Option.eq_none_iff_forall_ne_some]
    intro x hx
    have hlocked := (h.kept.locked c.self.resourceKey).2 (by rw [hx]; rfl)
    rw [hlock] at hlocked
    cases hlocked
  refine ⟨?_, fun j d hd => ?_, fun j d x hd hx => ?_, fun j k d e x y hd he hx hy hxy => ?_, fun j d x hd hx hend => ?_⟩
  · have htake := h.kept.take (l := l) (by rw [hkey]; exact hlock)
    rwa [hkey] at htake
  · rcases update_cases hd with ⟨rfl, rfl⟩ | ⟨-, hd⟩
    · exact ⟨(h.run j c hc).1, hfits⟩
    · exact h.run j d hd
  · rcases update_cases hd with ⟨rfl, rfl⟩ | ⟨-, hd⟩
    · rw [hlease] at hx
      cases hx
      exact ⟨hkey, by rw [hnumber]; exact Nat.lt_succ_self _⟩
    · exact ⟨(h.own j d x hd hx).1, Nat.lt_succ_of_lt (h.own j d x hd hx).2⟩
  · rcases update_cases hd with ⟨rfl, rfl⟩ | ⟨-, hd'⟩ <;> rcases update_cases he with ⟨rfl, rfl⟩ | ⟨-, he'⟩
    · rfl
    · have hlt := (h.own k e y he' hy).2
      rw [hlease] at hx
      cases hx
      omega
    · have hlt := (h.own j d x hd' hx).2
      rw [hlease] at hy
      cases hy
      omega
    · exact h.apart j k d e x y hd' he' hx hy hxy
  · rcases update_cases hd with ⟨rfl, rfl⟩ | ⟨-, hd⟩
    · rw [hlease] at hx
      cases hx
      exact Function.update_self ..
    · have hheld := h.holds j d x hd hx hend
      have hne : d.self.resourceKey ≠ c.self.resourceKey := by
        intro hsame
        rw [hsame, hfree] at hheld
        cases hheld
      exact (Function.update_of_ne hne ..).trans hheld

/-- And released by the call it was taken for. -/
theorem Held.release (h : s.Held) {i : Nat} {c : DeviceCall} {l : DeviceLease} {out : DeviceOutcome}
    (hc : s.calls i = some c)
    (hpc : c.pc = .unlock l out) :
    Held { s.apply c.self.resourceKey (.release l) with
      calls := Function.update s.calls i (some { c with pc := .ended (some l) out }) } := by
  have hl : c.pc.lease = some l := by rw [hpc]; rfl
  have hend : c.pc.isEnded = false := by rw [hpc]; rfl
  obtain ⟨hkey, hlt⟩ := h.own i c l hc hl
  have hheld := h.holds i c l hc hl hend
  have hfits : c.self.Fits (.ended (some l) out) :=
    ⟨fun hr _ => (h.run i c hc).2.client hr (by rw [hl]; rfl), (fun h => by rcases h with h | ⟨_, _, _, h⟩ <;> cases h)⟩
  have hgone := h.goto hc hfits
    (fun x hx => by cases hx; exact hl) (fun x _ hx => by cases hx)
  refine ⟨?_, hgone.run, hgone.own, hgone.apart, fun j d x hd hx hdend => ?_⟩
  · have hrelease := h.kept.release (l := l) (fun x hx => by
      rw [hkey, hheld] at hx
      exact (Option.some.inj hx).symm)
    rwa [hkey] at hrelease
  · rcases update_cases hd with ⟨rfl, rfl⟩ | ⟨hj, hd⟩
    · cases hdend
    · have hne : d.self.resourceKey ≠ c.self.resourceKey :=
        fun hsame => hj (h.sole hd hc hx hl hdend hend hsame)
      exact (Function.update_of_ne hne ..).trans (h.holds j d x hd hx hdend)

/-- **A step of a `run` keeps what the runs hold.** -/
theorem Held.moved (h : s.Held) {i : Nat} {c : DeviceCall} {inp : DeviceInput} {pc' : DevicePc} {eff : LockEffect}
    (hc : s.calls i = some c)
    (hadv : c.advance py (s.table.locks c.self.resourceKey) s.issued inp = some (pc', eff)) :
    Held { s.apply c.self.resourceKey eff with calls := Function.update s.calls i (some { c with pc := pc' }) } := by
  have hrun := DeviceCall.advance_run (h.run i c hc).1 (h.run i c hc).2 hadv
  cases DeviceCall.advance_move hadv with
  | refused e => exact h.goto hc hrun.fits (fun x hx => by cases hx) (fun x hx => by cases hx)
  | taken l _ _ hlock hkey hnumber hlease => exact h.take hc hrun.fits hlease hlock hkey hnumber
  | kept l out out' hpc hkept =>
    have hl : c.pc.lease = some l := by rw [hpc]; rfl
    have hheld := h.holds i c l hc hl (by rw [hpc]; rfl)
    rcases hkept with hkey | hlock
    · exact absurd (h.own i c l hc hl).1 hkey
    · exact absurd ((h.kept.locked _).2 (by rw [hheld]; rfl)) hlock
  | released l out hpc => exact h.release hc hpc
  | onwards l _ hwas hnot hnow =>
    have hend : c.pc.isEnded = false := by
      cases hpc : c.pc with
      | ended x out => simp [DeviceCall.advance, hpc] at hadv
      | _ => rfl
    refine h.goto hc hrun.fits (fun x hx => ?_) (fun x hx _ => ?_)
    · rw [hwas, ← hnow, hx]
    · exact h.holds i c x hc (by rw [hwas, ← hnow, hx]) hend

end Devices

/-! ## The rig -/

/-- A client in the session of a `run` that the module has returned `given` to. -/
def DeviceClient.InSession (c : DeviceClient) (given : Json) : Prop :=
  (c.cls = .aardvark → c.handle = given) ∧ (c.cls ≠ .aardvark → c.connected = true)

namespace Rig

variable {b : Bench} {py : Runtime} {s s' : Rig} {i : Nat} {c : DeviceCall} {pc' : DevicePc} {x : ClientStep}

/-- In its session a call has the client as it has left it itself. -/
structure Inv (b : Bench) (s : Rig) : Prop where
  held    : s.devices.Held
  adapter : ∀ i c, s.devices.calls i = some c → c.self = b.adapter (s.adapterOf i)
  session : ∀ i c, s.devices.calls i = some c → c.self.cls.isReal = true → c.pc.inSession = true →
    (s.clientOf b i).InSession (s.given i)

/-- The handle of a call in its session. -/
def Owns (b : Bench) (s : Rig) (i : Nat) (y : DeviceHandle) : Prop :=
  ∃ c, s.devices.calls i = some c ∧ c.self.cls.isReal = true ∧ c.pc.inSession = true ∧ (s.clientOf b i).cls = .aardvark ∧
    s.given i = y.value ∧ y.value ≠ .null ∧ y.resourceKey = c.self.resourceKey

/-- While the module returns fresh handles: a session has its handle, and every open handle is of a session or was not
closed. -/
structure Tracked (b : Bench) (s : Rig) : Prop where
  inv      : s.Inv b
  handle   : ∀ i c, s.devices.calls i = some c → c.self.cls.isReal = true → c.pc.inSession = true →
    (s.clientOf b i).cls = .aardvark → s.given i ≠ .null →
    ⟨s.given i, c.self.resourceKey, i⟩ ∈ s.handles ∧ ⟨s.given i, c.self.resourceKey, i⟩ ∉ s.stranded
  owned    : ∀ y ∈ s.handles, y ∈ s.stranded ∨ s.Owns b y.call y
  unique   : ∀ y ∈ s.handles, ∀ z ∈ s.handles, y.value = z.value → y = z
  stranded : ∀ y ∈ s.stranded, y ∈ s.handles

theorem Inv.init : (Rig.init b).Inv b where
  held := .init
  adapter _ _ h := by cases h
  session _ _ h := by cases h

theorem Tracked.init : (Rig.init b).Tracked b where
  inv := .init
  handle _ _ h := by cases h
  owned _ h := by cases h
  unique _ h := by cases h
  stranded _ h := by cases h

theorem session_lease {pc : DevicePc} (h : pc.inSession = true) : ∃ l, pc.lease = some l ∧ pc.isEnded = false := by
  cases pc <;> first | exact ⟨_, rfl, rfl⟩ | cases h

/-- A call that shares its client with a session is that session. -/
theorem Inv.alone (h : s.Inv b) {j : Nat} {d : DeviceCall} {l : DeviceLease} (hc : s.devices.calls i = some c)
    (hd : s.devices.calls j = some d) (hl : c.pc.lease = some l) (hend : c.pc.isEnded = false) (hin : d.pc.inSession = true)
    (hclient : b.client (s.adapterOf j) = b.client (s.adapterOf i)) : j = i := by
  have hkey : d.self.resourceKey = c.self.resourceKey := by
    rw [h.adapter i c hc, h.adapter j d hd]
    exact b.one_resource _ _ hclient
  obtain ⟨m, hm, hdend⟩ := session_lease hin
  exact h.held.sole hd hc hm hl hdend hend hkey

/-- A step of the call `i`, as the other calls see it. -/
structure Moved (b : Bench) (s s' : Rig) (i : Nat) (c : DeviceCall) (pc' : DevicePc) : Prop where
  held       : s'.devices.Held
  adapter_of : s'.adapterOf = s.adapterOf
  was        : s.devices.calls i = some c
  here       : s'.devices.calls i = some { c with pc := pc' }
  there      : ∀ j, j ≠ i → s'.devices.calls j = s.devices.calls j
  others     : ∀ j d, j ≠ i → s.devices.calls j = some d → d.pc.inSession = true → s'.clientOf b j = s.clientOf b j
  given      : ∀ j, j ≠ i → s'.given j = s.given j

theorem Moved.owns {j : Nat} {y : DeviceHandle} (m : Moved b s s' i c pc') (hj : j ≠ i) (h : s.Owns b j y) :
    s'.Owns b j y := by
  obtain ⟨d, hd, hreal, hin, hcls, hgiven, hnull, hkey⟩ := h
  exact ⟨d, (m.there j hj).trans hd, hreal, hin, by rw [m.others j d hj hd hin, hcls], (m.given j hj).trans hgiven,
    hnull, hkey⟩

/-- **What a step of one call has to show.** -/
theorem Inv.moved (h : s.Inv b) (m : Moved b s s' i c pc')
    (hsession : pc'.inSession = true → c.self.cls.isReal = true → (s'.clientOf b i).InSession (s'.given i)) : s'.Inv b where
  held := m.held
  adapter j d hd := by
    rw [m.adapter_of]
    by_cases hj : j = i
    · subst hj
      rw [m.here] at hd
      cases hd
      exact h.adapter j c m.was
    · exact h.adapter j d ((m.there j hj).symm.trans hd)
  session j d hd hreal hin := by
    by_cases hj : j = i
    · subst hj
      rw [m.here] at hd
      cases hd
      exact hsession hin hreal
    · have hd' := (m.there j hj).symm.trans hd
      rw [m.others j d hj hd' hin, m.given j hj]
      exact h.session j d hd' hreal hin

theorem Tracked.moved (h : s.Tracked b) (m : Moved b s s' i c pc') (hinv : s'.Inv b)
    (hhandle : pc'.inSession = true → c.self.cls.isReal = true → (s'.clientOf b i).cls = .aardvark → s'.given i ≠ .null →
      ⟨s'.given i, c.self.resourceKey, i⟩ ∈ s'.handles ∧ ⟨s'.given i, c.self.resourceKey, i⟩ ∉ s'.stranded)
    (hkept : ∀ y ∈ s.handles, y.call ≠ i → y ∉ s.stranded → y ∈ s'.handles ∧ y ∉ s'.stranded)
    (howned : ∀ y ∈ s'.handles, y ∈ s'.stranded ∨ (y.call ≠ i ∧ s.Owns b y.call y) ∨ (y.call = i ∧ s'.Owns b i y))
    (hunique : ∀ y ∈ s'.handles, ∀ z ∈ s'.handles, y.value = z.value → y = z)
    (hstranded : ∀ y ∈ s'.stranded, y ∈ s'.handles) : s'.Tracked b where
  inv := hinv
  handle j d hd hreal hin hcls hnull := by
    by_cases hj : j = i
    · subst hj
      rw [m.here] at hd
      cases hd
      exact hhandle hin hreal hcls hnull
    · have hd' := (m.there j hj).symm.trans hd
      rw [m.others j d hj hd' hin] at hcls
      rw [m.given j hj] at hnull ⊢
      obtain ⟨hmem, hnot⟩ := h.handle j d hd' hreal hin hcls hnull
      exact hkept _ hmem hj hnot
  owned y hy := by
    rcases howned y hy with hs | ⟨hne, howns⟩ | ⟨hcall, howns⟩
    · exact Or.inl hs
    · exact Or.inr (m.owns hne howns)
    · exact Or.inr (by rw [hcall]; exact howns)
  unique := hunique
  stranded := hstranded

/-- Where no handle is opened or closed. -/
theorem Tracked.moved_same (h : s.Tracked b) (m : Moved b s s' i c pc') (hinv : s'.Inv b) (hhandles : s'.handles = s.handles)
    (hstranded : s'.stranded = s.stranded)
    (hhandle : pc'.inSession = true → c.self.cls.isReal = true → (s'.clientOf b i).cls = .aardvark → s'.given i ≠ .null →
      ⟨s'.given i, c.self.resourceKey, i⟩ ∈ s.handles ∧ ⟨s'.given i, c.self.resourceKey, i⟩ ∉ s.stranded)
    (howns : ∀ y ∈ s.handles, s.Owns b i y → s'.Owns b i y) : s'.Tracked b := by
  refine h.moved m hinv (by rw [hhandles, hstranded]; exact hhandle) (fun y hy _ hnot => ?_) (fun y hy => ?_) ?_ ?_
  · rw [hhandles, hstranded]
    exact ⟨hy, hnot⟩
  · rw [hhandles] at hy
    rw [hstranded]
    rcases h.owned y hy with hs | ho
    · exact Or.inl hs
    · by_cases hcall : y.call = i
      · rw [hcall] at ho
        exact Or.inr (Or.inr ⟨hcall, howns y hy ho⟩)
      · exact Or.inr (Or.inl ⟨hcall, ho⟩)
  · rw [hhandles]
    exact h.unique
  · rw [hhandles, hstranded]
    exact h.stranded

end Rig

/-! ## The steps of the rig -/

theorem Devices.step_moved {py : Runtime} {s d : Devices} {i : Nat} {inp : DeviceInput}
    (h : s.step py (.step i inp) = some d) :
    ∃ c pc' eff, s.calls i = some c ∧
      c.advance py (s.table.locks c.self.resourceKey) s.issued inp = some (pc', eff) ∧
      d = { s.apply c.self.resourceKey eff with calls := Function.update s.calls i (some { c with pc := pc' }) } := by
  simp only [step] at h
  cases hc : s.calls i with
  | none =>
    rw [hc] at h
    cases h
  | some c =>
    rw [hc] at h
    obtain ⟨⟨pc', eff⟩, hadv, rfl⟩ := Option.map_eq_some_iff.1 h
    exact ⟨c, pc', eff, rfl, hadv, rfl⟩

/-- A step that asks no client stays in the session, or outside it. -/
theorem DevicePc.staysIn_of_silent {pc : DevicePc} (h : pc.asks = false) (inp : DeviceInput) :
    pc.staysIn inp = pc.inSession := by
  cases pc with
  | command l rest responses =>
    cases rest with
    | nil => rfl
    | cons x rest => cases h
  | connect => cases h
  | close => cases h
  | _ => rfl

namespace Rig

variable {b : Bench} {py : Runtime} {s s' : Rig} {i : Nat} {c : DeviceCall} {pc' : DevicePc} {x : ClientStep}

theorem step_create {k : Nat} (hstep : s.step b py (.create k) = some s') :
    s' = { s with devices :=
      { s.devices with
        adapters := b.adapter k :: s.devices.adapters
        table := s.devices.table.make (b.adapter k).resourceKey } } := by
  simp only [step] at hstep
  obtain ⟨d, hd, rfl⟩ := Option.map_eq_some_iff.1 hstep
  cases hd
  rfl

theorem step_run {k : Nat} {spec : DeviceSpec} (hstep : s.step b py (.run i k spec) = some s') :
    s.devices.calls i = none ∧ s' = { s with
      devices := { s.devices with calls := Function.update s.devices.calls i (some ⟨b.adapter k, .run, spec, .acquire⟩) }
      adapterOf := Function.update s.adapterOf i k } := by
  simp only [step] at hstep
  obtain ⟨d, hd, rfl⟩ := Option.map_eq_some_iff.1 hstep
  simp only [Devices.step, Devices.enter] at hd
  split at hd <;> cases hd
  rename_i hnew
  exact ⟨Option.isNone_iff_eq_none.1 hnew.1, rfl⟩

theorem step_silent {inp : DeviceInput} (hstep : s.step b py (.step i inp) = some s') :
    ∃ c pc' eff, s.devices.calls i = some c ∧ c.pc.asks = false ∧
      c.advance py (s.devices.table.locks c.self.resourceKey) s.devices.issued inp = some (pc', eff) ∧
      s' = { s with devices :=
        { s.devices.apply c.self.resourceKey eff with
          calls := Function.update s.devices.calls i (some { c with pc := pc' }) } } := by
  simp only [step] at hstep
  split at hstep
  · cases hstep
  · rename_i hsilent
    obtain ⟨d, hd, rfl⟩ := Option.map_eq_some_iff.1 hstep
    obtain ⟨c, pc', eff, hc, hadv, rfl⟩ := Devices.step_moved hd
    exact ⟨c, pc', eff, hc, by simpa [hc] using hsilent, hadv, rfl⟩

/-- A step that asks the client, taken apart. -/
theorem step_ask {answer : ClientAnswer} (hstep : s.step b py (.ask i answer) = some s') :
    ∃ c x pc' eff, s.devices.calls i = some c ∧ (s.clientOf b i).serve py answer c.pc = some x ∧
      c.advance py (s.devices.table.locks c.self.resourceKey) s.devices.issued x.input = some (pc', eff) ∧
      s' = { s.asked i c.self.resourceKey x with
        devices :=
          { s.devices.apply c.self.resourceKey eff with
            calls := Function.update s.devices.calls i (some { c with pc := pc' }) }
        clients := Function.update s.clients (b.client (s.adapterOf i)) x.client } := by
  simp only [step] at hstep
  obtain ⟨c, hc, hstep⟩ := Option.bind_eq_some_iff.1 hstep
  obtain ⟨x, hx, hstep⟩ := Option.bind_eq_some_iff.1 hstep
  obtain ⟨d, hd, rfl⟩ := Option.map_eq_some_iff.1 hstep
  obtain ⟨c', pc', eff, hc', hadv, rfl⟩ := Devices.step_moved hd
  rw [hc] at hc'
  cases hc'
  exact ⟨c, x, pc', eff, hc, hx, hadv, rfl⟩

theorem asked_adapterOf (s : Rig) (i : Nat) (key : String) (x : ClientStep) : (s.asked i key x).adapterOf = s.adapterOf := by
  unfold asked
  split <;> rfl

theorem asked_given (s : Rig) {i j : Nat} (key : String) (x : ClientStep) (h : j ≠ i) :
    (s.asked i key x).given j = s.given j := by
  unfold asked
  split
  · exact Function.update_of_ne h ..
  all_goals rfl

/-- What neither opens a device nor closes a handle. -/
theorem asked_none {key : String} (hopen : ∀ device, x.asked ≠ some (.openDevice device))
    (hclose : ∀ h, x.asked ≠ some (.close h)) : s.asked i key x = s := by
  unfold asked
  split
  · rename_i hasked _
    exact absurd hasked (hopen _)
  · rename_i hasked _
    exact absurd hasked (hclose _)
  · rename_i hasked _
    exact absurd hasked (hclose _)
  · rfl

/-- A call that asks has a lease, and has not ended. -/
theorem asks_lease {pc : DevicePc} (h : pc.asks = true) : (∃ l, pc.lease = some l) ∧ pc.isEnded = false := by
  cases pc with
  | connect l target => exact ⟨⟨l, rfl⟩, rfl⟩
  | command l rest responses => exact ⟨⟨l, rfl⟩, rfl⟩
  | close l out => exact ⟨⟨l, rfl⟩, rfl⟩
  | _ => cases h

theorem serve_asks {k : DeviceClient} {answer : ClientAnswer} {pc : DevicePc} (h : k.serve py answer pc = some x) :
    pc.asks = true := by
  unfold DeviceClient.serve at h
  split at h
  · rfl
  · rfl
  · rfl
  · cases h

/-! ### The step of a call -/

/-- A step of a call that asks its client. -/
structure Asking (b : Bench) (s s' : Rig) (i : Nat) (c : DeviceCall) (pc' : DevicePc) (x : ClientStep) : Prop where
  moved    : Moved b s s' i c pc'
  served   : (s.clientOf b i).Served c.pc x
  real     : c.self.cls.isReal = true
  stays    : pc'.inSession = c.pc.staysIn x.input
  client   : s'.clientOf b i = x.client
  given    : s'.given = (s.asked i c.self.resourceKey x).given
  handles  : s'.handles = (s.asked i c.self.resourceKey x).handles
  stranded : s'.stranded = (s.asked i c.self.resourceKey x).stranded

theorem Inv.asking (h : s.Inv b) {answer : ClientAnswer} (hstep : s.step b py (.ask i answer) = some s') :
    ∃ c x pc', (s.clientOf b i).serve py answer c.pc = some x ∧ Asking b s s' i c pc' x := by
  obtain ⟨c, x, pc', eff, hc, hx, hadv, rfl⟩ := step_ask hstep
  have hasks := serve_asks hx
  obtain ⟨⟨l, hl⟩, hend⟩ := asks_lease hasks
  obtain ⟨hrun, hfits⟩ := h.held.run i c hc
  have hreal := hfits.real (Or.inl hasks)
  refine ⟨c, x, pc', hx, ⟨h.held.moved hc hadv, asked_adapterOf .., hc, Function.update_self ..,
    (fun j hj => Function.update_of_ne hj ..), fun j d hj hd hin => ?_, fun j hj => asked_given s _ x hj⟩,
    DeviceClient.serve_served hx, hreal, (DeviceCall.advance_run hrun hfits hadv).session hreal, ?_, rfl, rfl, rfl⟩
  · simp only [clientOf, asked_adapterOf]
    exact Function.update_of_ne (fun hclient => hj (h.alone hc hd hl hend hin hclient)) ..
  · simp only [clientOf, asked_adapterOf, Function.update_self]

/-- A step of a call that asks nothing keeps its client, and stays in its session or outside it. -/
theorem Inv.silent (h : s.Inv b) {inp : DeviceInput} (hstep : s.step b py (.step i inp) = some s') :
    ∃ c pc', Moved b s s' i c pc' ∧ (c.self.cls.isReal = true → pc'.inSession = c.pc.inSession) ∧
      s'.clientOf b = s.clientOf b ∧ s'.given = s.given ∧ s'.handles = s.handles ∧ s'.stranded = s.stranded := by
  obtain ⟨c, pc', eff, hc, hasks, hadv, rfl⟩ := step_silent hstep
  have hrun := DeviceCall.advance_run (h.held.run i c hc).1 (h.held.run i c hc).2 hadv
  exact ⟨c, pc', ⟨h.held.moved hc hadv, rfl, hc, Function.update_self .., (fun j hj => Function.update_of_ne hj ..),
    (fun _ _ _ _ _ => rfl), fun _ _ => rfl⟩,
    (fun hreal => (hrun.session hreal).trans (DevicePc.staysIn_of_silent hasks inp)), rfl, rfl, rfl, rfl⟩

/-- **What a call of a client leaves of the connection.** -/
theorem Inv.asked_step (h : s.Inv b) (a : Asking b s s' i c pc' x) : s'.Inv b := by
  refine h.moved a.moved (fun hin _ => ?_)
  have hc := a.moved.was
  have hserved := a.served
  rw [a.stays] at hin
  rw [a.client, a.given]
  generalize hpc : c.pc = pc at hserved hin
  cases hserved with
  | opened l target device v c' hcls hcls' =>
    refine ⟨fun _ => ?_, fun hne => absurd (hcls'.trans hcls) hne⟩
    show c'.handle = Function.update s.given i c'.handle i
    rw [Function.update_self]
  | connected l target v c' hcls hcls' hconnected =>
    exact ⟨fun haardvark => absurd (hcls'.symm.trans haardvark) hcls, fun _ => hconnected⟩
  | refused => cases hin
  | commanded l command rest responses asked result hof =>
    rw [asked_none (fun device hasked => ?_) (fun h hasked => ?_)]
    · exact h.session i c hc a.real (by rw [hpc]; rfl)
    · rcases hof _ hasked with ⟨args, heq⟩ | ⟨transaction, heq, -⟩ <;> cases heq
    · rcases hof _ hasked with ⟨args, heq⟩ | ⟨transaction, heq, -⟩ <;> cases heq
  | closed => cases hin
  | failed => cases hin
  | left => cases hin

/-- **Every step keeps the invariant.** -/
theorem inv_step (h : s.Inv b) {a : RigAct} (hstep : s.step b py a = some s') : s'.Inv b := by
  cases a with
  | create k =>
    rw [step_create hstep]
    exact ⟨h.held.make (b.adapter k), h.adapter, h.session⟩
  | run i k spec =>
    obtain ⟨hnone, rfl⟩ := step_run hstep
    refine ⟨h.held.enter rfl rfl, fun j c hc => ?_, fun j c hc hreal hin => ?_⟩
    · rcases Devices.update_cases hc with ⟨rfl, rfl⟩ | ⟨hj, hc⟩
      · exact (congrArg b.adapter (Function.update_self ..)).symm
      · exact (h.adapter j c hc).trans (congrArg b.adapter (Function.update_of_ne hj ..).symm)
    · rcases Devices.update_cases hc with ⟨rfl, rfl⟩ | ⟨hj, hc⟩
      · cases hin
      · simp only [clientOf, Function.update_of_ne hj]
        exact h.session j c hc hreal hin
  | step i inp =>
    obtain ⟨c, pc', m, hsame, hclient, hgiven, -, -⟩ := h.silent hstep
    refine h.moved m (fun hin hreal => ?_)
    rw [hclient, hgiven]
    exact h.session i c m.was hreal ((hsame hreal).symm.trans hin)
  | ask i answer =>
    obtain ⟨c, x, pc', -, a⟩ := h.asking hstep
    exact h.asked_step a

/-! ### While the handles are fresh -/

theorem mem_handlesOf {key : String} {v : Json} {y : DeviceHandle} :
    y ∈ handlesOf key i v ↔ v ≠ .null ∧ y = ⟨v, key, i⟩ := by
  unfold handlesOf
  split <;> simp [*]

/-- A call outside its session owns no handle. -/
theorem not_owns (hc : s.devices.calls i = some c) (hout : c.pc.inSession = false) {y : DeviceHandle} : ¬s.Owns b i y := by
  rintro ⟨c', hc', -, hin, -⟩
  rw [hc] at hc'
  cases hc'
  rw [hout] at hin
  cases hin

/-- Only the handle of a session has its value. -/
theorem Tracked.own_handle (h : s.Tracked b) (hc : s.devices.calls i = some c) (hreal : c.self.cls.isReal = true)
    (hin : c.pc.inSession = true) (hcls : (s.clientOf b i).cls = .aardvark) (hnull : s.given i ≠ .null) {y : DeviceHandle}
    (hy : y ∈ s.handles) (hvalue : y.value = s.given i) : y.call = i ∧ y ∉ s.stranded := by
  obtain ⟨hmem, hnot⟩ := h.handle i c hc hreal hin hcls hnull
  obtain rfl := h.unique y hy _ hmem hvalue
  exact ⟨rfl, hnot⟩

/-- A step that opens a device. -/
theorem Tracked.opened (h : s.Tracked b) (a : Asking b s s' i c pc' x) (hinv : s'.Inv b) (hout : c.pc.inSession = false)
    (hin : pc'.inSession = true) {device v : Json} (hasked : x.asked = some (.openDevice device)) (hok : x.result = .ok v)
    (hcls : x.client.cls = .aardvark)
    (hfresh : ∀ y ∈ handlesOf c.self.resourceKey i x.client.handle, ∀ z ∈ s.handles, z.value ≠ y.value) : s'.Tracked b := by
  have hgiven : s'.given i = x.client.handle := by
    rw [a.given, asked, hasked, hok]
    exact Function.update_self ..
  have hstranded : s'.stranded = s.stranded := by rw [a.stranded, asked, hasked, hok]
  have hhandles : s'.handles = handlesOf c.self.resourceKey i x.client.handle ++ s.handles := by
    rw [a.handles, asked, hasked, hok]
  have hmem : ∀ y, y ∈ s'.handles ↔ (s'.given i ≠ .null ∧ y = ⟨s'.given i, c.self.resourceKey, i⟩) ∨ y ∈ s.handles := by
    intro y
    rw [hhandles, List.mem_append, mem_handlesOf, hgiven]
  have hnew : s'.given i ≠ .null → ∀ z ∈ s.handles, z.value ≠ s'.given i := by
    intro hnull z hz
    rw [hgiven] at hnull ⊢
    exact hfresh _ (mem_handlesOf.2 ⟨hnull, rfl⟩) z hz
  refine h.moved a.moved hinv (fun _ _ _ hnull => ⟨(hmem _).2 (Or.inl ⟨hnull, rfl⟩), fun hs => ?_⟩) (fun y hy _ hnot => ?_)
    (fun y hy => ?_) (fun y hy z hz hvalue => ?_) (fun y hy => ?_)
  · rw [hstranded] at hs
    exact hnew hnull _ (h.stranded _ hs) rfl
  · rw [hstranded]
    exact ⟨(hmem y).2 (Or.inr hy), hnot⟩
  · rcases (hmem y).1 hy with ⟨hnull, rfl⟩ | hy
    · exact Or.inr (Or.inr ⟨rfl, _, a.moved.here, a.real, hin, by rw [a.client, hcls], rfl, hnull, rfl⟩)
    · rcases h.owned y hy with hs | howns
      · exact Or.inl (by rw [hstranded]; exact hs)
      · refine Or.inr (Or.inl ⟨fun hcall => ?_, howns⟩)
        rw [hcall] at howns
        exact not_owns a.moved.was hout howns
  · rcases (hmem y).1 hy with ⟨hnull, rfl⟩ | hy <;> rcases (hmem z).1 hz with ⟨hnull', rfl⟩ | hz
    · rfl
    · exact absurd hvalue.symm (hnew hnull z hz)
    · exact absurd hvalue (hnew hnull' y hy)
    · exact h.unique y hy z hz hvalue
  · rw [hstranded] at hy
    exact (hmem y).2 (Or.inr (h.stranded y hy))

/-- A step that closes the handle of its session. -/
theorem Tracked.closed (h : s.Tracked b) (a : Asking b s s' i c pc' x) (hinv : s'.Inv b) (hin : c.pc.inSession = true)
    (hout : pc'.inSession = false) {v : Json} (hasked : x.asked = some (.close (s.given i))) (hok : x.result = .ok v)
    (hcls : (s.clientOf b i).cls = .aardvark) (hnull : s.given i ≠ .null) : s'.Tracked b := by
  have hown : ∀ y ∈ s.handles, y.value = s.given i → y.call = i ∧ y ∉ s.stranded :=
    fun y hy hvalue => h.own_handle a.moved.was a.real hin hcls hnull hy hvalue
  have hmem : ∀ y, y ∈ s'.handles ↔ y ∈ s.handles ∧ y.value ≠ s.given i := by
    intro y
    rw [a.handles, asked, hasked, hok, List.mem_filter, decide_eq_true_eq]
  have hstranded : ∀ y, y ∈ s'.stranded ↔ y ∈ s.stranded := by
    intro y
    rw [a.stranded, asked, hasked, hok, List.mem_filter, decide_eq_true_eq]
    exact ⟨fun hs => hs.1, fun hs => ⟨hs, fun hvalue => (hown y (h.stranded y hs) hvalue).2 hs⟩⟩
  refine h.moved a.moved hinv (fun hin' => ?_) (fun y hy hcall hnot => ?_) (fun y hy => ?_)
    (fun y hy z hz hvalue => h.unique y ((hmem y).1 hy).1 z ((hmem z).1 hz).1 hvalue) (fun y hy => ?_)
  · rw [hout] at hin'
    cases hin'
  · exact ⟨(hmem y).2 ⟨hy, fun hvalue => hcall (hown y hy hvalue).1⟩, fun hs => hnot ((hstranded y).1 hs)⟩
  · obtain ⟨hy, hne⟩ := (hmem y).1 hy
    rcases h.owned y hy with hs | howns
    · exact Or.inl ((hstranded y).2 hs)
    · refine Or.inr (Or.inl ⟨fun hcall => ?_, howns⟩)
      obtain ⟨-, -, -, -, -, hvalue, -⟩ := howns
      rw [hcall] at hvalue
      exact hne hvalue.symm
  · have hs := (hstranded y).1 hy
    exact (hmem y).2 ⟨h.stranded y hs, fun hvalue => (hown y (h.stranded y hs) hvalue).2 hs⟩

/-- A step that fails to close it. -/
theorem Tracked.failed (h : s.Tracked b) (a : Asking b s s' i c pc' x) (hinv : s'.Inv b) (hin : c.pc.inSession = true)
    (hout : pc'.inSession = false) {e : ClientError} (hasked : x.asked = some (.close (s.given i)))
    (herr : x.result = .error e) (hcls : (s.clientOf b i).cls = .aardvark) (hnull : s.given i ≠ .null) : s'.Tracked b := by
  have hhandles : s'.handles = s.handles := by rw [a.handles, asked, hasked, herr]
  have hmem : ∀ y, y ∈ s'.stranded ↔ (y ∈ s.handles ∧ y.value = s.given i) ∨ y ∈ s.stranded := by
    intro y
    rw [a.stranded, asked, hasked, herr, List.mem_append, List.mem_filter, decide_eq_true_eq]
  refine h.moved a.moved hinv (fun hin' => ?_) (fun y hy hcall hnot => ?_) (fun y hy => ?_)
    (by rw [hhandles]; exact h.unique)
    (fun y hy => ?_)
  · rw [hout] at hin'
    cases hin'
  · refine ⟨by rw [hhandles]; exact hy, fun hs => ?_⟩
    rcases (hmem y).1 hs with ⟨-, hvalue⟩ | hs
    · exact hcall (h.own_handle a.moved.was a.real hin hcls hnull hy hvalue).1
    · exact hnot hs
  · rw [hhandles] at hy
    rcases h.owned y hy with hs | howns
    · exact Or.inl ((hmem y).2 (Or.inr hs))
    · by_cases hvalue : y.value = s.given i
      · exact Or.inl ((hmem y).2 (Or.inl ⟨hy, hvalue⟩))
      · refine Or.inr (Or.inl ⟨fun hcall => ?_, howns⟩)
        obtain ⟨-, -, -, -, -, hgiven, -⟩ := howns
        rw [hcall] at hgiven
        exact hvalue hgiven.symm
  · rw [hhandles]
    rcases (hmem y).1 hy with ⟨hy, -⟩ | hs
    · exact hy
    · exact h.stranded y hs

/-- A step that opens and closes nothing. -/
theorem Tracked.same (h : s.Tracked b) (a : Asking b s s' i c pc' x) (hinv : s'.Inv b)
    (hsame : s.asked i c.self.resourceKey x = s)
    (hkeeps : pc'.inSession = true → x.client.cls = .aardvark → c.pc.inSession = true ∧ (s.clientOf b i).cls = .aardvark)
    (howns : ∀ y ∈ s.handles, s.Owns b i y → pc'.inSession = true ∧ x.client.cls = .aardvark) : s'.Tracked b := by
  have hgiven : s'.given = s.given := by rw [a.given, hsame]
  refine h.moved_same a.moved hinv (by rw [a.handles, hsame]) (by rw [a.stranded, hsame]) (fun hin hreal hcls hnull => ?_)
    (fun y hy hown => ?_)
  · rw [a.client] at hcls
    rw [hgiven] at hnull ⊢
    obtain ⟨hwas, hcls'⟩ := hkeeps hin hcls
    exact h.handle i c a.moved.was hreal hwas hcls' hnull
  · obtain ⟨hin, hcls⟩ := howns y hy hown
    obtain ⟨c', hc', hreal, -, -, hvalue, hnull, hkey⟩ := hown
    rw [a.moved.was] at hc'
    cases hc'
    exact ⟨_, a.moved.here, hreal, hin, by rw [a.client]; exact hcls, by rw [hgiven]; exact hvalue, hnull, hkey⟩

/-- **What a call of a client leaves of the handles.** -/
theorem Tracked.asked_step (h : s.Tracked b) (a : Asking b s s' i c pc' x)
    (hfresh : ∀ v, x.opened = some v → ∀ y ∈ handlesOf c.self.resourceKey i v, ∀ z ∈ s.handles, z.value ≠ y.value) :
    s'.Tracked b := by
  have hinv := h.inv.asked_step a
  have hc := a.moved.was
  have hserved := a.served
  have hstays := a.stays
  have hsession : c.pc.inSession = true → (s.clientOf b i).InSession (s.given i) := h.inv.session i c hc a.real
  generalize hpc : c.pc = pc at hserved hstays
  cases hserved with
  | opened l target device v c' hcls hcls' =>
    exact h.opened a hinv (by rw [hpc]; rfl) hstays rfl rfl (hcls'.trans hcls) (hfresh _ rfl)
  | connected l target v c' hcls hcls' =>
    have hout : c.pc.inSession = false := by rw [hpc]; rfl
    exact h.same a hinv rfl (fun _ haardvark => absurd (hcls'.symm.trans haardvark) hcls)
      (fun y _ hown => absurd hown (not_owns hc hout))
  | refused l target c' asked e hno =>
    have hout : c.pc.inSession = false := by rw [hpc]; rfl
    refine h.same a hinv ?_ (fun hin => ?_) (fun y _ hown => absurd hown (not_owns hc hout))
    · cases asked with
      | none => rfl
      | some op =>
        obtain ⟨device, rfl⟩ := hno op rfl
        rfl
    · rw [hstays] at hin
      cases hin
  | commanded l command rest responses asked result hof =>
    have hin : c.pc.inSession = true := by rw [hpc]; rfl
    refine h.same a hinv (asked_none (fun device hasked => ?_) (fun v hasked => ?_)) (fun _ hcls => ⟨hin, hcls⟩)
      (fun y _ hown => ⟨hstays, ?_⟩)
    · rcases hof _ hasked with ⟨args, heq⟩ | ⟨transaction, heq, -⟩ <;> cases heq
    · rcases hof _ hasked with ⟨args, heq⟩ | ⟨transaction, heq, -⟩ <;> cases heq
    · obtain ⟨-, -, -, -, hcls, -⟩ := hown
      exact hcls
  | closed l out v c' hcls hwas =>
    have hin : c.pc.inSession = true := by rw [hpc]; rfl
    have hgiven := (hsession hin).1 hcls
    exact h.closed a hinv hin hstays (by rw [← hgiven]) rfl hcls (by rw [← hgiven]; exact hwas)
  | failed l out e hcls hwas =>
    have hin : c.pc.inSession = true := by rw [hpc]; rfl
    have hgiven := (hsession hin).1 hcls
    exact h.failed a hinv hin hstays (by rw [← hgiven]) rfl hcls (by rw [← hgiven]; exact hwas)
  | left l out v c' hnone =>
    have hin : c.pc.inSession = true := by rw [hpc]; rfl
    refine h.same a hinv rfl (fun hin' => ?_) (fun y _ hown => ?_)
    · rw [hstays] at hin'
      cases hin'
    · obtain ⟨-, -, -, -, haardvark, hvalue, hnull, -⟩ := hown
      exact absurd (hvalue.symm.trans (((hsession hin).1 haardvark).symm.trans (hnone haardvark))) hnull

/-- What a step that asks a client opens. -/
theorem opens_ask {answer : ClientAnswer} (hc : s.devices.calls i = some c)
    (hx : (s.clientOf b i).serve py answer c.pc = some x) :
    s.opens b py (.ask i answer) = (x.opened.map (handlesOf c.self.resourceKey i)).getD [] := by
  simp only [opens, asks, hc, Option.bind_some, hx, Option.map_some]

theorem tracked_step (h : s.Tracked b) {a : RigAct} (hfresh : FreshHandle b py s a) (hstep : s.step b py a = some s') :
    s'.Tracked b := by
  have hinv := inv_step h.inv hstep
  cases a with
  | create k =>
    rw [step_create hstep] at hinv ⊢
    exact ⟨hinv, h.handle, h.owned, h.unique, h.stranded⟩
  | run i k spec =>
    obtain ⟨hnone, rfl⟩ := step_run hstep
    refine ⟨hinv, fun j c hc hreal hin hcls hnull => ?_, fun y hy => ?_, h.unique, h.stranded⟩
    · rcases Devices.update_cases hc with ⟨rfl, rfl⟩ | ⟨hj, hc⟩
      · cases hin
      · simp only [clientOf, Function.update_of_ne hj] at hcls
        exact h.handle j c hc hreal hin hcls hnull
    · rcases h.owned y hy with hs | ⟨c, hc, hreal, hin, hcls, hvalue, hnull, hkey⟩
      · exact Or.inl hs
      · have hj : y.call ≠ i := by
          rintro rfl
          rw [hnone] at hc
          cases hc
        refine Or.inr ⟨c, (Function.update_of_ne hj ..).trans hc, hreal, hin, ?_, hvalue, hnull, hkey⟩
        simp only [clientOf, Function.update_of_ne hj]
        exact hcls
  | step i inp =>
    obtain ⟨c, pc', m, hsame, hclient, hgiven, hhandles, hstranded⟩ := h.inv.silent hstep
    refine h.moved_same m hinv hhandles hstranded (fun hin hreal hcls hnull => ?_) (fun y _ hown => ?_)
    · rw [hclient] at hcls
      rw [hgiven] at hnull ⊢
      exact h.handle i c m.was hreal ((hsame hreal).symm.trans hin) hcls hnull
    · obtain ⟨c', hc', hreal, hin, hcls, hvalue, hnull, hkey⟩ := hown
      rw [m.was] at hc'
      cases hc'
      exact ⟨_, m.here, hreal, (hsame hreal).trans hin, by rw [hclient]; exact hcls, by rw [hgiven]; exact hvalue,
        hnull, hkey⟩
  | ask i answer =>
    obtain ⟨c, x, pc', hx, a⟩ := h.inv.asking hstep
    refine h.asked_step a (fun v hv y hy => hfresh y ?_)
    rw [opens_ask a.moved.was hx, hv]
    exact hy

/-! ## Who asks a device -/

theorem asks_ask {a : RigAct} (h : s.asks b py a = some (i, c, x)) :
    ∃ answer, a = .ask i answer ∧ s.devices.calls i = some c ∧ (s.clientOf b i).serve py answer c.pc = some x := by
  cases a with
  | ask j answer =>
    simp only [asks] at h
    obtain ⟨d, hd, h⟩ := Option.bind_eq_some_iff.1 h
    obtain ⟨y, hy, h⟩ := Option.map_eq_some_iff.1 h
    cases h
    exact ⟨answer, rfl, hd, hy⟩
  | _ => cases h

/-- Where an operation is given a handle, the client is an Aardvark client in its session and the handle is its own. -/
theorem served_handle {k : DeviceClient} {pc : DevicePc} (hserved : k.Served pc x) {op : DeviceOp} {v : Json}
    (hop : x.asked = some op) (hv : op.handle = some v) : pc.inSession = true ∧ k.cls = .aardvark ∧ v = k.handle ∧
      v ≠ .null := by
  cases hserved with
  | opened => cases hop; cases hv
  | connected => cases hop
  | refused l target c' asked e hno =>
    obtain ⟨device, rfl⟩ := hno op hop
    cases hv
  | commanded l command rest responses asked result hof =>
    rcases hof op hop with ⟨args, rfl⟩ | ⟨transaction, rfl, hcls, hnull⟩
    · cases hv
    · cases hv
      exact ⟨rfl, hcls, rfl, hnull⟩
  | closed l out w c' hcls hwas =>
    cases hop
    cases hv
    exact ⟨rfl, hcls, rfl, hwas⟩
  | failed l out e hcls hwas =>
    cases hop
    cases hv
    exact ⟨rfl, hcls, rfl, hwas⟩
  | left => cases hop

theorem Inv.asked (h : s.Inv b) (a : RigAct) : AskedByHolder b py s a := by
  intro i c x hx
  obtain ⟨answer, -, hc, hserve⟩ := asks_ask hx
  have hasks := serve_asks hserve
  obtain ⟨⟨l, hl⟩, hend⟩ := asks_lease hasks
  have hreal := (h.held.run i c hc).2.real (Or.inl hasks)
  refine ⟨⟨l, hl, h.held.holds i c l hc hl hend⟩, fun op v hop hv => ?_, fun l command rest responses hpc => ?_⟩
  · obtain ⟨hin, hcls, hhandle, hnull⟩ := served_handle (DeviceClient.serve_served hserve) hop hv
    exact ⟨hhandle.trans ((h.session i c hc hreal hin).1 hcls), hnull⟩
  · have hsession := h.session i c hc hreal (by rw [hpc]; rfl)
    by_cases hcls : (s.clientOf b i).cls = .aardvark
    · by_cases hnull : s.given i = .null
      · exact Or.inr ⟨hcls, hnull⟩
      · refine Or.inl ?_
        simp only [DeviceClient.isOpen, hcls, hsession.1 hcls, ne_eq, hnull, not_false_eq_true, decide_true]
    · refine Or.inl ?_
      unfold DeviceClient.isOpen
      split
      · rename_i haardvark
        exact absurd haardvark hcls
      · exact hsession.2 hcls

theorem Tracked.open_handle (h : s.Tracked b) (a : RigAct) : HandleOpen b py s a := by
  intro i c x op v hx hop hv
  obtain ⟨answer, -, hc, hserve⟩ := asks_ask hx
  have hreal := (h.inv.held.run i c hc).2.real (Or.inl (serve_asks hserve))
  obtain ⟨hin, hcls, hhandle, hnull⟩ := served_handle (DeviceClient.serve_served hserve) hop hv
  have hgiven := hhandle.trans ((h.inv.session i c hc hreal hin).1 hcls)
  rw [hgiven] at hnull ⊢
  exact h.handle i c hc hreal hin hcls hnull

/-! ## How many handles a resource has -/

/-- A call that is about to open a device finds no handle on its resource but stranded ones. -/
theorem Tracked.only_stranded (h : s.Tracked b) (hc : s.devices.calls i = some c) (hasks : c.pc.asks = true)
    (hout : c.pc.inSession = false) {y : DeviceHandle} (hy : y ∈ s.handles) (hkey : y.resourceKey = c.self.resourceKey) :
    y ∈ s.stranded := by
  rcases h.owned y hy with hs | howns
  · exact hs
  · obtain ⟨⟨l, hl⟩, hend⟩ := asks_lease hasks
    obtain ⟨d, hd, -, hin, -, -, -, hkeyd⟩ := howns
    obtain ⟨m, hm, hdend⟩ := session_lease hin
    have hsame := h.inv.held.sole hd hc hm hl hdend hend (hkeyd.symm.trans hkey)
    rw [hsame, hc] at hd
    cases hd
    rw [hout] at hin
    cases hin

/-- A device is opened by a call that connects. -/
theorem served_opened {k : DeviceClient} {pc : DevicePc} (hserved : k.Served pc x) {v : Json} (h : x.opened = some v) :
    ∃ l target device w, pc = .connect l target ∧ x.asked = some (.openDevice device) ∧ x.result = .ok w ∧
      v = x.client.handle := by
  unfold ClientStep.opened at h
  split at h
  · rename_i device w hasked hok
    cases h
    cases hserved with
    | opened l target => exact ⟨l, target, _, _, rfl, hasked, hok, rfl⟩
    | commanded l command rest responses asked result hof =>
      rcases hof _ hasked with ⟨args, heq⟩ | ⟨transaction, heq, -⟩ <;> cases heq
    | refused => cases hok
    | _ => cases hasked
  · cases h

/-- **The handles after a step**: those it opens, and some of those before. -/
theorem step_handles {a : RigAct} (hstep : s.step b py a = some s') :
    ∀ y ∈ s'.handles, y ∈ s.opens b py a ∨ y ∈ s.handles := by
  cases a with
  | create k =>
    rw [step_create hstep]
    exact fun y hy => Or.inr hy
  | run i k spec =>
    obtain ⟨-, rfl⟩ := step_run hstep
    exact fun y hy => Or.inr hy
  | step i inp =>
    obtain ⟨c, pc', eff, -, -, -, rfl⟩ := step_silent hstep
    exact fun y hy => Or.inr hy
  | ask i answer =>
    obtain ⟨c, x, pc', eff, hc, hx, -, rfl⟩ := step_ask hstep
    intro y hy
    rw [opens_ask hc hx]
    have hmem : y ∈ (s.asked i c.self.resourceKey x).handles := hy
    unfold asked at hmem
    unfold ClientStep.opened
    split at hmem
    · rename_i device v hasked hok
      simp only [hasked, hok]
      exact List.mem_append.1 hmem
    · exact Or.inr (List.mem_filter.1 hmem).1
    · exact Or.inr hmem
    · exact Or.inr hmem

/-- What a step opens is opened by a call that connects, for its resource. -/
theorem opens_mem {a : RigAct} {y : DeviceHandle} (hy : y ∈ s.opens b py a) :
    ∃ i answer c x l target device w, a = .ask i answer ∧ s.devices.calls i = some c ∧
      (s.clientOf b i).serve py answer c.pc = some x ∧ c.pc = .connect l target ∧ x.asked = some (.openDevice device) ∧
      x.result = .ok w ∧ y = ⟨x.client.handle, c.self.resourceKey, i⟩ := by
  cases hasks : s.asks b py a with
  | none =>
    simp only [opens, hasks] at hy
    cases hy
  | some p =>
    obtain ⟨i, c, x⟩ := p
    obtain ⟨answer, rfl, hc, hx⟩ := asks_ask hasks
    rw [opens_ask hc hx] at hy
    cases hopened : x.opened with
    | none =>
      rw [hopened] at hy
      cases hy
    | some v =>
      rw [hopened] at hy
      obtain ⟨l, target, device, w, hpc, hasked, hok, rfl⟩ := served_opened (DeviceClient.serve_served hx) hopened
      exact ⟨i, answer, c, x, l, target, device, w, rfl, hc, hx, hpc, hasked, hok, (mem_handlesOf.1 hy).2⟩

theorem opens_unique {a : RigAct} {y z : DeviceHandle} (hy : y ∈ s.opens b py a) (hz : z ∈ s.opens b py a) : y = z := by
  obtain ⟨i, answer, c, x, -, -, -, -, rfl, hc, hx, -, -, -, rfl⟩ := opens_mem hy
  obtain ⟨j, answer', d, x', -, -, -, -, hask, hd, hx', -, -, -, rfl⟩ := opens_mem hz
  cases hask
  rw [hc] at hd
  cases hd
  rw [hx] at hx'
  cases hx'
  rfl

/-- What a step opens is there after it, with all that was there before. -/
theorem step_opens {a : RigAct} {y : DeviceHandle} (hy : y ∈ s.opens b py a) :
    ∃ s', s.step b py a = some s' ∧ y ∈ s'.handles ∧ ∀ z ∈ s.handles, z ∈ s'.handles := by
  obtain ⟨i, answer, c, x, l, target, device, w, rfl, hc, hx, hpc, hasked, hok, heq⟩ := opens_mem hy
  have hinput : x.input = .returned w := by simp only [ClientStep.input, hok]
  have hadv : c.advance py (s.devices.table.locks c.self.resourceKey) s.devices.issued x.input =
      some (c.acquired l, .none) := by
    rw [hinput]
    simp only [DeviceCall.advance, hpc]
  obtain ⟨d, hd⟩ : ∃ d, s.devices.step py (.step i x.input) = some d := ⟨_, Devices.step_call hc hadv⟩
  have hhandles : (s.asked i c.self.resourceKey x).handles =
      handlesOf c.self.resourceKey i x.client.handle ++ s.handles := by rw [asked, hasked, hok]
  rw [opens_ask hc hx, ClientStep.opened, hasked, hok] at hy
  refine ⟨{ s.asked i c.self.resourceKey x with
      devices := d
      clients := Function.update s.clients (b.client (s.adapterOf i)) x.client },
    by simp only [step, hc, Option.bind_some, hx, hd, Option.map_some], ?_, fun z hz => ?_⟩
  · show y ∈ (s.asked i c.self.resourceKey x).handles
    rw [hhandles]
    exact List.mem_append_left _ hy
  · show z ∈ (s.asked i c.self.resourceKey x).handles
    rw [hhandles]
    exact List.mem_append_right _ hz

theorem oneHandle_step (h : s.Tracked b) (hone : s.OneHandle) {a : RigAct} (hnot : ¬OpensStranded b py s a)
    (hstep : s.step b py a = some s') : s'.OneHandle := by
  have hclear : ∀ y ∈ s.opens b py a, ∀ z ∈ s.handles, z.resourceKey ≠ y.resourceKey := by
    intro y hy z hz hkey
    obtain ⟨i, answer, c, x, l, target, -, -, -, hc, hx, hpc, -, -, heq⟩ := opens_mem hy
    have hstranded : z ∈ s.stranded :=
      h.only_stranded hc (serve_asks hx) (by rw [hpc]; rfl) hz (by rw [hkey, heq])
    exact hnot ⟨y, hy, z, hstranded, hkey⟩
  intro y hy z hz hkey
  rcases step_handles hstep y hy with hopen | hy <;> rcases step_handles hstep z hz with hopen' | hz
  · exact opens_unique hopen hopen'
  · exact absurd hkey.symm (hclear y hopen z hz)
  · exact absurd hkey (hclear z hopen' y hy)
  · exact hone y hy z hz hkey

theorem opensStranded_parts (h : s.Tracked b) {a : RigAct} (hfresh : FreshHandle b py s a)
    (hopens : OpensStranded b py s a) :
    ∃ s', s.step b py a = some s' ∧ ¬s'.OneHandle := by
  obtain ⟨y, hy, z, hz, hkey⟩ := hopens
  obtain ⟨s', hstep, hmem, hkept⟩ := step_opens hy
  have hold := h.stranded z hz
  refine ⟨s', hstep, fun hone => ?_⟩
  have hsame := hone z (hkept z hold) y hmem hkey
  exact hfresh y hy z hold (congrArg DeviceHandle.value hsame)

end Rig

/-! ## Runs -/

/-- **Whatever a device is asked comes from the `run` that holds its resource, with what the module returned to this `run`**;
where the module returns no handle that is still open, it is given none that has been closed. -/
theorem asked_by_holder (b : Bench) (py : Runtime) (acts : List RigAct) :
    Trace.Every (Rig.step b py) (AskedByHolder b py) (Rig.init b) acts ∧
      (Trace.Every (Rig.step b py) (FreshHandle b py) (Rig.init b) acts →
        Trace.Every (Rig.step b py) (HandleOpen b py) (Rig.init b) acts) := by
  refine ⟨?_, fun hfresh => ?_⟩
  · exact Trace.every_of_inv (P := Rig.Inv b) (C := fun _ _ => True) (fun _ _ _ h _ hstep => Rig.inv_step h hstep)
      (fun _ a h _ => h.asked a) Rig.Inv.init (Trace.every_iff_forall_split.2 (fun _ _ _ _ _ _ => trivial))
  · exact Trace.every_of_inv (P := Rig.Tracked b) (fun _ _ _ h hf hstep => Rig.tracked_step h hf hstep)
      (fun _ a h _ => h.open_handle a) Rig.Tracked.init hfresh

/-- **A resource has one open handle at most, in exactly the runs that never open a device while a handle that the module
failed to close is there**, where the module returns no handle that is still open. -/
theorem one_handle_iff (b : Bench) (py : Runtime) (acts : List RigAct)
    (hfresh : Trace.Every (Rig.step b py) (FreshHandle b py) (Rig.init b) acts) :
    (∀ pre post m, acts = pre ++ post → Trace.run (Rig.step b py) (Rig.init b) pre = some m → m.OneHandle) ↔
      Trace.Every (Rig.step b py) (fun s a => ¬OpensStranded b py s a) (Rig.init b) acts := by
  refine Trace.always_iff_every (P := Rig.Tracked b) (D := FreshHandle b py)
    (fun _ _ _ h hf hstep => Rig.tracked_step h hf hstep) ?_ Rig.Tracked.init (fun y hy => by cases hy) hfresh
  intro s a h hf hone
  refine ⟨fun hkeeps hopens => ?_, fun hnot s' hstep => Rig.oneHandle_step h hone hnot hstep⟩
  obtain ⟨s', hstep, hparts⟩ := Rig.opensStranded_parts h hf hopens
  exact hparts (hkeeps s' hstep)

def aardvarkBench : Bench where
  adapter _      := ⟨.realAardvark, "aardvark-device", true⟩
  client _       := 0
  made _         := { cls := .aardvark, target := .int 0, imported := true }
  made_closed    := fun _ => rfl
  one_resource   := fun _ _ _ => rfl

def plainRuntime : Runtime := ⟨fun _ _ => none, fun _ => ""⟩

/-- One `run` of the adapter, up to the close of its client: the module opens the device, transfers once, and closes. -/
def deviceRun (i : Nat) (given closed : ClientAnswer) : List RigAct :=
  [.run i 0 [("job_id", .str "job"), ("transactions", .array [.null])], .step i (.now i), .ask i given, .step i .go,
   .ask i (.returned .null), .step i .go, .step i (.directory "/tmp/job"), .ask i closed, .step i .go]

/-- Two runs; the module gives the same handle again once it is closed. -/
def twoRunsActs : List RigAct :=
  [.create 0] ++ deviceRun 0 (.returned (.str "handle")) (.returned .null) ++
    deviceRun 1 (.returned (.str "handle")) (.returned .null)

theorem twoRunsActs_asked : (Trace.run (Rig.step aardvarkBench plainRuntime)
    (Rig.init aardvarkBench) twoRunsActs).isSome = true ∧
    Trace.Every (Rig.step aardvarkBench plainRuntime) (AskedByHolder aardvarkBench plainRuntime) (Rig.init aardvarkBench)
      twoRunsActs ∧
    Trace.Every (Rig.step aardvarkBench plainRuntime) (HandleOpen aardvarkBench plainRuntime) (Rig.init aardvarkBench)
      twoRunsActs :=
  ⟨by decide +kernel, (asked_by_holder aardvarkBench plainRuntime twoRunsActs).1,
    (asked_by_holder aardvarkBench plainRuntime twoRunsActs).2 (by decide +kernel)⟩

theorem twoRunsActs_one_handle : (Trace.run (Rig.step aardvarkBench plainRuntime)
    (Rig.init aardvarkBench) twoRunsActs).isSome = true ∧
    ∀ pre post m, twoRunsActs = pre ++ post →
      Trace.run (Rig.step aardvarkBench plainRuntime) (Rig.init aardvarkBench) pre = some m → m.OneHandle :=
  ⟨by decide +kernel,
    (one_handle_iff aardvarkBench plainRuntime twoRunsActs (by decide +kernel)).2 (by decide +kernel)⟩

-- a handle that cannot be closed, and another
example : (Trace.run (Rig.step aardvarkBench plainRuntime) (Rig.init aardvarkBench)
    ([.create 0] ++ deviceRun 0 (.returned (.int 1)) (.raised "USB") ++
      (deviceRun 1 (.returned (.int 2)) (.returned .null)).take 3)).map (fun s => s.handles.map (·.call)) = some [1, 0] := by
  decide +kernel

-- a module that returns `None`: the transfer comes to a client that is not open, and asks nothing
example : (Trace.run (Rig.step aardvarkBench plainRuntime) (Rig.init aardvarkBench)
    ([.create 0] ++ (deviceRun 0 (.returned .null) (.returned .null)).take 4)).map (fun s =>
      ((s.asks aardvarkBench plainRuntime (.ask 0 (.returned .null))).map
        (fun p => (p.2.2.asked.isSome, p.2.2.client.isOpen)),
        s.handles)) = some (some (false, false), []) := by
  decide +kernel

end EdaLab
