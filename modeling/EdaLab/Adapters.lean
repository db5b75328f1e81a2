import EdaLab.Cursor
import EdaLab.LockTable
import EdaLab.Trace
/-!
# Adapters — `FixtureAdapter` and its subclasses

A call of `acquire`, `execute`, `run` or `release` is a machine: its steps are the single operations on the lock of its
resource and the single calls of its client, and between two of them any other call may run.  The locks are those of
`FixtureAdapter._locks`, one table for all instances of all the classes.
-/
namespace EdaLab

open Locks

inductive AdapterClass
  | fixture | fixtureTrace32 | fixtureAardvark | fixtureEda | realTrace32 | realAardvark
  deriving DecidableEq

namespace AdapterClass

/-- `adapter_name`. -/
def adapterName : AdapterClass → String
  | fixture         => "fixture"
  | fixtureTrace32  => "trace32"
  | fixtureAardvark => "aardvark"
  | fixtureEda      => "eda"
  | realTrace32     => "trace32"
  | realAardvark    => "aardvark"

def isReal : AdapterClass → Bool
  | realTrace32 | realAardvark => true
  | _                          => false

/-- What a subclass passes to `client.connect` or `client.open`. -/
def endpointKey : AdapterClass → String
  | realAardvark => "device_id"
  | _            => "endpoint"

/-- What a subclass passes to `client.command` or `client.transfer`, one after the other. -/
def commandsKey : AdapterClass → String
  | realAardvark => "transactions"
  | _            => "commands"

def notConfigured : AdapterClass → String
  | realAardvark => "configuration_error: Aardvark client is not configured"
  | _            => "configuration_error: TRACE32 client is not configured"

end AdapterClass

/-- `spec: dict[str, Any]`. -/
abbrev DeviceSpec := List (String × Json)

/-- `spec.get(key, default)`. -/
def DeviceSpec.getD (spec : DeviceSpec) (key : String) (default : Json) : Json := (Json.member spec key).getD default

structure DeviceAdapter where
  cls         : AdapterClass
  resourceKey : String
  /-- `self.client is not None`. -/
  hasClient   : Bool
  deriving DecidableEq

/-- `number` tells the objects apart: the code itself has no such field. -/
structure DeviceLease where
  resourceKey : String
  ownerId     : String
  acquiredAt  : Time
  number      : Nat
  deriving DecidableEq

structure RawResult where
  sourceKind      : String
  adapter         : String
  executionStatus : String
  transportStatus : String
  payload         : DeviceSpec

/-- The artifact, and what is written to it. -/
structure ArtifactSet where
  path       : String
  sourceKind : String
  adapter    : String
  content    : DeviceSpec

inductive DeviceError
  | runtimeError (message : String)
  | keyError (key : String)
  | valueError (message : String)
  | typeError
  | attributeError
  | timeout (message : String)
  | connection (message : String)
  /-- What a client raised, and whether it is an `Exception`. -/
  | client (isException : Bool)
  /-- What `mkdtemp`, `json.dumps` or `write_text` raised. -/
  | artifact

inductive DeviceValue
  | none
  | lease (l : DeviceLease)
  | raw (r : RawResult)
  | artifacts (a : ArtifactSet)

inductive DeviceOutcome
  | returned (v : DeviceValue)
  | raised (e : DeviceError)

namespace DeviceAdapter

variable (self : DeviceAdapter)

/-- `_payload`. -/
def payload (jobId : Json) (spec : DeviceSpec) : DeviceSpec :=
  match self.cls with
  | .fixtureTrace32 =>
    [("job_id", jobId), ("commands", spec.getD "commands" (.array [.str "SYStem.Mode Up"])),
     ("registers", spec.getD "registers" (.object [("PC", .str "0x00000000")])),
     ("target_halted", spec.getD "target_halted" (.bool true))]
  | .fixtureAardvark =>
    [("job_id", jobId), ("bus", spec.getD "bus" (.str "I2C")), ("address_or_cs", spec.getD "address_or_cs" (.str "0x50")),
     ("read_bytes", spec.getD "read_bytes" (.str "aabbccdd"))]
  | .fixtureEda =>
    [("job_id", jobId), ("tool_name", spec.getD "tool_name" (.str "synthetic-eda")),
     ("flow_name", spec.getD "flow_name" (.str "timing")), ("exit_code", spec.getD "exit_code" (.int 0)),
     ("report_names", spec.getD "report_names" (.array [.str "timing.report"]))]
  | _ => [("job_id", jobId), ("profile", spec.getD "profile" (.str "normal"))]

def isProfile (spec : DeviceSpec) (name : String) : Bool :=
  match spec.getD "profile" (.str "normal") with
  | .str s => decide (s = name)
  | _      => false

def result (sourceKind : String) (payload : DeviceSpec) : RawResult :=
  ⟨sourceKind, self.cls.adapterName, "SUCCEEDED", "OK", payload⟩

/-- `execute` of the fixtures. -/
def executeFixture (lease : DeviceLease) (spec : DeviceSpec) : Except DeviceError RawResult :=
  if lease.resourceKey ≠ self.resourceKey then .error (.valueError "lease does not belong to adapter resource")
  else if isProfile spec "timeout" then .error (.timeout "synthetic timeout")
  else if isProfile spec "transport_error" then .error (.connection "synthetic transport error")
  else
    match Json.member spec "job_id" with
    | none   => .error (.keyError "job_id")
    | some j => .ok (self.result "fixture" (self.payload j spec))

/-- What `for command in commands` goes through. -/
def elements : Json → Except DeviceError (List Json)
  | .array l  => .ok l
  | .str s    => .ok (s.toList.map (fun c => .str (String.singleton c)))
  | .object m => .ok (m.map (fun x => .str x.1))
  | _         => .error .typeError

end DeviceAdapter

/-- `collect`. -/
def RawResult.artifact (raw : RawResult) (directory : String) : ArtifactSet where
  path := directory ++ "/" ++ raw.adapter ++ ".json"
  sourceKind := raw.sourceKind
  adapter := raw.adapter
  content :=
    [("source_kind", .str raw.sourceKind), ("adapter", .str raw.adapter), ("transport_status", .str raw.transportStatus),
     ("execution_status", .str raw.executionStatus), ("payload", .object raw.payload)]

/-! ## A call -/

inductive DeviceMethod
  | acquire | execute | run | release
  deriving DecidableEq

inductive DevicePc
  | acquire
  | connect (lease : DeviceLease) (endpoint : Json)
  | execute (lease : DeviceLease)
  | command (lease : DeviceLease) (rest responses : List Json)
  | collect (lease : DeviceLease) (raw : RawResult)
  | close (lease : DeviceLease) (out : DeviceOutcome)
  | unlock (lease : DeviceLease) (out : DeviceOutcome)
  | ended (lease : Option DeviceLease) (out : DeviceOutcome)

structure DeviceCall where
  self   : DeviceAdapter
  method : DeviceMethod
  spec   : DeviceSpec
  pc     : DevicePc

/-- What the clock, the client and the file system answer. -/
inductive DeviceInput
  | go
  | now (t : Time)
  | returned (v : Json)
  | raised (isException : Bool)
  | directory (path : String)
  | failed

/-- What a step does to the locks. -/
inductive LockEffect
  | none
  | take (l : DeviceLease)
  | release (l : DeviceLease)

namespace DeviceCall

variable (py : Runtime) (c : DeviceCall)

/-- `release` at its start: the subclasses close their client first. -/
def leaving (lease : DeviceLease) (out : DeviceOutcome) : DevicePc :=
  if c.self.cls.isReal ∧ c.self.hasClient then .close lease out else .unlock lease out

/-- After `acquire` has its lease. -/
def acquired (lease : DeviceLease) : DevicePc :=
  match c.method with
  | .run => .execute lease
  | _    => .ended (some lease) (.returned (.lease lease))

/-- After `execute`: on with `run`, or its `finally`. -/
def executed (lease : DeviceLease) : Except DeviceError RawResult → DevicePc
  | .ok raw =>
    match c.method with
    | .run => .collect lease raw
    | _    => .ended (some lease) (.returned (.raw raw))
  | .error e =>
    match c.method with
    | .run => c.leaving lease (.raised e)
    | _    => .ended (some lease) (.raised e)

/-- The last line of `execute` with a client. -/
def responded (responses : List Json) : Except DeviceError RawResult :=
  match Json.member c.spec "job_id" with
  | none   => .error (.keyError "job_id")
  | some j => .ok (c.self.result "real" [("job_id", j), ("responses", .array responses)])

/-- `FixtureAdapter.acquire`, as it takes the lock of the resource without waiting. -/
def tryLock (lock : Option Bool) (number : Nat) (now : Time) : DevicePc × LockEffect :=
  if c.self.cls.isReal ∧ c.self.hasClient = false then
    (.ended none (.raised (.runtimeError c.self.cls.notConfigured)), .none)
  else
    match Json.member c.spec "job_id", lock with
    | none, _            => (.ended none (.raised (.keyError "job_id")), .none)
    | some _, none       => (.ended none (.raised (.keyError c.self.resourceKey)), .none)
    | some _, some true  => (.ended none (.raised (.runtimeError "resource_unavailable")), .none)
    | some j, some false =>
      let lease : DeviceLease := ⟨c.self.resourceKey, py.strOf j, now, number⟩
      (if c.self.cls.isReal then .connect lease (c.spec.getD c.self.cls.endpointKey .null) else c.acquired lease,
        .take lease)

/-- `FixtureAdapter.release`: a lock that is not locked raises. -/
def unlock (lock : Option Bool) (lease : DeviceLease) (out : DeviceOutcome) : DevicePc × LockEffect :=
  if lease.resourceKey ≠ c.self.resourceKey then
    (.ended (some lease) (.raised (.valueError "lease does not belong to adapter resource")), .none)
  else
    match lock with
    | none       => (.ended (some lease) (.raised (.keyError c.self.resourceKey)), .none)
    | some false => (.ended (some lease) (.raised (.runtimeError "release unlocked lock")), .none)
    | some true  => (.ended (some lease) out, .release lease)

/-- The first step of `execute`. -/
def execute (lease : DeviceLease) : DevicePc :=
  if c.self.cls.isReal then
    match DeviceAdapter.elements (c.spec.getD c.self.cls.commandsKey (.array [])) with
    | .ok commands => .command lease commands []
    | .error e     => c.executed lease (.error e)
  else c.executed lease (c.self.executeFixture lease c.spec)

/-- The next step, for the lock of the resource and the number of the next lease. -/
def advance (lock : Option Bool) (number : Nat) (inp : DeviceInput) : Option (DevicePc × LockEffect) :=
  match c.pc, inp with
  | .acquire, .now t => some (c.tryLock py lock number t)
  | .connect lease _, .returned _ => some (c.acquired lease, .none)
  | .connect lease _, .raised isException =>
    -- `except Exception` releases and raises again
    if isException then some (.unlock lease (.raised (.client isException)), .none)
    else some (.ended (some lease) (.raised (.client isException)), .none)
  | .execute lease, .go => some (c.execute lease, .none)
  | .command lease [] responses, .go => some (c.executed lease (c.responded responses), .none)
  | .command lease (_ :: rest) responses, .returned v =>
    if c.self.hasClient then some (.command lease rest (responses ++ [v]), .none) else none
  | .command lease (_ :: _) _, .raised isException =>
    if c.self.hasClient then some (c.executed lease (.error (.client isException)), .none) else none
  | .command lease (_ :: _) _, .go =>
    if c.self.hasClient then none else some (c.executed lease (.error .attributeError), .none)
  | .collect lease raw, .directory path => some (c.leaving lease (.returned (.artifacts (raw.artifact path))), .none)
  | .collect lease _, .failed => some (c.leaving lease (.raised .artifact), .none)
  | .close lease out, .returned _ => some (.unlock lease out, .none)
  | .close lease _, .raised isException => some (.unlock lease (.raised (.client isException)), .none)
  | .unlock lease out, .go => some (c.unlock lock lease out)
  | _, _ => none

end DeviceCall

/-! ## Any number of calls -/

structure Devices where
  adapters : List DeviceAdapter
  table    : LockTable String DeviceLease
  calls    : Nat → Option DeviceCall
  /-- How many leases have been made. -/
  issued   : Nat

inductive DeviceAct
  /-- `__init__`. -/
  | create (a : DeviceAdapter)
  | acquire (i : Nat) (self : DeviceAdapter) (spec : DeviceSpec)
  | run (i : Nat) (self : DeviceAdapter) (spec : DeviceSpec)
  | execute (i : Nat) (self : DeviceAdapter) (lease : DeviceLease) (spec : DeviceSpec)
  | release (i : Nat) (self : DeviceAdapter) (lease : DeviceLease)
  /-- The next step of a call. -/
  | step (i : Nat) (inp : DeviceInput)

namespace Devices

def init : Devices := ⟨[], .empty, fun _ => none, 0⟩

variable (py : Runtime) (s : Devices)

/-- A call of a method of an adapter that exists. -/
def enter (i : Nat) (c : DeviceCall) : Option Devices :=
  if (s.calls i).isNone ∧ c.self ∈ s.adapters then some { s with calls := Function.update s.calls i (some c) } else none

def apply (key : String) : LockEffect → Devices
  | .none      => s
  | .take l    => { s with table := s.table.take key l, issued := s.issued + 1 }
  | .release l => { s with table := s.table.release key l }

def step : DeviceAct → Option Devices
  | .create a => some { s with adapters := a :: s.adapters, table := s.table.make a.resourceKey }
  | .acquire i self spec => s.enter i ⟨self, .acquire, spec, .acquire⟩
  | .run i self spec => s.enter i ⟨self, .run, spec, .acquire⟩
  | .execute i self lease spec => s.enter i ⟨self, .execute, spec, .execute lease⟩
  | .release i self lease =>
    s.enter i ⟨self, .release, [], DeviceCall.leaving ⟨self, .release, [], .acquire⟩ lease (.returned .none)⟩
  | .step i inp =>
    match s.calls i with
    | none   => none
    | some c =>
      (c.advance py (s.table.locks c.self.resourceKey) s.issued inp).map (fun x =>
        { s.apply c.self.resourceKey x.2 with calls := Function.update s.calls i (some { c with pc := x.1 }) })

end Devices

end EdaLab
