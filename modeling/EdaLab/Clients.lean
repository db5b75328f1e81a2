import EdaLab.Adapters
import EdaLab.PyText
/-!
# Clients — the clients of the real adapters, and their replays

A call of a client asks the `t32rem` process or the Aardvark module once, and what comes back decides it: what the client
keeps, what it returns or raises.  The replays ask nothing.
-/
namespace EdaLab

inductive ClientClass
  | trace32 | aardvark | replayTrace32 | replayAardvark
  deriving DecidableEq

/-- What the process or the module does when it is called. -/
inductive ClientAnswer
  | returned (v : Json)      -- of a process, with the exit code 0: its output
  | failed (stderr : String) -- a process, with another exit code
  | missing                  -- `FileNotFoundError`, or `ImportError` of the module
  | timeout
  | raised (text : String)
  | interrupted              -- no `Exception`

inductive ClientError
  | runtimeError (message : String)
  | timeoutError
  | connectionError (message : String)
  | typeError
  | other (text : String)
  | interrupted
  deriving DecidableEq

def ClientError.isException : ClientError → Bool
  | interrupted => false
  | _           => true

/-- What is asked of the process or the module. -/
inductive DeviceOp
  | command (args : List Json)
  | openDevice (device : Json)
  | transfer (handle : Json) (transaction : Json)
  | close (handle : Json)

/-- `bool(x)`. -/
def Json.truthy : Json → Bool
  | .null      => false
  | .bool b    => b
  | .int i     => decide (i ≠ 0)
  | .float x   => decide (x ≠ .finite 0)
  | .str s     => decide (s ≠ "")
  | .array l   => !l.isEmpty
  | .object m  => !m.isEmpty

/-- `x if x is not None else default`. -/
def Json.orElse (default : Json) : Json → Json
  | .null => default
  | v     => v

/-- The four classes; a handle is whatever `module.open` returned, and `None` is no handle. -/
structure DeviceClient where
  cls        : ClientClass
  executable : String := "t32rem"
  /-- `config.endpoint`, or `config.device_id`. -/
  target     : Json
  responses  : List (String × Json) := []
  imported   : Bool := false
  connected  : Bool := false
  handle     : Json := .null

/-- What a method leaves of the client, what it asked, and what it returned or raised. -/
structure ClientStep where
  client : DeviceClient
  asked  : Option DeviceOp
  result : Except ClientError Json

namespace DeviceClient

variable (py : Runtime) (c : DeviceClient)

def isOpen : Bool :=
  match c.cls with
  | .aardvark => decide (c.handle ≠ .null)
  | _         => c.connected

def notOpen : String :=
  match c.cls with
  | .trace32        => "configuration_error: TRACE32 client is not connected"
  | .aardvark       => "configuration_error: Aardvark client is not open"
  | .replayTrace32  => "configuration_error: replay TRACE32 client is not connected"
  | .replayAardvark => "configuration_error: replay Aardvark client is not open"

/-- `AardvarkModuleClient.open`. -/
def openDevice (device : Json) (answer : ClientAnswer) : ClientStep :=
  let asked := some (DeviceOp.openDevice (c.target.orElse device))
  match answer with
  | .missing =>
    if c.imported then ⟨c, asked, .error (.connectionError "Aardvark open failed: ")⟩
    else ⟨c, none, .error (.runtimeError "configuration_error: Aardvark Python binding not installed")⟩
  | .returned v  => ⟨{ c with imported := true, handle := v }, asked, .ok .null⟩
  | .timeout     => ⟨{ c with imported := true }, asked, .error (.connectionError "Aardvark open failed: ")⟩
  | .failed text | .raised text =>
    ⟨{ c with imported := true }, asked, .error (.connectionError ("Aardvark open failed: " ++ text))⟩
  | .interrupted => ⟨{ c with imported := true }, asked, .error .interrupted⟩

/-- `connect`, or `open`. -/
def connect (target : Json) (answer : ClientAnswer) : ClientStep :=
  match c.cls with
  | .aardvark => c.openDevice target answer
  | .trace32  => ⟨{ c with target := if target.truthy then target else c.target, connected := true }, none, .ok .null⟩
  | _         => ⟨{ c with connected := true }, none, .ok .null⟩

/-- The command line of `t32rem`. -/
def arguments (command : Json) : List Json :=
  [.str c.executable] ++ (if c.target.truthy then [.str "-p", c.target] else []) ++ [command]

/-- `Trace32SubprocessClient.command` of a client that is connected. -/
def runCommand (command : Json) (answer : ClientAnswer) : ClientStep :=
  let asked := some (DeviceOp.command (c.arguments command))
  match answer with
  | .returned v => ⟨c, asked, .ok v⟩
  | .failed stderr =>
    ⟨c, asked, .error (.connectionError ("TRACE32 command failed: " ++ String.ofList (strip stderr.toList)))⟩
  | .missing     => ⟨c, asked, .error (.runtimeError "configuration_error: t32rem executable not found")⟩
  | .timeout     => ⟨c, asked, .error .timeoutError⟩
  | .raised text => ⟨c, asked, .error (.other text)⟩
  | .interrupted => ⟨c, asked, .error .interrupted⟩

/-- `AardvarkModuleClient.transfer` with a handle. -/
def transfer (transaction : Json) (answer : ClientAnswer) : ClientStep :=
  let asked := some (DeviceOp.transfer c.handle transaction)
  match answer with
  | .returned v  => ⟨c, asked, .ok v⟩
  | .missing     => ⟨c, asked, .error (.connectionError "Aardvark transfer failed: ")⟩
  | .timeout     => ⟨c, asked, .error .timeoutError⟩
  | .failed text | .raised text => ⟨c, asked, .error (.connectionError ("Aardvark transfer failed: " ++ text))⟩
  | .interrupted => ⟨c, asked, .error .interrupted⟩

/-- The response a replay has for a key; a list or a dictionary cannot be hashed, and what is no text is no key. -/
def replay (missing : String) : Json → ClientStep
  | .array _ | .object _ => ⟨c, none, .error .typeError⟩
  | .str key             =>
    match c.responses.lookup key with
    | some v => ⟨c, none, .ok v⟩
    | none   => ⟨c, none, .error (.runtimeError missing)⟩
  | _ => ⟨c, none, .error (.runtimeError missing)⟩

/-- `command`, or `transfer`. -/
def command (command : Json) (answer : ClientAnswer) : ClientStep :=
  if c.isOpen then
    match c.cls with
    | .aardvark       => c.transfer command answer
    | .trace32        => c.runCommand command answer
    | .replayTrace32  => c.replay "fixture_missing: TRACE32 command response" command
    | .replayAardvark => c.replay "fixture_missing: Aardvark transaction response" (.str (py.strOf command))
  else ⟨c, none, .error (.runtimeError c.notOpen)⟩

/-- `close`; a handle the module fails to close stays the client's. -/
def close (answer : ClientAnswer) : ClientStep :=
  match c.cls with
  | .aardvark =>
    if c.handle = .null then ⟨c, none, .ok .null⟩
    else
      let asked := some (DeviceOp.close c.handle)
      match answer with
      | .returned _  => ⟨{ c with handle := .null }, asked, .ok .null⟩
      | .missing     => ⟨c, asked, .error (.other "")⟩
      | .timeout     => ⟨c, asked, .error .timeoutError⟩
      | .failed text | .raised text => ⟨c, asked, .error (.other text)⟩
      | .interrupted => ⟨c, asked, .error .interrupted⟩
  | _ => ⟨{ c with connected := false }, none, .ok .null⟩

end DeviceClient

end EdaLab
