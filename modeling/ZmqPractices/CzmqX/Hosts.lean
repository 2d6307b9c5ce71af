import ZmqPractices.CzmqX.Sockets
import ZmqPractices.ZmqX.Coherence

/-!
Processes that share named endpoints (`zmq_x.c`, `czmq_x.c`).

Each process calls `_zmq_init_x` and gets the resolver's port or becomes a client of the
process that has it; one whose call fails otherwise, or that makes none, stays alone. Then it
makes the calls of either library in any order, and a client's queries can be interrupted. A
process can stop at any time, and the one that has the port stops when it is asked for an
address it does not have, or only its resolver ends: the port is free then, and the next
process that starts gets it, with an empty table.
-/

namespace ZmqPractices.CzmqX

open Czmq ZmqX Lib

/-! ### The other calls -/

/-- What the libraries below answer to all calls. -/
structure Answers extends Below where
  disconnect : CString → Int
  zsocketConnect : CString → Int
  zsocketDisconnect : CString → Int

/-- `zmq_disconnect_x`, which is `zmq_unbind_x` with `zmq_disconnect` for `zmq_unbind`. -/
def zmqDisconnectX (zmqDisconnect : CString → Int) (query : Query)
    (resolver : Option Endpoints) (p : Process) (addr : CString) :
    Option Endpoints × Option (Int × Process) :=
  zmqUnbindX zmqDisconnect query resolver p addr

/-- `zmq_socket_monitor_x`, which is still to be written. -/
def zmqSocketMonitorX : Int := -1

/-- A call on a CZMQ socket that needs a mapped address: `plain` is what CZMQ answers for an
address that is not a named endpoint, `mapped` the call of `zmq_x.c`. -/
def zsocketX (plain : CString → Int) (lookup : Query)
    (mapped : Option Endpoints → Process → CString → Option Endpoints × Option (Int × Process))
    (resolver : Option Endpoints) (p : Process) (text : CString) :
    Option Endpoints × Option (Int × Process) :=
  let addr := format text
  if isXAddr addr then
    match zmqEndpointX lookup resolver p addr with
    | (resolver, none) => (resolver, none)
    | (resolver, some (none, p)) => (resolver, some (-1, p))
    | (resolver, some (some _, p)) => mapped resolver p addr
  else (resolver, some (plain addr, p))

section

variable (answers : Answers) (resolver : Option Endpoints) (p : Process) (text : CString)

def zsocketConnectX : Option Endpoints × Option (Int × Process) :=
  zsocketX answers.zsocketConnect answers.lookup (zmqConnectX answers.toZmq answers.query)
    resolver p text

def zsocketDisconnectX : Option Endpoints × Option (Int × Process) :=
  zsocketX answers.zsocketDisconnect answers.lookup
    (zmqDisconnectX answers.disconnect answers.query) resolver p text

theorem zsocketUnbindX_eq : zsocketUnbindX answers.toBelow resolver p text =
    zsocketX answers.zsocketUnbind answers.lookup (zmqUnbindX answers.unbind answers.query)
      resolver p text := rfl

end

/-! ### Starting -/

/-- Why the resolver's port cannot be bound. -/
inductive BindFailure where
  | addrInUse
  | other
deriving DecidableEq, Repr

/-- `_zmq_init_x`, which `zmq_init_x` and `czmq_init_x` call: what it returns, whether
`ipc_server_task` runs then, and the process; `connect` is what `zmq_connect` answers. -/
def zmqInitX (bound : Option BindFailure) (connect : Int) (p : Process) : Int × Bool × Process :=
  match bound with
  | some .addrInUse => (connect, false, { p with client := true })
  | some .other => (-1, false, p)
  | none => (0, true, p)

/-! ### Calls -/

/-- A call of the interfaces, with what is answered below. -/
inductive HostCall where
  | zmqEndpoint (addr : CString) (query : Query)
  | zmqBind (addr : CString) (answers : Answers)
  | zmqUnbind (addr : CString) (answers : Answers)
  | zmqConnect (addr : CString) (answers : Answers)
  | zmqDisconnect (addr : CString) (answers : Answers)
  | zsocketBind (text : CString) (answers : Answers)
  | zsocketUnbind (text : CString) (answers : Answers)
  | zsocketConnect (text : CString) (answers : Answers)
  | zsocketDisconnect (text : CString) (answers : Answers)

/-- Only the process, of what a call returns. -/
def processOf {α : Type} (outcome : Option Endpoints × Option (α × Process)) :
    Option Endpoints × Option Process :=
  (outcome.1, outcome.2.map Prod.snd)

/-- What becomes of the resolver, and of the process if the call returns. -/
def HostCall.run (resolver : Option Endpoints) (p : Process) :
    HostCall → Option Endpoints × Option Process
  | .zmqEndpoint addr query => processOf (zmqEndpointX query resolver p addr)
  | .zmqBind addr answers => processOf (zmqBindX answers.toZmq answers.query resolver p addr)
  | .zmqUnbind addr answers =>
      processOf (zmqUnbindX answers.unbind answers.query resolver p addr)
  | .zmqConnect addr answers =>
      processOf (zmqConnectX answers.toZmq answers.query resolver p addr)
  | .zmqDisconnect addr answers =>
      processOf (zmqDisconnectX answers.disconnect answers.query resolver p addr)
  | .zsocketBind text answers => processOf (zsocketBindX answers.toBelow resolver p text)
  | .zsocketUnbind text answers => processOf (zsocketUnbindX answers.toBelow resolver p text)
  | .zsocketConnect text answers => processOf (zsocketConnectX answers resolver p text)
  | .zsocketDisconnect text answers => processOf (zsocketDisconnectX answers resolver p text)

/-! ### The processes -/

/-- What `_zmq_init_x` has made of a process: nothing, the resolver, or a client of it; or its
resolver has ended. -/
inductive Role where
  | alone
  | serving
  | asking
  | closed
deriving DecidableEq, Repr

structure Host where
  process : Process
  role : Role
  running : Bool
deriving DecidableEq

/-- That `bind_new_endpoint` got an endpoint for an address: in which process, what that was
then, and what it got. -/
structure Choice (Proc : Type) where
  proc : Proc
  role : Role
  addr : CString
  endpoint : CString
deriving DecidableEq

/-- The processes and which of them has the resolver's port; and, for the statements only, the
endpoints that were chosen and the processes that had the port and have given it up. -/
structure Hosts (Proc : Type) where
  host : Proc → Host
  port : Option Proc
  chosen : List (Choice Proc)
  ended : List Proc

/-- `_zmq_init_x`, where the port cannot be bound for another reason than that it is in use if
`fails`; a call; `ipc_server_task` is interrupted and closes the port; or the process stops. -/
inductive HostStep (Proc : Type) where
  | init (proc : Proc) (fails : Bool) (connect : Int)
  | call (proc : Proc) (call : HostCall)
  | close (proc : Proc)
  | stop (proc : Proc)

variable {Proc : Type} [DecidableEq Proc]

namespace Hosts

def setHost (s : Hosts Proc) (proc : Proc) (host : Host) : Hosts Proc :=
  { s with host := Function.update s.host proc host }

/-- The table of the process that has the port. -/
def resolver (s : Hosts Proc) : Option Endpoints :=
  s.port.map fun proc => (s.host proc).process.table

/-- A process gives up the port if it has it. -/
def leave (s : Hosts Proc) (proc : Proc) (host : Host) : Hosts Proc :=
  { s.setHost proc host with
    port := if s.port = some proc then none else s.port
    ended := if s.port = some proc then s.ended ++ [proc] else s.ended }

def stop (s : Hosts Proc) (proc : Proc) : Hosts Proc :=
  s.leave proc { s.host proc with running := false }

/-- The process that has the port stops. -/
def endResolver (s : Hosts Proc) : Hosts Proc :=
  match s.port with
  | none => s
  | some proc => s.stop proc

/-- The endpoints a process has been given in a call: what is new in its table and is not, in a
client, what the resolver has for the address. -/
def choices (s : Hosts Proc) (proc : Proc) (p : Process) : List (Choice Proc) :=
  let host := s.host proc
  let new := p.table.items.drop host.process.table.items.length
  (new.filter fun item =>
    ¬ (host.process.client ∧ answer s.resolver item.addr = some item.endpoint)).map fun item =>
      ⟨proc, host.role, item.addr, item.endpoint⟩

/-- The process after a call that has returned. -/
def returns (s : Hosts Proc) (proc : Proc) (p : Process) : Hosts Proc :=
  { s.setHost proc { s.host proc with process := p } with
    chosen := s.chosen ++ s.choices proc p }

/-- The reason why the resolver's port cannot be bound. -/
def bindFailure (s : Hosts Proc) (fails : Bool) : Option BindFailure :=
  if fails then some .other
  else if s.port.isSome then some .addrInUse
  else none

end Hosts

/-- The steps. The resolver handles a query at once; a process whose call does not return
takes no more steps. -/
def hostStep (s : Hosts Proc) : HostStep Proc → Option (Hosts Proc)
  | .init proc fails connect =>
      let host := s.host proc
      if host.running ∧ host.role = .alone then
        let (_, serves, p) := zmqInitX (s.bindFailure fails) connect host.process
        let role := if serves then .serving else if p.client then .asking else .alone
        some { s.setHost proc { host with process := p, role := role } with
          port := if serves then some proc else s.port }
      else none
  | .call proc call =>
      let host := s.host proc
      if host.running then
        let (resolver, returned) := call.run s.resolver host.process
        let after := match returned with
          | some p => s.returns proc p
          | none => s.stop proc
        some (if resolver.isSome then after else after.endResolver)
      else none
  | .close proc =>
      let host := s.host proc
      if host.running ∧ host.role = .serving then
        some (s.leave proc { host with role := .closed })
      else none
  | .stop proc => if (s.host proc).running then some (s.stop proc) else none

/-- All processes start with empty tables. -/
def hosts (Proc : Type) [DecidableEq Proc] : System (Hosts Proc) (HostStep Proc) where
  start := ⟨fun _ => ⟨⟨.empty, false⟩, .alone, true⟩, none, [], []⟩
  step := hostStep

end ZmqPractices.CzmqX
