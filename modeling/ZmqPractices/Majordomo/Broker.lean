import ZmqPractices.Majordomo.Protocol
import ZmqPractices.Lib.Table
import ZmqPractices.Lib.Transition

/-!
The Majordomo broker (`mdbroker.c`): services, the workers that registered for
them, and the requests that wait for a worker.

A worker is a `worker_t` object. Its address `addr` is the number of its
allocation, so an address is never used again; the objects that are allocated are
those in the `workers` table, and following any other address is the fault
`dangling`. A worker points to its service by the service's name, `none` for NULL;
services are never deleted.

The sources declare `s_worker_require`, `s_worker_delete`, `s_worker_send` and
`s_worker_waiting` and define none of them, and the main loop is missing too. The
first, second and fourth are the fields of `Helpers`; a call of `s_worker_send` is
an output. Identifiers that do not exist are read as the ones they stand for:
`self` in the dispatch loop is `service`, `waitings` and `waiting` are one list, and
the service name that `mmi` requests are compared with is `service_frame`.

`zclock_time ()` is a sequence of readings, and `tick` counts the ones taken.
-/

namespace ZmqPractices.Majordomo

open Czmq Lib

def heartbeatLiveness : Nat := 3
def heartbeatInterval : Nat := 2500
def heartbeatExpiry : Nat := heartbeatInterval * heartbeatLiveness

/-- The address of a `worker_t`. -/
abbrev Addr := Nat

/-- `worker_t`. The table keeps it under its `idString`. -/
structure Worker where
  addr : Addr
  idString : Frame
  identity : Frame
  service : Option Frame
  expiry : Nat
deriving DecidableEq, Repr

/-- `service_t`. The table keeps it under its `name`. -/
structure Service where
  name : Frame
  requests : List Msg
  waiting : List Addr
  workerNum : Nat
deriving DecidableEq, Repr

/-- `broker_t`: its tables and its list of waiting workers. -/
structure Broker where
  services : List Service
  workers : List Worker
  waiting : List Addr
  allocated : Nat
  tick : Nat
deriving DecidableEq, Repr

/-- `s_broker_new`, which reads the clock once for `heartbeat_at`. -/
def sBrokerNew : Broker where
  services := []
  workers := []
  waiting := []
  allocated := 0
  tick := 1

/-- How a call can fail. -/
inductive Fault where
  | assertion
  | nullPointer
  | dangling
  | outOfFuel
deriving DecidableEq, Repr

/-- What the broker sends: a call of `s_worker_send` for a request, or a message
on its socket to the client named by the first frame. -/
inductive Output where
  | request (worker : Addr) (msg : Msg)
  | reply (msg : Msg)
deriving DecidableEq, Repr

namespace Broker

/-- `zhash_lookup` in the table of workers. -/
def lookup (b : Broker) (idString : Frame) : Option Worker :=
  Table.find Worker.idString idString b.workers

/-- Follow the address of a worker. -/
def deref (b : Broker) (worker : Addr) : Option Worker :=
  Table.find Worker.addr worker b.workers

/-- `worker->service`. -/
def serviceOf (b : Broker) (worker : Addr) : Option Frame :=
  (b.deref worker).bind Worker.service

/-- `zhash_lookup` in the table of services. -/
def service (b : Broker) (name : Frame) : Option Service :=
  Table.find Service.name name b.services

/-- Write to the fields of a worker. -/
def setWorker (b : Broker) (worker : Addr) (write : Worker → Worker) : Broker :=
  { b with workers := Table.update Worker.addr worker write b.workers }

/-- Write to the fields of a service. -/
def setService (b : Broker) (name : Frame) (write : Service → Service) : Broker :=
  { b with services := Table.update Service.name name write b.services }

/-- A zeroed `worker_t`, put in the table under its identity. -/
def insertWorker (b : Broker) (identity : Frame) : Broker :=
  { b with
    workers :=
      ⟨b.allocated, zframeStrhex identity, identity, none, 0⟩ :: b.workers
    allocated := b.allocated + 1 }

/-- The service of this name, created if it does not exist yet. -/
def requireService (b : Broker) (name : Frame) : Broker :=
  if (b.service name).isSome then b
  else { b with services := b.services ++ [⟨name, [], [], 0⟩] }

/-- Take the first waiting worker and the first request of a service, and the worker
off the broker's list too; `waiting` and `requests` are what is left. -/
def take (b : Broker) (name : Frame) (worker : Addr) (waiting : List Addr) (requests : List Msg) :
    Broker :=
  { b.setService name ({ · with waiting := waiting, requests := requests }) with
    waiting := b.waiting.erase worker }

/-- One more reading of the clock. -/
def read (b : Broker) : Broker := { b with tick := b.tick + 1 }

end Broker

/-- The functions on workers that the sources declare without a body. The last
one reads the clock; `now` is what it reads. -/
structure Helpers where
  sWorkerRequire : Broker → Frame → Broker × Addr
  sWorkerDelete : Broker → Addr → Bool → Broker
  sWorkerWaiting : Broker → Addr → Nat → Broker

/-- `s_service_require`: the service by name, created if it does not exist yet. -/
def sServiceRequire (b : Broker) (serviceFrame : Option Frame) : Except Fault (Broker × Frame) :=
  match serviceFrame with
  | none => .error .assertion
  | some frame =>
      let name := zframeStrdup frame
      .ok (b.requireService name, name)

section

variable (h : Helpers) (clock : Nat → Nat)

/-- The loop of `s_broker_purge`: delete the first waiting worker while it has
expired. -/
def purgeLoop : Nat → Option Addr → Broker → Except Fault Broker
  | 0, _, _ => .error .outOfFuel
  | _ + 1, none, b => .ok b
  | fuel + 1, some worker, b =>
      match b.deref worker with
      | none => .error .dangling
      | some w =>
          if w.expiry ≤ clock b.tick then
            let b := h.sWorkerDelete b.read worker false
            purgeLoop fuel b.waiting.head? b
          else .ok b.read

/-- `s_broker_purge`. Each turn of the loop takes a worker off the table. -/
def sBrokerPurge (b : Broker) : Except Fault Broker :=
  purgeLoop h clock (b.workers.length + 1) b.waiting.head? b

/-- The loop of `s_service_dispatch`: the first waiting worker of the service gets
its first request. -/
def dispatchLoop (name : Frame) : Nat → Broker → Except Fault (Broker × List (Addr × Msg))
  | 0, _ => .error .outOfFuel
  | fuel + 1, b =>
      match b.service name with
      | none => .error .nullPointer
      | some service =>
          match service.waiting, service.requests with
          | worker :: waiting, msg :: requests => do
              let b := b.take name worker waiting requests
              if (b.deref worker).isNone then .error .dangling
              let (b, sent) ← dispatchLoop name fuel b
              return (b, (worker, msg) :: sent)
          | _, _ => .ok (b, [])

/-- Queue the request, if there is one. -/
def queueRequest (b : Broker) (name : Frame) (msg : Option Msg) : Broker :=
  match msg with
  | none => b
  | some msg => b.setService name fun s => { s with requests := s.requests ++ [msg] }

/-- `s_service_dispatch`. Each turn of the loop takes a request off the queue. -/
def sServiceDispatch (b : Broker) (name : Frame) (msg : Option Msg) :
    Except Fault (Broker × List (Addr × Msg)) := do
  let b ← sBrokerPurge h clock (queueRequest b name msg)
  dispatchLoop name (((b.service name).elim 0 fun s => s.requests.length) + 1) b

/-- `s_broker_worker_msg`: process one READY, REPLY, HEARTBEAT or DISCONNECT
message sent from worker to broker. -/
def sBrokerWorkerMsg (b : Broker) (sender : Frame) (msg : Msg) :
    Except Fault (Broker × List Output) :=
  match zmsgPop msg with
  | (none, _) => .error .assertion
  | (some command, msg) =>
      let workerReady := (b.lookup (zframeStrhex sender)).isSome
      let (b, worker) := h.sWorkerRequire b sender
      if zframeStreq command mdpwReady then
        if workerReady then .ok (h.sWorkerDelete b worker true, [])
        else if startsWith sender mmi then .ok (h.sWorkerDelete b worker true, [])
        else do
          -- Attach worker to service and mark as idle
          let (b, service) ← sServiceRequire b (zmsgPop msg).1
          let b := b.setWorker worker ({ · with service := some service })
          let b := b.setService service fun s => { s with workerNum := s.workerNum + 1 }
          return (h.sWorkerWaiting b.read worker (clock b.tick), [])
      else if zframeStreq command mdpwReply then
        if workerReady then
          let (client, msg) := zmsgUnwrap msg
          match b.deref worker with
          | none => .error .dangling
          | some w =>
              match w.service, client with
              | none, _ => .error .nullPointer
              | some _, none => .error .assertion
              | some name, some client =>
                  let reply := zmsgWrap (zmsgPush (zmsgPush msg name) mdpcHeader) client
                  .ok (h.sWorkerWaiting b.read worker (clock b.tick), [.reply reply])
        else .ok (h.sWorkerDelete b worker true, [])
      else if zframeStreq command mdpwHeartbeat then
        if workerReady then
          let expiry := clock b.tick + heartbeatExpiry
          .ok (b.read.setWorker worker ({ · with expiry := expiry }), [])
        else .ok (h.sWorkerDelete b worker true, [])
      else if zframeStreq command mdpwDisconnect then
        .ok (h.sWorkerDelete b worker false, [])
      else .ok (b, [])

/-- The return code of an `mmi` request whose last frame is `asked`: `200`, `404`
or, for any service but `mmi.service`, `501`. -/
def mmiReturnCode (b : Broker) (serviceFrame asked : Frame) : Frame :=
  if zframeStreq serviceFrame mmiService then
    match b.service (zframeStrdup asked) with
    | some service => if service.workerNum ≠ 0 then [0x32, 0x30, 0x30] else [0x34, 0x30, 0x34]
    | none => [0x34, 0x30, 0x34]
  else [0x35, 0x30, 0x31]

/-- `s_broker_client_msg`: process one client message. Requests for the services
under `mmi.` are answered here. -/
def sBrokerClientMsg (b : Broker) (sender : Frame) (msg : Msg) :
    Except Fault (Broker × List Output) :=
  match zmsgPop msg with
  | (none, _) => .error .assertion
  | (some _, []) => .error .assertion
  | (some serviceFrame, msg) => do
      let (b, service) ← sServiceRequire b (some serviceFrame)
      -- Set reply return identity to sender
      let msg := zmsgWrap msg sender
      if startsWith serviceFrame mmi then
        let code := mmiReturnCode b serviceFrame (msg.getLast?.getD [])
        match zmsgUnwrap (msg.dropLast ++ [code]) with
        | (none, _) => .error .assertion
        | (some client, msg) =>
            let reply := zmsgWrap (zmsgPush (zmsgPush msg serviceFrame) mdpcHeader) client
            .ok (b, [.reply reply])
      else
        let (b, sent) ← sServiceDispatch h clock b service (some msg)
        return (b, sent.map fun (worker, msg) => .request worker msg)

end

end ZmqPractices.Majordomo
