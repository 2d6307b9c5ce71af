import ZmqPractices.Lib.Printed
import ZmqPractices.Lib.Weight
import ZmqPractices.Peering.Envelopes

/-!
The task flow prototype (`task_flow.cpp`): any number of brokers that peer with each
other, each with any number of clients and workers, as one system.

A broker reads at most one reply in a turn, and then as many requests as it has workers
for. It sends a client's request at random to one of its workers or to a peer, and a peer's
request to one of its workers. A broker is named by its first argument, a client or worker
by its broker and by the identity the ROUTER there gave it. A label is one step of one
party; `none` is a call the C++ code cannot survive, or one that blocks.
-/

namespace ZmqPractices.TaskFlow

open Czmq Lib
open Peering (Cluster Chan Output ZeroLed address deliver reqSend reqRecv workerReady routeReply)

/-! ### The broker -/

/-- The variables of `main`; `self` and `peers` are its arguments. -/
structure Broker where
  self : Frame
  peers : List Frame
  capacity : Int
  workers : ZList Frame
deriving DecidableEq, Repr

/-- The state in which `main` enters its loop. -/
def Broker.start (self : Frame) (peers : List Frame) : Broker where
  self := self
  peers := peers
  capacity := 0
  workers := .new

/-- A message from a local worker, which is available from now on, and what of it is left
to route: READY goes no further. -/
def localbeReply (b : Broker) (msg : Msg) : Option (Broker × Option Msg) :=
  match zmsgUnwrap msg with
  | (none, _) => none
  | (some identity, msg) =>
      (memcmpData (zmsgFirst msg) workerReady).map fun ready =>
        ({ b with workers := b.workers.append identity, capacity := b.capacity + 1 },
          if ready then none else some msg)

/-- A message read on `localbe`, routed to a peer or a client. -/
def routeLocalbe (b : Broker) (msg : Msg) : Option (Broker × Option Output) := do
  let (b, rest) ← localbeReply b msg
  match rest with
  | none => return (b, none)
  | some msg => (routeReply b.peers msg).map fun out => (b, some out)

/-- A message read on `cloudbe`: the identity of the peer is not used for anything. -/
def routeCloudbe (b : Broker) (msg : Msg) : Option (Broker × Option Output) :=
  (routeReply b.peers (zmsgUnwrap msg).2).map fun out => (b, some out)

/-- A request: to the peer at `pick % (argc - 2)` if it is reroutable, there is a peer and
`rand % 5` is zero, and otherwise to the worker that has been available longest. -/
def routeRequest (b : Broker) (reroutable : Bool) (rand pick : Nat) (msg : Msg) :
    Option (Broker × Option Output) :=
  if reroutable ∧ b.peers ≠ [] ∧ rand % 5 = 0 then
    b.peers[pick % b.peers.length]?.map fun peer => (b, some (.cloudbe (zmsgPush msg peer)))
  else
    match b.workers.pop with
    | (none, _) => none
    | (some worker, workers) =>
        some ({ b with workers := workers, capacity := b.capacity - 1 },
          some (.localbe (zmsgWrap msg worker)))

/-! ### Clients and workers -/

/-- `zstr_sendf (client, "%s:%08x hello", self, client)`. -/
def requestText (self : Frame) (client : Nat) : Frame :=
  self ++ 0x3a :: padded 8 16 client ++ [0x20, 0x68, 0x65, 0x6c, 0x6c, 0x6f]

/-- `sprintf (buf, "%s:%08x ok", self, worker)`. -/
def answerText (self : Frame) (worker : Nat) : Frame :=
  self ++ 0x3a :: padded 8 16 worker ++ [0x20, 0x6f, 0x6b]

/-- A `client_task`. `socket` is what `%08x` prints of its socket's address; `sent` counts
its requests and `replies` are what it got, for the statements only. -/
structure Client where
  self : Frame
  identity : Frame
  socket : Nat
  waiting : Bool
  sent : Nat
  replies : List Frame
deriving DecidableEq, Repr

def Client.key (c : Client) : Frame × Frame := (c.self, c.identity)

def Client.send (c : Client) : Client := { c with waiting := true, sent := c.sent + 1 }

/-- `zstr_recv`. -/
def Client.receive (frame : Frame) (c : Client) : Client :=
  { c with waiting := false, replies := c.replies ++ [zframeStrdup frame] }

/-- A `worker_task`, with the message it is working on. -/
structure Worker where
  self : Frame
  identity : Frame
  socket : Nat
  task : Option Msg
deriving DecidableEq, Repr

def Worker.key (w : Worker) : Frame × Frame := (w.self, w.identity)

def Worker.setTask (task : Option Msg) (w : Worker) : Worker := { w with task := task }

/-- The answer to a request: its last frame becomes what was printed into `buf[32]`. -/
def Worker.answer (w : Worker) (task : Msg) : Option Msg :=
  if task ≠ [] ∧ (answerText w.self w.socket).length < 32 then
    some (task.dropLast ++ [answerText w.self w.socket])
  else none

/-! ### The system -/

/-- Whether a broker is about to poll its backends or its frontends. -/
inductive Turn where
  | backends
  | frontends
deriving DecidableEq, Repr

/-- The parties with the messages on their way and, for the statements only, those that
were lost. -/
structure State where
  broker : Frame → Broker
  turn : Frame → Turn
  clients : List Client
  workers : List Worker
  net : Net Chan Msg
  lost : Net Chan Msg

inductive BrokerStep where
  | localbe (worker : Frame)
  | cloudbe (peer : Frame)
  | timeout
  | cloudfe (peer : Frame)
  | localfe (client : Frame) (rand pick : Nat)
  | done
deriving DecidableEq, Repr

inductive ClientStep where
  | start (socket : Nat)
  | send
  | receive
deriving DecidableEq, Repr

inductive WorkerStep where
  | start (socket : Nat)
  | receive
  | reply
deriving DecidableEq, Repr

inductive Label where
  | broker (self : Frame) (step : BrokerStep)
  | client (self identity : Frame) (step : ClientStep)
  | worker (self identity : Frame) (step : WorkerStep)
  | lose (packet : Nat)
deriving DecidableEq, Repr

def State.setTurn (s : State) (self : Frame) (turn : Turn) : State :=
  { s with turn := Function.update s.turn self turn }

def State.setClient (s : State) (key : Frame × Frame) (write : Client → Client) : State :=
  { s with clients := Table.update Client.key key write s.clients }

def State.setTask (s : State) (key : Frame × Frame) (task : Option Msg) : State :=
  { s with workers := Table.update Worker.key key (.setTask task) s.workers }

/-- A broker has routed a message. -/
def State.routed (s : State) (self : Frame) (b : Broker) (net : Net Chan Msg) : State :=
  { s with
    broker := Function.update s.broker self b
    turn := Function.update s.turn self .frontends
    net := net }

@[simp] theorem State.routed_self (s : State) (self : Frame) (b : Broker) (net : Net Chan Msg) :
    (s.routed self b net).broker self = b :=
  Function.update_self ..

theorem State.routed_ne {self other : Frame} (here : other ≠ self) (s : State) (b : Broker)
    (net : Net Chan Msg) : (s.routed self b net).broker other = s.broker other :=
  Function.update_of_ne here ..

/-- Receive from `chan`, where a ROUTER adds the frame `sender`, and route the message. -/
def State.route (s : State) (self sender : Frame) (chan : Chan)
    (f : Broker → Msg → Option (Broker × Option Output)) : Option State := do
  let (msg, net) ← Net.recv chan s.net
  let (b, out) ← f (s.broker self) (sender :: msg)
  return s.routed self b (deliver self net out)

/-- The backends are polled without a timeout when there is no worker available, and the
frontends only when there is one. -/
def brokerStep (s : State) (self : Frame) (step : BrokerStep) : Option State :=
  match s.turn self, step with
  | .backends, .localbe worker => s.route self worker (.toLocalbe self worker) routeLocalbe
  | .backends, .cloudbe peer => s.route self peer (.toCloudbe self peer) routeCloudbe
  | .backends, .timeout =>
      if (s.broker self).capacity ≠ 0 then some (s.setTurn self .frontends) else none
  | .frontends, .cloudfe peer =>
      if (s.broker self).capacity ≠ 0 then
        s.route self peer (.toCloudfe self peer) (routeRequest · false 0 0)
      else none
  | .frontends, .localfe client rand pick =>
      if (s.broker self).capacity ≠ 0 then
        s.route self client (.toLocalfe self client) (routeRequest · true rand pick)
      else none
  | .frontends, .done => some (s.setTurn self .backends)
  | _, _ => none

variable (cluster : Cluster)

def clientStep (s : State) (self identity : Frame) (step : ClientStep) : Option State :=
  match Table.find Client.key (self, identity) s.clients, step with
  | none, .start socket =>
      if self ∈ cluster.names ∧ ZeroLed identity ∧ socket < 2 ^ 32 then
        some { s with clients := ⟨self, identity, socket, false, 0, []⟩ :: s.clients }
      else none
  | some c, .send =>
      if c.waiting then none
      else some { s.setClient (self, identity) .send with
        net := s.net.send (.toLocalfe self identity) (reqSend [requestText self c.socket]) }
  | some c, .receive =>
      if c.waiting then
        (Net.recv (.toClient self identity) s.net).map fun (msg, net) =>
          match reqRecv msg with
          | some (frame :: _) => { s.setClient (self, identity) (.receive frame) with net := net }
          | _ => { s with net := net }
      else none
  | _, _ => none

def workerStep (s : State) (self identity : Frame) (step : WorkerStep) : Option State :=
  match Table.find Worker.key (self, identity) s.workers, step with
  | none, .start socket =>
      if self ∈ cluster.names ∧ socket < 2 ^ 32 then
        some { s with
          workers := ⟨self, identity, socket, none⟩ :: s.workers
          net := s.net.send (.toLocalbe self identity) (reqSend [workerReady]) }
      else none
  | some ⟨_, _, _, none⟩, .receive =>
      (Net.recv (.toWorker self identity) s.net).map fun (msg, net) =>
        match reqRecv msg with
        | some task => { s.setTask (self, identity) (some task) with net := net }
        | none => { s with net := net }
  | some ⟨_, _, socket, some task⟩, .reply =>
      (Worker.answer ⟨self, identity, socket, some task⟩ task).map fun answer =>
        { s.setTask (self, identity) none with
          net := s.net.send (.toLocalbe self identity) (reqSend answer) }
  | _, _ => none

/-- The brokers before their first client and worker. -/
def taskFlow : System State Label where
  start := ⟨fun self => .start self (cluster.peers self), fun _ => .backends, [], [], [], []⟩
  step s
    | .broker self step => if self ∈ cluster.names then brokerStep s self step else none
    | .client self identity step => clientStep cluster s self identity step
    | .worker self identity step => workerStep cluster s self identity step
    | .lose packet =>
        s.net[packet]?.map fun p => { s with net := s.net.eraseIdx packet, lost := p :: s.lost }

/-! ### What a step is -/

variable {cluster}

/-- What each step needs and where it leads. -/
inductive Stepped (cluster : Cluster) (s : State) : Label → State → Prop
  | localbe {self worker : Frame} {msg : Msg} {net : Net Chan Msg} {b : Broker}
      {out : Option Output} (named : self ∈ cluster.names)
      (received : Net.recv (.toLocalbe self worker) s.net = some (msg, net))
      (done : routeLocalbe (s.broker self) (worker :: msg) = some (b, out)) :
      Stepped cluster s (.broker self (.localbe worker)) (s.routed self b (deliver self net out))
  | cloudbe {self peer : Frame} {msg : Msg} {net : Net Chan Msg} {b : Broker}
      {out : Option Output} (named : self ∈ cluster.names)
      (received : Net.recv (.toCloudbe self peer) s.net = some (msg, net))
      (done : routeCloudbe (s.broker self) (peer :: msg) = some (b, out)) :
      Stepped cluster s (.broker self (.cloudbe peer)) (s.routed self b (deliver self net out))
  | timeout {self : Frame} : Stepped cluster s (.broker self .timeout) (s.setTurn self .frontends)
  | cloudfe {self peer : Frame} {msg : Msg} {net : Net Chan Msg} {b : Broker}
      {out : Option Output} (named : self ∈ cluster.names)
      (room : (s.broker self).capacity ≠ 0)
      (received : Net.recv (.toCloudfe self peer) s.net = some (msg, net))
      (done : routeRequest (s.broker self) false 0 0 (peer :: msg) = some (b, out)) :
      Stepped cluster s (.broker self (.cloudfe peer)) (s.routed self b (deliver self net out))
  | localfe {self client : Frame} {rand pick : Nat} {msg : Msg} {net : Net Chan Msg} {b : Broker}
      {out : Option Output} (named : self ∈ cluster.names)
      (room : (s.broker self).capacity ≠ 0)
      (received : Net.recv (.toLocalfe self client) s.net = some (msg, net))
      (done : routeRequest (s.broker self) true rand pick (client :: msg) = some (b, out)) :
      Stepped cluster s (.broker self (.localfe client rand pick))
        (s.routed self b (deliver self net out))
  | done {self : Frame} : Stepped cluster s (.broker self .done) (s.setTurn self .backends)
  | clientStart {self identity : Frame} {socket : Nat}
      (missing : Table.find Client.key (self, identity) s.clients = none)
      (named : self ∈ cluster.names) (zeroLed : ZeroLed identity) :
      Stepped cluster s (.client self identity (.start socket))
        { s with clients := ⟨self, identity, socket, false, 0, []⟩ :: s.clients }
  | send {self identity : Frame} {c : Client}
      (found : Table.find Client.key (self, identity) s.clients = some c)
      (idle : c.waiting = false) :
      Stepped cluster s (.client self identity .send)
        { s.setClient (self, identity) .send with
          net := s.net.send (.toLocalfe self identity) (reqSend [requestText self c.socket]) }
  | clientReceive {self identity : Frame} {c : Client} {msg : Msg} {net : Net Chan Msg}
      (found : Table.find Client.key (self, identity) s.clients = some c)
      (waiting : c.waiting = true)
      (received : Net.recv (.toClient self identity) s.net = some (msg, net)) :
      Stepped cluster s (.client self identity .receive) (match reqRecv msg with
        | some (frame :: _) => { s.setClient (self, identity) (.receive frame) with net := net }
        | _ => { s with net := net })
  | workerStart {self identity : Frame} {socket : Nat}
      (missing : Table.find Worker.key (self, identity) s.workers = none)
      (named : self ∈ cluster.names) (bound : socket < 2 ^ 32) :
      Stepped cluster s (.worker self identity (.start socket)) { s with
        workers := ⟨self, identity, socket, none⟩ :: s.workers
        net := s.net.send (.toLocalbe self identity) (reqSend [workerReady]) }
  | workerReceive {self identity : Frame} {socket : Nat} {msg : Msg} {net : Net Chan Msg}
      (found : Table.find Worker.key (self, identity) s.workers =
        some ⟨self, identity, socket, none⟩)
      (received : Net.recv (.toWorker self identity) s.net = some (msg, net)) :
      Stepped cluster s (.worker self identity .receive) (match reqRecv msg with
        | some task => { s.setTask (self, identity) (some task) with net := net }
        | none => { s with net := net })
  | reply {self identity : Frame} {socket : Nat} {task answer : Msg}
      (found : Table.find Worker.key (self, identity) s.workers =
        some ⟨self, identity, socket, some task⟩)
      (written : Worker.answer ⟨self, identity, socket, some task⟩ task = some answer) :
      Stepped cluster s (.worker self identity .reply)
        { s.setTask (self, identity) none with
          net := s.net.send (.toLocalbe self identity) (reqSend answer) }
  | lose {packet : Nat} {p : Chan × Msg} (found : s.net[packet]? = some p) :
      Stepped cluster s (.lose packet)
        { s with net := s.net.eraseIdx packet, lost := p :: s.lost }

section Cases

variable {s s' : State} {self identity : Frame}

theorem route_cases {sender : Frame} {chan : Chan}
    {f : Broker → Msg → Option (Broker × Option Output)}
    (taken : s.route self sender chan f = some s') :
    ∃ msg net b out, Net.recv chan s.net = some (msg, net) ∧
      f (s.broker self) (sender :: msg) = some (b, out) ∧
      s' = s.routed self b (deliver self net out) := by
  obtain ⟨⟨msg, net⟩, received, taken⟩ := Option.bind_eq_some_iff.mp taken
  obtain ⟨⟨b, out⟩, done, taken⟩ := Option.bind_eq_some_iff.mp taken
  exact ⟨msg, net, b, out, received, done, (Option.some.inj taken).symm⟩

theorem brokerStep_stepped {step : BrokerStep} (named : self ∈ cluster.names)
    (taken : brokerStep s self step = some s') : Stepped cluster s (.broker self step) s' := by
  simp only [brokerStep] at taken
  split at taken
  · obtain ⟨msg, net, b, out, received, done, rfl⟩ := route_cases taken
    exact .localbe named received done
  · obtain ⟨msg, net, b, out, received, done, rfl⟩ := route_cases taken
    exact .cloudbe named received done
  · obtain ⟨-, taken⟩ := Option.ite_none_right_eq_some.mp taken
    obtain rfl := Option.some.inj taken
    exact .timeout
  · obtain ⟨room, taken⟩ := Option.ite_none_right_eq_some.mp taken
    obtain ⟨msg, net, b, out, received, done, rfl⟩ := route_cases taken
    exact .cloudfe named room received done
  · obtain ⟨room, taken⟩ := Option.ite_none_right_eq_some.mp taken
    obtain ⟨msg, net, b, out, received, done, rfl⟩ := route_cases taken
    exact .localfe named room received done
  · obtain rfl := Option.some.inj taken
    exact .done
  · cases taken

theorem clientStep_stepped {step : ClientStep}
    (taken : clientStep cluster s self identity step = some s') :
    Stepped cluster s (.client self identity step) s' := by
  simp only [clientStep] at taken
  split at taken
  · rename_i missing
    obtain ⟨⟨named, zeroLed, -⟩, taken⟩ := Option.ite_none_right_eq_some.mp taken
    obtain rfl := Option.some.inj taken
    exact .clientStart missing named zeroLed
  · rename_i found
    obtain ⟨idle, taken⟩ := Option.ite_none_left_eq_some.mp taken
    obtain rfl := Option.some.inj taken
    exact .send found (Bool.eq_false_iff.mpr idle)
  · rename_i found
    obtain ⟨waiting, taken⟩ := Option.ite_none_right_eq_some.mp taken
    obtain ⟨⟨msg, net⟩, received, rfl⟩ := Option.map_eq_some_iff.mp taken
    exact .clientReceive found waiting received
  · cases taken

/-- What is found under a key has its parts. -/
theorem client_of_find {c : Client}
    (found : Table.find Client.key (self, identity) s.clients = some c) :
    c.self = self ∧ c.identity = identity := by
  have key : c.key = (self, identity) := Table.key_of_find found
  exact Prod.mk.inj key

theorem worker_of_find {w : Worker}
    (found : Table.find Worker.key (self, identity) s.workers = some w) :
    w.self = self ∧ w.identity = identity := by
  have key : w.key = (self, identity) := Table.key_of_find found
  exact Prod.mk.inj key

theorem workerStep_stepped {step : WorkerStep}
    (taken : workerStep cluster s self identity step = some s') :
    Stepped cluster s (.worker self identity step) s' := by
  simp only [workerStep] at taken
  split at taken
  · rename_i missing
    obtain ⟨⟨named, bound⟩, taken⟩ := Option.ite_none_right_eq_some.mp taken
    obtain rfl := Option.some.inj taken
    exact .workerStart missing named bound
  · rename_i found
    obtain ⟨rfl, rfl⟩ := worker_of_find found
    obtain ⟨⟨msg, net⟩, received, rfl⟩ := Option.map_eq_some_iff.mp taken
    exact .workerReceive found received
  · rename_i found
    obtain ⟨rfl, rfl⟩ := worker_of_find found
    obtain ⟨answer, written, rfl⟩ := Option.map_eq_some_iff.mp taken
    exact .reply found written
  · cases taken

theorem step_stepped {l : Label} (taken : (taskFlow cluster).step s l = some s') :
    Stepped cluster s l s' := by
  cases l with
  | broker self step =>
      obtain ⟨named, taken⟩ := Option.ite_none_right_eq_some.mp taken
      exact brokerStep_stepped named taken
  | client self identity step => exact clientStep_stepped taken
  | worker self identity step => exact workerStep_stepped taken
  | lose packet =>
      obtain ⟨p, found, rfl⟩ := Option.map_eq_some_iff.mp taken
      exact .lose found

end Cases

end ZmqPractices.TaskFlow
