import ZmqPractices.Peering.Prototype
import ZmqPractices.Lib.Channel
import ZmqPractices.Lib.Table
import ZmqPractices.Lib.Transition

/-!
Any number of prototype brokers that peer with each other, each with any number of
clients and workers, as one system.

A broker is named by its first argument, a client or worker by its broker and by the
identity the ROUTER there gave it. A label is one step of one party: a broker polls,
reads one message and routes it, or ends its turn; a client sends, receives or gives
up; a worker takes a task or answers it; or a message is lost on its way.
-/

namespace ZmqPractices.Peering

open Czmq Lib

/-- The brokers that are started, with what the program relies on: their names are C
strings that are neither empty nor begin like READY, and the peer lists name each other. -/
structure Cluster where
  names : List Frame
  peers : Frame → List Frame
  names_nulFree : ∀ self ∈ names, NulFree self
  names_ne_nil : ∀ self ∈ names, self ≠ []
  names_not_ready : ∀ self ∈ names, self.head? ≠ some 1
  peers_named : ∀ self ∈ names, ∀ peer ∈ peers self, peer ∈ names
  peers_symm : ∀ self ∈ names, ∀ peer ∈ peers self, self ∈ peers peer

/-- The identity a ROUTER gives to a socket without one. -/
def ZeroLed (identity : Frame) : Prop := identity.head? = some 0

instance (identity : Frame) : Decidable (ZeroLed identity) :=
  inferInstanceAs (Decidable (_ = _))

/-- The directions of the connections. The first name is the broker whose socket is
bound, or for the cloud sockets the one that receives. -/
inductive Chan where
  | toLocalfe (self client : Frame)
  | toClient (self client : Frame)
  | toLocalbe (self worker : Frame)
  | toWorker (self worker : Frame)
  | toCloudfe (self peer : Frame)
  | toCloudbe (self peer : Frame)
deriving DecidableEq, Repr

/-- A `worker_task`, with the message it is working on. -/
structure Worker where
  self : Frame
  identity : Frame
  task : Option Msg
deriving DecidableEq, Repr

def Worker.key (w : Worker) : Frame × Frame := (w.self, w.identity)

def Worker.setTask (task : Option Msg) (w : Worker) : Worker := { w with task := task }

/-- Where a broker stands in its turn, with the revents of the sockets it has still
to look at. -/
inductive Turn where
  | poll
  | reply (localbe cloudbe statefe : Bool)
  | status (statefe : Bool)
  | requests
deriving DecidableEq, Repr

/-- `status` holds the published names and capacities on their way to the `statefe`
of a broker. -/
structure State where
  broker : Frame → Broker
  turn : Frame → Turn
  client : Frame × Frame → Option Client
  workers : List Worker
  net : Net Chan Msg
  status : Net Frame (Frame × Int)

/-! ### Labels -/

inductive BrokerStep where
  | poll (localbe cloudbe statefe : Bool)
  | localbe (worker : Frame)
  | cloudbe (peer : Frame)
  | noReply
  | statefe
  | noStatus
  | localfe (client : Frame) (rand : Nat)
  | cloudfe (peer : Frame) (rand : Nat)
  | publish
deriving DecidableEq, Repr

inductive ClientStep where
  | start
  | send (rand : Nat)
  | receive
  | timeout
deriving DecidableEq, Repr

inductive WorkerStep where
  | start
  | receive
  | reply
deriving DecidableEq, Repr

inductive Label where
  | broker (self : Frame) (step : BrokerStep)
  | client (self identity : Frame) (step : ClientStep)
  | worker (self identity : Frame) (step : WorkerStep)
  | lose (packet : Nat)
  | loseStatus (packet : Nat)
deriving DecidableEq, Repr

/-! ### Steps of a broker -/

/-- A ROUTER strips the first frame and sends the rest to the socket it names. -/
def address (self : Frame) : Output → Option (Chan × Msg)
  | .localfe (client :: msg) => some (.toClient self client, msg)
  | .localbe (worker :: msg) => some (.toWorker self worker, msg)
  | .cloudfe (peer :: msg) => some (.toCloudbe peer self, msg)
  | .cloudbe (peer :: msg) => some (.toCloudfe peer self, msg)
  | _ => none

/-- Put what a broker sends into the channel it is addressed to. -/
def deliver (self : Frame) (net : Net Chan Msg) (out : Option Output) : Net Chan Msg :=
  match out.bind (address self) with
  | none => net
  | some (chan, msg) => net.send chan msg

/-- Receive from `chan`, where a ROUTER adds the frame `sender`, and route the message. -/
def State.route (s : State) (self sender : Frame) (chan : Chan) (turn : Turn)
    (f : Broker → Msg → Option (Broker × Option Output)) : Option State := do
  let (msg, net) ← Net.recv chan s.net
  let (b, out) ← f (s.broker self) (sender :: msg)
  return { s with
    broker := Function.update s.broker self b
    turn := Function.update s.turn self turn
    net := deliver self net out }

/-- `statebe` has as many subscribers as the broker has peers, all of them its own
`statefe`, which is connected to the broker's own endpoint once for each peer. -/
def publish (b : Broker) (status : Net Frame (Frame × Int)) : Net Frame (Frame × Int) :=
  if b.localCapacity = b.previousCapacity then status
  else status ++ b.peers.map fun _ => (b.self, b.self, b.localCapacity)

def brokerStep (s : State) (self : Frame) (step : BrokerStep) : Option State :=
  let b := s.broker self
  match s.turn self, step with
  | .poll, .poll localbe cloudbe statefe =>
      some { s with
        broker := Function.update s.broker self { b with previousCapacity := b.localCapacity }
        turn := Function.update s.turn self (.reply localbe cloudbe statefe) }
  | .reply true _ statefe, .localbe worker =>
      s.route self worker (.toLocalbe self worker) (.status statefe) localbeReply
  | .reply false true statefe, .cloudbe peer =>
      s.route self peer (.toCloudbe self peer) (.status statefe) cloudbeReply
  | .reply false false statefe, .noReply =>
      some { s with turn := Function.update s.turn self (.status statefe) }
  | .status true, .statefe => do
      let ((_, capacity), status) ← Net.recv self s.status
      return { s with
        broker := Function.update s.broker self { b with cloudCapacity := capacity }
        turn := Function.update s.turn self .requests
        status := status }
  | .status false, .noStatus => some { s with turn := Function.update s.turn self .requests }
  | .requests, .localfe client rand =>
      if b.localCapacity + b.cloudCapacity ≠ 0 then
        s.route self client (.toLocalfe self client) .requests (routeRequest · rand)
      else none
  | .requests, .cloudfe peer rand =>
      -- `cloudfe` is polled only while there is local capacity
      if b.localCapacity + b.cloudCapacity ≠ 0 ∧ b.localCapacity ≠ 0 then
        s.route self peer (.toCloudfe self peer) .requests (routeRequest · rand)
      else none
  | .requests, .publish =>
      some { s with
        turn := Function.update s.turn self .poll
        status := publish b s.status }
  | _, _ => none

/-! ### Steps of a client -/

def State.setClient (s : State) (key : Frame × Frame) (c : Client) : State :=
  { s with client := Function.update s.client key (some c) }

variable (build : Build) (cluster : Cluster)

def clientStep (s : State) (self identity : Frame) (step : ClientStep) : Option State :=
  match s.client (self, identity), step with
  | none, .start =>
      if self ∈ cluster.names ∧ ZeroLed identity then some (s.setClient (self, identity) .start)
      else none
  | some c, .send rand =>
      if c.phase = .idle ∧ rand ≤ 0x10000 then
        let task := taskId self rand
        match sendTask build task with
        | some string => some { s.setClient (self, identity) (c.send task) with
            net := s.net.send (.toLocalfe self identity) (reqSend [string]) }
        | none => some (s.setClient (self, identity) c.undefine)
      else none
  | some c, .receive =>
      match c.phase with
      | .waiting task =>
          (Net.recv (.toClient self identity) s.net).map fun (msg, net) =>
            match reqRecv msg with
            | some (frame :: _) =>
                { s.setClient (self, identity) (c.receive task frame) with net := net }
            | _ => { s with net := net }
      | _ => none
  | some c, .timeout =>
      match c.phase with
      | .waiting task => some (s.setClient (self, identity) { c with phase := .lost task })
      | _ => none
  | _, _ => none

/-! ### Steps of a worker -/

def State.setTask (s : State) (key : Frame × Frame) (task : Option Msg) : State :=
  { s with workers := Table.update Worker.key key (.setTask task) s.workers }

def workerStep (s : State) (self identity : Frame) (step : WorkerStep) : Option State :=
  match Table.find Worker.key (self, identity) s.workers, step with
  | none, .start =>
      if self ∈ cluster.names ∧ ZeroLed identity then
        some { s with
          workers := ⟨self, identity, none⟩ :: s.workers
          net := s.net.send (.toLocalbe self identity) (reqSend [workerReady]) }
      else none
  | some ⟨_, _, none⟩, .receive =>
      (Net.recv (.toWorker self identity) s.net).map fun (msg, net) =>
        match reqRecv msg with
        | some task => { s.setTask (self, identity) (some task) with net := net }
        | none => { s with net := net }
  | some ⟨_, _, some task⟩, .reply =>
      some { s.setTask (self, identity) none with
        net := s.net.send (.toLocalbe self identity) (reqSend task) }
  | _, _ => none

/-- The whole system. -/
def prototype : System State Label where
  start :=
    { broker := fun self => .start self (cluster.peers self)
      turn := fun _ => .poll
      client := fun _ => none
      workers := []
      net := []
      status := [] }
  step s
    | .broker self step => if self ∈ cluster.names then brokerStep s self step else none
    | .client self identity step => clientStep build cluster s self identity step
    | .worker self identity step => workerStep cluster s self identity step
    | .lose packet => some { s with net := s.net.eraseIdx packet }
    | .loseStatus packet => some { s with status := s.status.eraseIdx packet }

/-! ### What a step can do -/

/-- What a step of a broker can do to the state. -/
inductive BrokerMove (s : State) (self : Frame) : State → Prop where
  | polled (turn : Frame → Turn) :
      BrokerMove s self { s with
        broker := Function.update s.broker self
          { s.broker self with previousCapacity := (s.broker self).localCapacity }
        turn := turn }
  | localbe {s' : State} (worker : Frame) (turn : Turn)
      (taken : s.route self worker (.toLocalbe self worker) turn localbeReply = some s') :
      BrokerMove s self s'
  | cloudbe {s' : State} (peer : Frame) (turn : Turn)
      (taken : s.route self peer (.toCloudbe self peer) turn cloudbeReply = some s') :
      BrokerMove s self s'
  | learnt (name : Frame) (capacity : Int) (status : Net Frame (Frame × Int)) (turn : Frame → Turn)
      (received : Net.recv self s.status = some ((name, capacity), status)) :
      BrokerMove s self { s with
        broker := Function.update s.broker self { s.broker self with cloudCapacity := capacity }
        turn := turn
        status := status }
  | localfe {s' : State} (client : Frame) (rand : Nat) (turn : Turn)
      (taken : s.route self client (.toLocalfe self client) turn (routeRequest · rand) = some s') :
      BrokerMove s self s'
  | cloudfe {s' : State} (peer : Frame) (rand : Nat) (turn : Turn)
      (capacity : (s.broker self).localCapacity ≠ 0)
      (taken : s.route self peer (.toCloudfe self peer) turn (routeRequest · rand) = some s') :
      BrokerMove s self s'
  | turned (turn : Frame → Turn) : BrokerMove s self { s with turn := turn }
  | published (turn : Frame → Turn) :
      BrokerMove s self { s with turn := turn, status := publish (s.broker self) s.status }

section Cases

variable {build : Build} {cluster : Cluster} {s s' : State} {self identity : Frame}

theorem brokerStep_move {step : BrokerStep}
    (taken : brokerStep s self step = some s') : BrokerMove s self s' := by
  simp only [brokerStep] at taken
  split at taken
  · obtain rfl := Option.some.inj taken
    exact .polled _
  · exact .localbe _ _ taken
  · exact .cloudbe _ _ taken
  · obtain rfl := Option.some.inj taken
    exact .turned _
  · obtain ⟨⟨⟨name, capacity⟩, status⟩, received, taken⟩ := Option.bind_eq_some_iff.mp taken
    obtain rfl := Option.some.inj taken
    exact .learnt name capacity status _ received
  · obtain rfl := Option.some.inj taken
    exact .turned _
  · split at taken
    · exact .localfe _ _ _ taken
    · cases taken
  · split at taken
    · rename_i capacity
      exact .cloudfe _ _ _ capacity.2 taken
    · cases taken
  · obtain rfl := Option.some.inj taken
    exact .published _
  · cases taken

theorem route_cases {sender : Frame} {chan : Chan} {turn : Turn}
    {f : Broker → Msg → Option (Broker × Option Output)}
    (taken : s.route self sender chan turn f = some s') :
    ∃ msg net b out, Net.recv chan s.net = some (msg, net) ∧
      f (s.broker self) (sender :: msg) = some (b, out) ∧
      s' = { s with
        broker := Function.update s.broker self b
        turn := Function.update s.turn self turn
        net := deliver self net out } := by
  obtain ⟨⟨msg, net⟩, received, taken⟩ := Option.bind_eq_some_iff.mp taken
  obtain ⟨⟨b, out⟩, done, taken⟩ := Option.bind_eq_some_iff.mp taken
  exact ⟨msg, net, b, out, received, done, (Option.some.inj taken).symm⟩

theorem clientStep_cases {step : ClientStep}
    (taken : clientStep build cluster s self identity step = some s') :
    (step = .start ∧ s.client (self, identity) = none ∧ self ∈ cluster.names ∧
      ZeroLed identity ∧ s' = s.setClient (self, identity) .start) ∨
    (∃ c rand string, step = .send rand ∧ s.client (self, identity) = some c ∧
      c.phase = .idle ∧ sendTask build (taskId self rand) = some string ∧
      s' = { s.setClient (self, identity) (c.send (taskId self rand)) with
        net := s.net.send (.toLocalfe self identity) (reqSend [string]) }) ∨
    (∃ c rand, step = .send rand ∧ s.client (self, identity) = some c ∧ c.phase = .idle ∧
      sendTask build (taskId self rand) = none ∧
      s' = s.setClient (self, identity) c.undefine) ∨
    (∃ c task msg net, step = .receive ∧ s.client (self, identity) = some c ∧
      c.phase = .waiting task ∧ Net.recv (.toClient self identity) s.net = some (msg, net) ∧
      s' = match reqRecv msg with
        | some (frame :: _) =>
            { s.setClient (self, identity) (c.receive task frame) with net := net }
        | _ => { s with net := net }) ∨
    (∃ c task, step = .timeout ∧ s.client (self, identity) = some c ∧ c.phase = .waiting task ∧
      s' = s.setClient (self, identity) { c with phase := .lost task }) := by
  cases found : s.client (self, identity) with
  | none =>
      cases step with
      | start =>
          simp only [clientStep, found] at taken
          split at taken
          · rename_i allowed
            exact .inl ⟨rfl, rfl, allowed.1, allowed.2, (Option.some.inj taken).symm⟩
          · cases taken
      | _ => simp [clientStep, found] at taken
  | some c =>
      cases step with
      | start => simp [clientStep, found] at taken
      | send rand =>
          simp only [clientStep, found] at taken
          split at taken
          · rename_i allowed
            split at taken
            · rename_i string sent
              exact .inr (.inl
                ⟨c, rand, string, rfl, rfl, allowed.1, sent, (Option.some.inj taken).symm⟩)
            · rename_i undefined
              exact .inr (.inr (.inl
                ⟨c, rand, rfl, rfl, allowed.1, undefined, (Option.some.inj taken).symm⟩))
          · cases taken
      | receive =>
          simp only [clientStep, found] at taken
          split at taken
          · rename_i task waiting
            obtain ⟨⟨msg, net⟩, received, taken⟩ := Option.map_eq_some_iff.mp taken
            exact .inr (.inr (.inr (.inl
              ⟨c, task, msg, net, rfl, rfl, waiting, received, taken.symm⟩)))
          · cases taken
      | timeout =>
          simp only [clientStep, found] at taken
          split at taken
          · rename_i task waiting
            exact .inr (.inr (.inr (.inr
              ⟨c, task, rfl, rfl, waiting, (Option.some.inj taken).symm⟩)))
          · cases taken

theorem workerStep_cases {step : WorkerStep}
    (taken : workerStep cluster s self identity step = some s') :
    (Table.find Worker.key (self, identity) s.workers = none ∧
      s' = { s with
        workers := ⟨self, identity, none⟩ :: s.workers
        net := s.net.send (.toLocalbe self identity) (reqSend [workerReady]) }) ∨
    (∃ msg net, Table.find Worker.key (self, identity) s.workers = some ⟨self, identity, none⟩ ∧
      Net.recv (.toWorker self identity) s.net = some (msg, net) ∧
      s' = match reqRecv msg with
        | some task => { s.setTask (self, identity) (some task) with net := net }
        | none => { s with net := net }) ∨
    (∃ task, Table.find Worker.key (self, identity) s.workers = some ⟨self, identity, some task⟩ ∧
      s' = { s.setTask (self, identity) none with
        net := s.net.send (.toLocalbe self identity) (reqSend task) }) := by
  cases found : Table.find Worker.key (self, identity) s.workers with
  | none =>
      cases step with
      | start =>
          simp only [workerStep, found] at taken
          split at taken
          · exact .inl ⟨rfl, (Option.some.inj taken).symm⟩
          · cases taken
      | _ => simp [workerStep, found] at taken
  | some w =>
      obtain ⟨self', identity', task⟩ := w
      have key := Table.key_of_find found
      rw [Worker.key, Prod.mk.injEq] at key
      obtain ⟨rfl, rfl⟩ := key
      cases step with
      | start => simp [workerStep, found] at taken
      | receive =>
          cases task with
          | none =>
              simp only [workerStep, found, Option.map_eq_some_iff] at taken
              obtain ⟨⟨msg, net⟩, received, taken⟩ := taken
              exact .inr (.inl ⟨msg, net, rfl, received, taken.symm⟩)
          | some task => simp [workerStep, found] at taken
      | reply =>
          cases task with
          | none => simp [workerStep, found] at taken
          | some task =>
              simp only [workerStep, found, Option.some.injEq] at taken
              exact .inr (.inr ⟨task, rfl, taken.symm⟩)

/-- A client does nothing to the brokers, and a worker neither. -/
theorem clientStep_kept {step : ClientStep}
    (taken : clientStep build cluster s self identity step = some s') :
    s'.broker = s.broker ∧ s'.turn = s.turn ∧ s'.status = s.status := by
  rcases clientStep_cases taken with ⟨_, _, _, _, rfl⟩ | ⟨_, _, _, _, _, _, _, rfl⟩ |
    ⟨_, _, _, _, _, _, rfl⟩ | ⟨_, _, msg, _, _, _, _, _, rfl⟩ | ⟨_, _, _, _, _, rfl⟩
  · exact ⟨rfl, rfl, rfl⟩
  · exact ⟨rfl, rfl, rfl⟩
  · exact ⟨rfl, rfl, rfl⟩
  · split
    · exact ⟨rfl, rfl, rfl⟩
    · exact ⟨rfl, rfl, rfl⟩
  · exact ⟨rfl, rfl, rfl⟩

theorem workerStep_kept {step : WorkerStep}
    (taken : workerStep cluster s self identity step = some s') :
    s'.broker = s.broker ∧ s'.turn = s.turn ∧ s'.status = s.status := by
  rcases workerStep_cases taken with ⟨_, rfl⟩ | ⟨msg, _, _, _, rfl⟩ | ⟨_, _, rfl⟩
  · exact ⟨rfl, rfl, rfl⟩
  · split
    · exact ⟨rfl, rfl, rfl⟩
    · exact ⟨rfl, rfl, rfl⟩
  · exact ⟨rfl, rfl, rfl⟩

end Cases

end ZmqPractices.Peering
