import ZmqPractices.SimplePirate.Queue
import ZmqPractices.LazyPirate.Relay
import ZmqPractices.Lib.Table

/-!
The Simple Pirate pattern as one system: Lazy Pirate clients (`lpclient.cpp`), the queue
(`spqueue.cpp`) and any number of workers (`spworker.cpp`).

A worker says that it is ready, and then takes a request, sends it back as it is and takes
the next; after three of them it may crash over one, and it may be interrupted while it
waits. The steps of all parties come in any
order, and any message may be lost.
-/

namespace ZmqPractices.SimplePirate

open Czmq Lib
open LazyPirate (Sent Front FrontStep frontStep requestOf)
open Peering (reqSend reqRecv)

/-! ### The worker -/

inductive WorkerPhase where
  | waiting
  | working (msg : Msg)
  | crashed
  | interrupted
deriving DecidableEq, Repr

/-- The variables of the worker's `main`. -/
structure Worker where
  identity : Frame
  phase : WorkerPhase
  cycles : Nat
deriving DecidableEq, Repr

def Worker.start (identity : Frame) : Worker := ⟨identity, .waiting, 0⟩

/-- A request. After three cycles a crash may be simulated; `crash` is the outcome of
`randof (5) == 0`. -/
def Worker.receive (msg : Msg) (crash : Bool) (w : Worker) : Worker :=
  let w := { w with cycles := w.cycles + 1 }
  if 3 < w.cycles ∧ crash then { w with phase := .crashed } else { w with phase := .working msg }

/-- The reply is on its way. -/
def Worker.reply (w : Worker) : Worker := { w with phase := .waiting }

/-- `zmsg_recv` gave nothing. -/
def Worker.interrupt (w : Worker) : Worker := { w with phase := .interrupted }

/-! ### The system -/

/-- The two directions of a worker's connection. -/
inductive Chan where
  | toBackend (worker : Frame)
  | toWorker (worker : Frame)
deriving DecidableEq, Repr

/-- The clients with their connections, the queue, the workers, the messages on their way
between these and, for the statements only, the requests that workers have sent back, newest
first. -/
structure State (Name : Type) where
  front : Front Name
  queue : Queue
  workers : List Worker
  net : Net Chan Msg
  served : List Sent

inductive WorkerStep where
  | start
  | receive (crash : Bool)
  | reply
  | interrupt
deriving DecidableEq, Repr

/-- A step of the clients or of their connections, a step of a worker, a turn of the queue with
a message of this worker or socket, or the loss of a message. -/
inductive Label (Name : Type) where
  | front (step : FrontStep Name)
  | worker (identity : Frame) (step : WorkerStep)
  | backend (worker : Frame)
  | frontend (socket : Frame)
  | lose (packet : Nat)

variable {Name : Type}

/-- A ROUTER strips the first frame and sends the rest to the socket it names. -/
def State.send (s : State Name) : Option Output → State Name
  | some (.backend (worker :: msg)) => { s with net := s.net.send (.toWorker worker) msg }
  | some (.frontend (socket :: msg)) => { s with front := s.front.give socket msg }
  | _ => s

def State.setWorker (s : State Name) (identity : Frame) (write : Worker → Worker) : State Name :=
  { s with workers := Table.update Worker.identity identity write s.workers }

def workerStep (s : State Name) (identity : Frame) (step : WorkerStep) : Option (State Name) :=
  match Table.find Worker.identity identity s.workers, step with
  -- a ROUTER takes one connection of each identity
  | none, .start => some { s with
      workers := .start identity :: s.workers
      net := s.net.send (.toBackend identity) (reqSend [workerReady]) }
  | some ⟨_, .waiting, _⟩, .receive crash =>
      (Net.recv (.toWorker identity) s.net).map fun (msg, net) =>
        match reqRecv msg with
        | some msg => { s.setWorker identity (.receive msg crash) with net := net }
        | none => { s with net := net }
  | some ⟨_, .working msg, _⟩, .reply => some { s.setWorker identity .reply with
      net := s.net.send (.toBackend identity) (reqSend msg)
      served := (requestOf msg).toList ++ s.served }
  | some ⟨_, .waiting, _⟩, .interrupt => some (s.setWorker identity .interrupt)
  | _, _ => none

def step [DecidableEq Name] (s : State Name) : Label Name → Option (State Name)
  | .front step => (frontStep s.front step).map fun front => { s with front := front }
  | .worker identity step => workerStep s identity step
  | .backend worker => do
      let (msg, net) ← Net.recv (.toBackend worker) s.net
      let (queue, out) ← turn s.queue (.backend (worker :: msg))
      return { s with queue := queue, net := net }.send out
  | .frontend socket => do
      let (msg, front) ← s.front.take socket
      let (queue, out) ← turn s.queue (.frontend (socket :: msg))
      return { s with front := front, queue := queue }.send out
  | .lose packet => some { s with net := s.net.eraseIdx packet }

/-- The clients, the queue and the workers from their start. -/
def simplePirate (Name : Type) [DecidableEq Name] : System (State Name) (Label Name) where
  start := ⟨.start, .start, [], [], []⟩
  step := step

/-! ### What the steps of a worker are -/

theorem workerStep_cases {s s' : State Name} {identity : Frame} {step : WorkerStep}
    (taken : workerStep s identity step = some s') :
    (Table.find Worker.identity identity s.workers = none ∧
      s' = { s with
        workers := .start identity :: s.workers
        net := s.net.send (.toBackend identity) (reqSend [workerReady]) }) ∨
    (∃ w msg net crash, Table.find Worker.identity identity s.workers = some w ∧
      w.phase = .waiting ∧ Net.recv (.toWorker identity) s.net = some (msg, net) ∧
      s' = match reqRecv msg with
        | some msg => { s.setWorker identity (.receive msg crash) with net := net }
        | none => { s with net := net }) ∨
    (∃ w msg, Table.find Worker.identity identity s.workers = some w ∧ w.phase = .working msg ∧
      s' = { s.setWorker identity .reply with
        net := s.net.send (.toBackend identity) (reqSend msg)
        served := (requestOf msg).toList ++ s.served }) ∨
    (∃ w, Table.find Worker.identity identity s.workers = some w ∧ w.phase = .waiting ∧
      s' = s.setWorker identity .interrupt) := by
  unfold workerStep at taken
  split at taken
  · rename_i missing
    exact .inl ⟨missing, (Option.some.inj taken).symm⟩
  · rename_i crash found
    obtain ⟨⟨msg, net⟩, received, same⟩ := Option.map_eq_some_iff.mp taken
    exact .inr (.inl ⟨_, msg, net, crash, found, rfl, received, same.symm⟩)
  · rename_i msg _ found
    exact .inr (.inr (.inl ⟨_, msg, found, rfl, (Option.some.inj taken).symm⟩))
  · rename_i found
    exact .inr (.inr (.inr ⟨_, found, rfl, (Option.some.inj taken).symm⟩))
  · cases taken

theorem backend_cases [DecidableEq Name] {s s' : State Name} {worker : Frame}
    (taken : step s (.backend worker) = some s') :
    ∃ msg net queue out, Net.recv (.toBackend worker) s.net = some (msg, net) ∧
      turn s.queue (.backend (worker :: msg)) = some (queue, out) ∧
      s' = { s with queue := queue, net := net }.send out := by
  obtain ⟨⟨msg, net⟩, received, taken⟩ := Option.bind_eq_some_iff.mp taken
  obtain ⟨⟨queue, out⟩, done, taken⟩ := Option.bind_eq_some_iff.mp taken
  exact ⟨msg, net, queue, out, received, done, (Option.some.inj taken).symm⟩

/-- A request goes to the worker in front of the list. -/
theorem frontend_cases [DecidableEq Name] {s s' : State Name} {socket : Frame}
    (taken : step s (.frontend socket) = some s') :
    ∃ msg front worker workers, s.front.take socket = some (msg, front) ∧
      s.queue.availableWorkers.items = worker :: workers ∧
      s' = { s with
        front := front
        queue := { s.queue with availableWorkers := ⟨workers, none⟩ }
        net := s.net.send (.toWorker worker) ([] :: socket :: msg) } := by
  obtain ⟨⟨msg, front⟩, given, taken⟩ := Option.bind_eq_some_iff.mp taken
  obtain ⟨⟨queue, out⟩, done, taken⟩ := Option.bind_eq_some_iff.mp taken
  obtain rfl := Option.some.inj taken
  cases turn_moved done with
  | taken worker workers msg listed => exact ⟨msg, front, worker, workers, given, listed, rfl⟩

end ZmqPractices.SimplePirate
