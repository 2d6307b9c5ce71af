import ZmqPractices.Pirate.Worker
import ZmqPractices.Lib.Channel
import ZmqPractices.Lib.Transition

/-!
One Paranoid Pirate queue and any number of workers, as one system.

Workers are named by the identity frame they set on their socket. Each has a FIFO
channel to the queue and one from it. A label is one step of one party: a worker
polls, answers, ends its turn or reconnects; the queue polls, then goes through
the backend, frontend, heartbeat and purge parts of its turn, with steps of the
workers between any two of them.

`unanswered` records the dispatched requests whose replies the queue has not read
yet, one entry per request under its worker's identity. No party reads it;
`inFlight_le_unanswered` says that it counts at least every request that is on its
way to a worker, in its hands, or on its way back.
-/

namespace ZmqPractices.Pirate

open Czmq Lib

/-- The two directions of a worker's connection. -/
inductive Chan where
  | toQueue (worker : Frame)
  | toWorker (worker : Frame)
deriving DecidableEq, Repr

/-- Where the queue stands in its turn, with the revents of the sockets it has
still to look at. -/
inductive Turn where
  | poll
  | backend (ready request : Bool)
  | frontend (request : Bool)
  | heartbeat
  | purge
deriving DecidableEq, Repr

structure State where
  queue : Queue
  turn : Turn
  worker : Frame → Option PPWorker
  net : Net Chan Msg
  unanswered : List Frame

/-- The steps of a worker. -/
inductive WorkerStep where
  | start (now : Nat)
  | receive (crash : Bool)
  | timeout (arrived : Nat)
  | reply
  | beat (now later : Nat)
deriving DecidableEq, Repr

/-- The steps of the queue. -/
inductive QueueStep where
  | poll (backend frontend : Bool)
  | backend (worker : Frame)
  | noBackend
  | frontend (client : Frame) (body : Msg)
  | noFrontend
  | heartbeat
  | purge
deriving DecidableEq, Repr

inductive Label where
  | worker (identity : Frame) (step : WorkerStep)
  | queue (step : QueueStep)
deriving DecidableEq, Repr

/-! ### Steps of a worker -/

/-- Carry out what a worker does to its socket. On a reconnect the first `arrived`
messages it had sent still reach the queue and everything else on its old
connection is lost. -/
def State.act (s : State) (identity : Frame) (arrived : Nat) : Action → State
  | .none => s
  | .send msg => { s with net := s.net.send (.toQueue identity) msg }
  | .connect =>
      let net := (s.net.trim (.toWorker identity) 0).trim (.toQueue identity) arrived
      { s with net := net.send (.toQueue identity) [pppReady] }

/-- A worker's new variables, and what it does to its socket. -/
def State.update (s : State) (identity : Frame) (arrived : Nat) (out : PPWorker × Action) : State :=
  { s with worker := Function.update s.worker identity (some out.1) }.act identity arrived out.2

def workerStep (s : State) (identity : Frame) (step : WorkerStep) : Option State :=
  match s.worker identity, step with
  | none, .start now => some (s.update identity 0 (PPWorker.start now))
  | some w, .receive crash =>
      if w.phase = .polling then
        (Net.recv (.toWorker identity) s.net).map fun (msg, net) =>
          { s with net := net }.update identity 0 (w.receive msg crash, .none)
      else none
  | some w, .timeout arrived =>
      if w.phase = .polling then some (s.update identity arrived w.timeout) else none
  | some w, .reply =>
      match w.phase with
      | .replying msg => some (s.update identity 0 (w.reply msg))
      | _ => none
  | some w, .beat now later =>
      if w.phase = .beating then some (s.update identity 0 (w.beat now later)) else none
  | _, _ => none

/-! ### Steps of the queue -/

/-- Put what the queue sends on its backend into the channels of the workers
named by the first frames. Replies leave the system at the frontend. -/
def deliver (net : Net Chan Msg) : List Output → Net Chan Msg
  | [] => net
  | .backend (identity :: msg) :: out => deliver (net.send (.toWorker identity) msg) out
  | _ :: out => deliver net out

/-- A message with one content frame behind the envelope is a control message;
any other is the reply to a request. -/
def isControl (msg : Msg) : Bool := zmsgSize (zmsgUnwrap msg).2 = 1

def queueStep (clock : Nat → Nat) (s : State) (step : QueueStep) : Option State :=
  match s.turn, step with
  | .poll, .poll backend frontend =>
      some { s with turn := .backend backend (frontend && s.queue.workers.size != 0) }
  | .backend true request, .backend worker => do
      let (msg, net) ← Net.recv (.toQueue worker) s.net
      let (queue, out) ← backendBranch clock s.queue (worker :: msg)
      return { s with
        queue := queue
        turn := .frontend request
        net := deliver net out
        unanswered :=
          if isControl (worker :: msg) then s.unanswered else s.unanswered.erase worker }
  | .backend false request, .noBackend => some { s with turn := .frontend request }
  | .frontend true, .frontend client body => do
      let (queue, out) ← frontendRequest s.queue (client :: body)
      let worker ← s.queue.workers.items.head?
      if body = [] then none
      else some { s with
        queue := queue
        turn := .heartbeat
        net := deliver s.net out
        unanswered := worker.identity :: s.unanswered }
  | .frontend false, .noFrontend => some { s with turn := .heartbeat }
  | .heartbeat, .heartbeat =>
      let out := heartbeatRound clock s.queue
      some { s with queue := out.1, turn := .purge, net := deliver s.net out.2 }
  | .purge, .purge => some { s with queue := purgeWorkers clock s.queue, turn := .poll }
  | _, _ => none

/-- The whole system; the queue reads `clock`. -/
def pirate (clock : Nat → Nat) : System State Label where
  start :=
    { queue := .start clock
      turn := .poll
      worker := fun _ => none
      net := []
      unanswered := [] }
  step s
    | .worker identity step => workerStep s identity step
    | .queue step => queueStep clock s step

end ZmqPractices.Pirate
