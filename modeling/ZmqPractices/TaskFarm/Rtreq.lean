import ZmqPractices.Lib.Channel
import ZmqPractices.Lib.Transition
import ZmqPractices.Peering.Prototype

/-!
A ROUTER broker and its REQ workers (`rtreq.cpp`).

Each worker asks for work until it is told that it is fired. The broker answers a request
at a time, to the identity the ROUTER socket puts in front of it; when its time is over it
fires whoever asks, counts them, and leaves its loop at the number of workers. It does
not remember whom it has fired.

The steps of the workers and of the broker come in any order, and the clock reads anything.
-/

namespace ZmqPractices.TaskFarm

open Czmq Lib
open Peering (reqSend reqRecv)

/-! ### Strings -/

/-- `s_recv`: at most 255 bytes of a frame, as a C string. -/
def sRecv (frame : Frame) : Frame := zframeStrdup (frame.take 255)

/-- `Hi Boss`. -/
def hiBoss : Frame := [0x48, 0x69, 0x20, 0x42, 0x6f, 0x73, 0x73]

/-- `Work harder`. -/
def workHarder : Frame := [0x57, 0x6f, 0x72, 0x6b, 0x20, 0x68, 0x61, 0x72, 0x64, 0x65, 0x72]

/-- `Fired!`. -/
def firedText : Frame := [0x46, 0x69, 0x72, 0x65, 0x64, 0x21]

/-! ### The parties -/

/-- Where `worker_task` is in its loop. -/
inductive Phase where
  | ready
  | waiting
  | completed
deriving DecidableEq, Repr

/-- A worker; for the statements only, how often it has asked and what it received, newest
first. -/
structure Worker where
  phase : Phase
  asked : Nat
  received : List Frame
deriving DecidableEq, Repr

/-- Where the broker is in its loop: before its first receive, or with the identity it has
received and begun to answer. -/
inductive Broker where
  | receiving
  | answering (identity : Frame)
  | exited
deriving DecidableEq, Repr

/-- The connection of a worker, up to the broker and down from it. -/
inductive Chan where
  | up (identity : Frame)
  | down (identity : Frame)
deriving DecidableEq, Repr

/-- The farm; `told` is what the broker has sent to each worker, newest first, for the
statements only. -/
structure Farm where
  worker : Frame → Worker
  broker : Broker
  workersFired : Nat
  net : Net Chan Msg
  told : Frame → List Frame

/-- A step of a worker, or of the broker: it receives a message of this worker, or reads
the clock and answers. -/
inductive Label where
  | ask (identity : Frame)
  | receive (identity : Frame)
  | read (identity : Frame)
  | answer (now : Int)
deriving DecidableEq, Repr

def Farm.setWorker (s : Farm) (identity : Frame) (w : Worker) : Farm :=
  { s with worker := Function.update s.worker identity w }

/-- The worker's turn after its request: `strcmp` with the text of the end. -/
def Worker.receive (w : Worker) (frame : Frame) : Worker :=
  let workload := sRecv frame
  { w with
    phase := if streq workload firedText then .completed else .ready
    received := workload :: w.received }

/-- The three receives of the broker: the identity, the delimiter and the response. -/
def brokerRead : Msg → Option Frame
  | [identity, _envelope, _response] => some (sRecv identity)
  | _ => none

section

-- the identities of the workers, and `end_time`
variable (identities : List Frame) (endTime : Int)

/-- A ROUTER socket drops what is for nobody it knows. -/
def Farm.route (s : Farm) (identity body : Frame) : Farm :=
  if identity ∈ identities then
    { s with
      net := s.net.send (.down identity) [[], body]
      told := Function.update s.told identity (body :: s.told identity) }
  else s

def step (s : Farm) : Label → Option Farm
  | .ask identity =>
      let w := s.worker identity
      if identity ∈ identities ∧ w.phase = .ready then
        some { s.setWorker identity { w with phase := .waiting, asked := w.asked + 1 } with
          net := s.net.send (.up identity) (reqSend [hiBoss]) }
      else none
  | .receive identity =>
      let w := s.worker identity
      if w.phase = .waiting then
        (Net.recv (.down identity) s.net).map fun (msg, net) =>
          match reqRecv msg with
          | some (frame :: _) => { s.setWorker identity (w.receive frame) with net := net }
          | _ => { s with net := net }
      else none
  | .read identity =>
      if s.broker = .receiving then
        (Net.recv (.up identity) s.net).bind fun (msg, net) =>
          (brokerRead (identity :: msg)).map fun identity =>
            { s with broker := .answering identity, net := net }
      else none
  | .answer now =>
      match s.broker with
      | .answering identity =>
          if now < endTime then
            some { s.route identities identity workHarder with broker := .receiving }
          else
            let workersFired := s.workersFired + 1
            some { s.route identities identity firedText with
              workersFired := workersFired
              broker := if workersFired = identities.length then .exited else .receiving }
      | _ => none

/-- The broker and the workers from their start; the broker expects as many workers as
there are. -/
def farm : System Farm Label where
  start := ⟨fun _ => ⟨.ready, 0, []⟩, .receiving, 0, [], fun _ => []⟩
  step := step identities endTime

end

end ZmqPractices.TaskFarm
