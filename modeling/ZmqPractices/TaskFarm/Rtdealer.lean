import ZmqPractices.Lib.Parts
import ZmqPractices.TaskFarm.Rtreq

/-!
A ROUTER broker and its DEALER workers (`rtdealer.cpp`).

The workers of `rtreq.cpp` with another socket. A DEALER socket has no envelope of its own:
the worker sends the empty delimiter and receives it, as a part of each message. Here every
call is a step: a part is kept until the last part of its message is sent, and a message that
is received is handed over part by part.
-/

namespace ZmqPractices.TaskFarm

open Czmq Lib

/-! ### The parties -/

/-- The next call of `worker_task`. -/
inductive DealerPhase where
  | ready
  | began
  | waiting
  | delimited
  | completed
deriving DecidableEq, Repr

/-- A worker: what it has sent of a message, and what is left of the one it receives. -/
structure Dealer where
  phase : DealerPhase
  out : Msg
  parts : Msg
  asked : Nat
  received : List Frame
deriving DecidableEq, Repr

/-- The next call of the broker: the identity, its echo, the delimiter, the response, the
delimiter of its own, and the answer. -/
inductive Call where
  | identity
  | address (identity : Frame)
  | envelope
  | response
  | delimiter
  | answer
  | exited
deriving DecidableEq, Repr

/-- The farm; `told` is for the statements only. -/
structure Rtdealer where
  dealer : Frame → Dealer
  call : Call
  out : Msg
  parts : Msg
  workersFired : Nat
  net : Net Chan Msg
  told : Frame → List Frame

/-- The next call of a worker, or of the broker: a receive, of a message from the worker
named where it takes a new one, an `s_sendmore`, or the `s_send` after a look at the clock. -/
inductive Turn where
  | worker (identity : Frame)
  | recv (identity : Frame)
  | sendmore
  | answer (now : Int)
deriving DecidableEq, Repr

def Rtdealer.setDealer (s : Rtdealer) (identity : Frame) (d : Dealer) : Rtdealer :=
  { s with dealer := Function.update s.dealer identity d }

section

-- the identities of the workers, and `end_time`
variable (identities : List Frame) (endTime : Int)

/-- The turn of a worker. -/
def workerTurn (s : Rtdealer) (identity : Frame) : Option Rtdealer :=
  let d := s.dealer identity
  let recv := recvPart d.parts (Net.recv (.down identity) s.net) s.net
  match d.phase with
  | .ready => some (s.setDealer identity { d with phase := .began, out := d.out ++ [[]] })
  | .began =>
      some { s.setDealer identity { d with phase := .waiting, out := [], asked := d.asked + 1 } with
        net := s.net.send (.up identity) (d.out ++ [hiBoss]) }
  | .waiting =>
      recv.map fun (_, parts, net) =>
        { s.setDealer identity { d with phase := .delimited, parts := parts } with net := net }
  | .delimited =>
      recv.map fun (part, parts, net) =>
        let workload := sRecv part
        { s.setDealer identity { d with
            phase := if streq workload firedText then .completed else .ready
            parts := parts
            received := workload :: d.received } with net := net }
  | .completed => none

/-- A message of the broker goes to the identity it begins with; the ROUTER socket drops what
is for nobody it knows. -/
def Rtdealer.route (s : Rtdealer) (text : Frame) : Rtdealer :=
  match s.out ++ [text] with
  | identity :: msg =>
      if identity ∈ identities then
        { s with
          out := []
          net := s.net.send (.down identity) msg
          told := Function.update s.told identity (text :: s.told identity) }
      else { s with out := [] }
  | [] => s

/-- A receive of the broker. A ROUTER socket puts the identity in front. -/
def brokerRecv (s : Rtdealer) (identity : Frame) : Option Rtdealer :=
  let next := (Net.recv (.up identity) s.net).map fun (msg, net) => (identity :: msg, net)
  (recvPart s.parts next s.net).bind fun (part, parts, net) =>
    let s := { s with parts := parts, net := net }
    match s.call with
    | .identity => some { s with call := .address (sRecv part) }
    | .envelope => some { s with call := .response }
    | .response => some { s with call := .delimiter }
    | _ => none

def brokerSendmore (s : Rtdealer) : Option Rtdealer :=
  match s.call with
  | .address identity => some { s with call := .envelope, out := s.out ++ [identity] }
  | .delimiter => some { s with call := .answer, out := s.out ++ [[]] }
  | _ => none

def brokerAnswer (s : Rtdealer) (now : Int) : Option Rtdealer :=
  match s.call with
  | .answer =>
      if now < endTime then some { s.route identities workHarder with call := .identity }
      else
        let workersFired := s.workersFired + 1
        some { s.route identities firedText with
          workersFired := workersFired
          call := if workersFired = identities.length then .exited else .identity }
  | _ => none

def turn (s : Rtdealer) : Turn → Option Rtdealer
  | .worker identity => if identity ∈ identities then workerTurn s identity else none
  | .recv identity => brokerRecv s identity
  | .sendmore => brokerSendmore s
  | .answer now => brokerAnswer identities endTime s now

/-- The broker and the workers from their start. -/
def rtdealer : System Rtdealer Turn where
  start :=
    { dealer := fun _ => ⟨.ready, [], [], 0, []⟩
      call := .identity
      out := []
      parts := []
      workersFired := 0
      net := []
      told := fun _ => [] }
  step := turn identities endTime

end

/-! ### What is seen of it -/

/-- A worker counts as answered from the first part of the answer on. -/
def Dealer.asRtreq (d : Dealer) : Worker :=
  match d.phase with
  | .ready | .began => ⟨.ready, d.asked, d.received⟩
  | .waiting => ⟨.waiting, d.asked, d.received⟩
  | .delimited => (Worker.mk .waiting d.asked d.received).receive (d.parts.headD [])
  | .completed => ⟨.completed, d.asked, d.received⟩

/-- The broker answers from the first part of the request on. -/
def Call.asRtreq (call : Call) (out : Msg) : Broker :=
  match call with
  | .identity => .receiving
  | .address worker => .answering worker
  | .envelope | .response | .delimiter | .answer => .answering (out.headD [])
  | .exited => .exited

/-- The farm of `rtreq.cpp` that this one looks like. -/
def Rtdealer.asRtreq (s : Rtdealer) : Farm where
  worker identity := (s.dealer identity).asRtreq
  broker := s.call.asRtreq s.out
  workersFired := s.workersFired
  net := s.net
  told := s.told

/-- A request counts when its last part is sent, a message that is received when its first
part is. -/
def Rtdealer.seen (s : Rtdealer) : Turn → Option Label
  | .worker identity =>
      match (s.dealer identity).phase with
      | .began => some (.ask identity)
      | .waiting => some (.receive identity)
      | _ => none
  | .recv identity => if s.call = .identity then some (.read identity) else none
  | .sendmore => none
  | .answer now => some (.answer now)

/-- The hidden calls that are left before the worker asks, or the broker answers. -/
def Rtdealer.hidden (s : Rtdealer) : Label → Nat
  | .ask identity =>
      match (s.dealer identity).phase with
      | .delimited => 2
      | .ready => 1
      | _ => 0
  | .answer _ =>
      match s.call with
      | .address _ => 4
      | .envelope => 3
      | .response => 2
      | .delimiter => 1
      | _ => 0
  | _ => 0

end ZmqPractices.TaskFarm
