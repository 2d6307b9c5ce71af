import ZmqPractices.Lib.Channel
import ZmqPractices.Lib.Printed
import ZmqPractices.Lib.Transition
import ZmqPractices.Peering.Prototype

/-!
A DEALER client and its REP servers (`hello.cpp`).

The client puts an empty frame in front of what it sends, as a REQ socket does, and its
socket passes the messages around the connected servers. It sends its requests in a row,
counts their replies, and then tells one server after the other to quit, each after the
one before has said that it is done. `none` is a call the C++ code cannot survive, or one
that blocks.
-/

namespace ZmqPractices.Hello

open Czmq Lib
open Peering (reqSend reqRecv)

def serverNum : Nat := 3
def requestNum : Nat := 5

/-- `[quit]`. -/
def quitMsg : Frame := [0x5b, 0x71, 0x75, 0x69, 0x74, 0x5d]

/-- `[done]`. -/
def doneMsg : Frame := [0x5b, 0x64, 0x6f, 0x6e, 0x65, 0x5d]

/-- `sprintf (buf, "req#%d", t)`. -/
def requestMsg (t : Nat) : Frame := [0x72, 0x65, 0x71, 0x23] ++ printed 10 t

/-- `sprintf (buf, "hello from server #%d", seq)`. -/
def replyMsg (seq : Nat) : Frame :=
  [0x68, 0x65, 0x6c, 0x6c, 0x6f, 0x20, 0x66, 0x72, 0x6f, 0x6d, 0x20, 0x73, 0x65, 0x72, 0x76,
    0x65, 0x72, 0x20, 0x23] ++ printed 10 seq

/-- `recv (buf, 128)` and `buf[len] = 0`: the length is that of the whole frame. -/
def recvBuf (frame : Frame) : Option Frame :=
  if frame.length < 128 then some (zframeStrdup frame) else none

/-! ### The parties -/

/-- Where the client is: sending its requests or at the top of its loop, at its poll, past
its loop, or stopped by the assertion. -/
inductive Phase where
  | looping
  | polling
  | finished
  | aborted
deriving DecidableEq, Repr

/-- The variables of `client_task`. -/
structure Client where
  phase : Phase
  t : Nat
  replyCount : Nat
  doneCount : Nat
deriving DecidableEq, Repr

def Client.start : Client := ⟨.looping, 0, 0, 0⟩

/-- A message with these frames: the first must be empty, and the second is counted as a
reply or, when all of these are there, as a server that is done. -/
def Client.receive (c : Client) : Msg → Option Client
  | [] :: frame :: _ =>
      (recvBuf frame).map fun buf =>
        if c.replyCount < requestNum then
          { c with phase := .looping, replyCount := c.replyCount + 1 }
        else if buf = doneMsg then { c with phase := .looping, doneCount := c.doneCount + 1 }
        else { c with phase := .looping }
  | (_ :: _) :: _ => some { c with phase := .aborted }
  | _ => none

/-- What a server answers, and whether it quits. -/
def serve (seq : Nat) (frame : Frame) : Option (Frame × Bool) :=
  (recvBuf frame).map fun buf =>
    if buf = quitMsg then (doneMsg, true) else (replyMsg seq, false)

/-! ### The system -/

/-- The two directions of the connection to a server. -/
inductive Chan where
  | toServer (seq : Nat)
  | toClient (seq : Nat)
deriving DecidableEq, Repr

/-- The client with the order in which its socket passes messages around, the servers that
have quit, the messages on their way and, for the statements only, the servers that were
told to quit. Both lists of servers have the newest first. -/
structure State where
  client : Client
  peers : List Nat
  exited : List Nat
  net : Net Chan Msg
  asked : List Nat
deriving DecidableEq, Repr

/-- The client sends a request, takes a turn of its loop up to the poll, or receives from a
server; a server serves a message; or the client's socket drops a server that has quit. -/
inductive Label where
  | request
  | turn
  | receive (seq : Nat)
  | serve (seq : Nat)
  | drop (seq : Nat)
deriving DecidableEq, Repr

/-- Send to the server whose turn it is. -/
def State.send (s : State) (content : Frame) : Option (Nat × State) :=
  match s.peers with
  | [] => none
  | seq :: peers => some (seq, { s with
      peers := peers ++ [seq]
      net := s.net.send (.toServer seq) (reqSend [content]) })

def step (s : State) : Label → Option State
  | .request =>
      if s.client.phase = .looping ∧ s.client.t < requestNum then
        (s.send (requestMsg s.client.t)).map fun (_, s) =>
          { s with client := { s.client with t := s.client.t + 1 } }
      else none
  | .turn =>
      if s.client.phase = .looping ∧ s.client.t = requestNum then
        if s.client.replyCount = requestNum ∧ s.client.doneCount < serverNum then
          (s.send quitMsg).map fun (seq, s) =>
            { s with client := { s.client with phase := .polling }, asked := seq :: s.asked }
        else if s.client.doneCount = serverNum then
          some { s with client := { s.client with phase := .finished } }
        else some { s with client := { s.client with phase := .polling } }
      else none
  | .receive seq =>
      if s.client.phase = .polling then do
        let (msg, net) ← Net.recv (.toClient seq) s.net
        let client ← s.client.receive msg
        return { s with client := client, net := net }
      else none
  | .serve seq =>
      if seq < serverNum ∧ seq ∉ s.exited then do
        let (msg, net) ← Net.recv (.toServer seq) s.net
        match reqRecv msg with
        | some (frame :: _) =>
            let (answer, quits) ← serve seq frame
            return { s with
              net := net.send (.toClient seq) (reqSend [answer])
              exited := if quits then seq :: s.exited else s.exited }
        | _ => none
      else none
  | .drop seq =>
      if seq ∈ s.exited ∧ seq ∈ s.peers then some { s with peers := s.peers.erase seq } else none

/-- The client is connected to the servers, and nothing was sent. -/
def hello : System State Label where
  start := ⟨.start, List.range serverNum, [], [], []⟩
  step := step

end ZmqPractices.Hello
