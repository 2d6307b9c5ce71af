import Mathlib.Data.List.Basic
import Mathlib.Logic.Function.Basic
import ZmqPractices.Czmq.Message
import ZmqPractices.Lib.Parts
import ZmqPractices.Lib.Transition

/-!
The hello-world server and its clients (`hello/server.cpp`, `hello/client.cpp`).

A client sends its requests in a row from a DEALER socket, each behind an empty frame as a
REQ socket would put it, and then reads as many replies, each of them part by part while
`ZMQ_RCVMORE` says that there is more. The server answers one request after the other from a
REP socket. Any number of clients run, and all steps come in any order.

The client asks for `ZMQ_RCVMORE` with `option_len = 0`. `zmq_getsockopt` fails where the
length is too small for the option, and leaves `more` as it was: so the length is a parameter
here, as the number of requests is.
-/

namespace ZmqPractices.HelloWorld

open Czmq Lib

/-! ### Frames and sockets -/

/-- `hello`. -/
def hello : Frame := [0x68, 0x65, 0x6c, 0x6c, 0x6f]

/-- `world`. -/
def world : Frame := [0x77, 0x6f, 0x72, 0x6c, 0x64]

/-- `sizeof (int)`. -/
def sizeofInt : Nat := 4

/-- `more` after `zmq_getsockopt (.., ZMQ_RCVMORE, &more, &option_len)`, with what is left of the
message. -/
def zmqGetsockoptRcvmore (optionLen : Nat) (parts : Msg) (more : Nat) : Nat :=
  if optionLen < sizeofInt then more else if parts = [] then 0 else 1

/-- A REP socket takes the envelope off a request, down to the first empty frame, and drops a
request without one. -/
def openRequest (msg : Msg) : Option (Msg × Msg) :=
  match msg.dropWhile (· ≠ []) with
  | [] => none
  | delimiter :: body => some (msg.takeWhile (· ≠ []) ++ [delimiter], body)

/-! ### Client and server -/

/-- Where a client is: at a request, at the first part of a reply, asking for more of it, at
another part, or at its end. -/
inductive Phase where
  | sending (i : Nat)
  | reading (i : Nat)
  | more (i : Nat)
  | part (i : Nat)
  | done
deriving DecidableEq, Repr

/-- What a client prints of what it has received. -/
inductive Line where
  | invalid (i : Nat) (buf : Frame)
  | receiving (i : Nat) (buf : Frame)
deriving DecidableEq, Repr

/-- A client, with what it has sent of a request and what is left of the reply it reads; for
the statements only, how many replies it has begun to read. -/
structure Client where
  phase : Phase
  out : Msg
  parts : Msg
  lines : List Line
  taken : Nat
deriving DecidableEq, Repr

section

-- `req_nums` and `option_len`
variable (reqNums optionLen : Nat)

/-- The head of the loop over the replies. -/
def nextReply (i : Nat) : Phase := if i < reqNums then .reading i else .done

/-- The head of the loop over the requests. -/
def nextRequest (i : Nat) : Phase := if i < reqNums then .sending i else nextReply reqNums 0

def Client.start : Client := ⟨nextRequest reqNums 0, [], [], [], 0⟩

structure State (Node : Type) where
  client : Node → Client
  requests : Node → List Msg
  replies : Node → List Msg
  serving : Option (Node × Msg)
  heard : List Frame

/-- A client's `zmq_send` with and without `ZMQ_SNDMORE`, its `zmq_recv`, its look at
`ZMQ_RCVMORE`; the server's `zmq_recv` of some client's request, and its `zmq_send`. -/
inductive Label (Node : Type) where
  | sendmore (node : Node)
  | send (node : Node)
  | recv (node : Node)
  | rcvmore (node : Node)
  | serverRecv (node : Node)
  | serverSend
deriving DecidableEq, Repr

/-- What a client makes of a part it has received; `begun` says whether it is of a new reply. -/
def Client.read (c : Client) (part : Frame) (parts : Msg) (begun : Bool) : Option Client :=
  let c := { c with parts := parts, taken := if begun then c.taken + 1 else c.taken }
  match c.phase with
  | .reading i =>
      let lines := if part.length ≠ 0 then c.lines ++ [.invalid i (zframeStrdup part)] else c.lines
      some { c with phase := .more i, lines := lines }
  | .part i =>
      some { c with phase := .more i, lines := c.lines ++ [.receiving i (zframeStrdup part)] }
  | _ => none

variable {Node : Type} [DecidableEq Node]

def State.setClient (s : State Node) (node : Node) (c : Client) : State Node :=
  { s with client := Function.update s.client node c }

def step (s : State Node) : Label Node → Option (State Node)
  | .sendmore node =>
      let c := s.client node
      match c.phase, c.out with
      | .sending _, [] => some (s.setClient node { c with out := [[]] })
      | _, _ => none
  | .send node =>
      let c := s.client node
      match c.phase, c.out with
      | .sending i, _ :: _ =>
          some { s.setClient node { c with phase := nextRequest reqNums (i + 1), out := [] } with
            requests :=
              Function.update s.requests node (s.requests node ++ [c.out ++ [hello]]) }
      | _, _ => none
  | .recv node =>
      let c := s.client node
      let next :=
        match s.replies node with
        | [] => none
        | msg :: msgs => some (msg, msgs)
      (recvPart c.parts next (s.replies node)).bind fun (part, parts, replies) =>
        (c.read part parts (c.parts = [])).map fun c =>
          { s.setClient node c with replies := Function.update s.replies node replies }
  | .rcvmore node =>
      let c := s.client node
      match c.phase with
      | .more i =>
          let more := zmqGetsockoptRcvmore optionLen c.parts 0
          let phase := if more = 0 then nextReply reqNums (i + 1) else .part i
          some (s.setClient node { c with phase := phase })
      | _ => none
  | .serverRecv node =>
      match s.serving, s.requests node with
      | none, msg :: msgs =>
          let s := { s with requests := Function.update s.requests node msgs }
          match openRequest msg with
          | some (envelope, part :: _) =>
              some { s with
                serving := some (node, envelope)
                heard := s.heard ++ [zframeStrdup part] }
          | _ => some s
      | _, _ => none
  | .serverSend =>
      s.serving.map fun (node, envelope) =>
        { s with
          serving := none
          replies := Function.update s.replies node (s.replies node ++ [envelope ++ [world]]) }

/-- Any number of clients and the server, with `req_nums` and `option_len` of `client.cpp` as
parameters: `exchange 3 0` is the code. -/
def exchange (Node : Type) [DecidableEq Node] : System (State Node) (Label Node) where
  start := ⟨fun _ => .start reqNums, fun _ => [], fun _ => [], none, []⟩
  step := step reqNums optionLen

end

end ZmqPractices.HelloWorld
