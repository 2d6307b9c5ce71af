import ZmqPractices.Czmq.Format
import ZmqPractices.Lib.Feed
import ZmqPractices.Lib.Parts
import ZmqPractices.Lib.Printed
import ZmqPractices.Peering.StateFlow

/-!
The state flow on its own (`state_flow.cpp`, with `endpoints.cpp`), and the publisher and
subscriber it is made of (`pub.cpp`, `sub.cpp`).

A broker publishes a random number under its name whenever its poll runs out, and prints what
its peers publish. `pub.cpp` only publishes and `sub.cpp` only prints. A status is a message
of two parts, and each `zstr_sendm`, `zstr_sendf` and `zstr_recv` is a step of its own; the
steps of the programs come in any order, and messages may be lost.
-/

namespace ZmqPractices.StatusFlow

open Czmq Lib

/-! ### Who is connected to whom -/

/-- The programs that run: the name under which one publishes, the endpoint it binds if it
publishes, and the endpoints it connects to. -/
structure Setup (Node : Type) where
  name : Node → Frame
  binds : Node → Option Frame
  connects : Node → List Frame

/-- The connection is to the endpoint that the publisher has bound. -/
def Setup.Carries {Node : Type} (setup : Setup Node) (subscriber : Node) (connection : Nat)
    (publisher : Node) : Prop :=
  ∃ endpoint ∈ setup.binds publisher, (setup.connects subscriber)[connection]? = some endpoint

instance {Node : Type} (setup : Setup Node) (subscriber : Node) (connection : Nat)
    (publisher : Node) : Decidable (setup.Carries subscriber connection publisher) :=
  inferInstanceAs (Decidable (∃ endpoint ∈ setup.binds publisher, _))

/-- `endpoints::state (self)`, with the text of `IMPLEMENT_ENDPOINT`. -/
def endpointsState (self : Frame) : Frame := Peering.stateEndpoint self

/-- The brokers of `state_flow.cpp`, each with its peers. -/
def stateFlow (brokers : List Frame) (peers : Frame → List Frame) : Setup Frame where
  name self := self
  binds self := if self ∈ brokers then some (endpointsState self) else none
  connects self := if self ∈ brokers then (peers self).map endpointsState else []

/-- `pub`. -/
def pubName : Frame := [0x70, 0x75, 0x62]

/-- `ipc://pub-server.ipc`. -/
def pubEndpoint : Frame :=
  [0x69, 0x70, 0x63, 0x3a, 0x2f, 0x2f] ++ pubName ++
    [0x2d, 0x73, 0x65, 0x72, 0x76, 0x65, 0x72, 0x2e, 0x69, 0x70, 0x63]

/-- One `pub.cpp`, which is `none`, and any number of `sub.cpp`. -/
def pubSub (Sub : Type) : Setup (Option Sub) where
  name _ := pubName
  binds
    | none => some pubEndpoint
    | some _ => none
  connects
    | none => []
    | some _ => [pubEndpoint]

/-! ### The programs -/

/-- Where a program is in its loop: at its poll, between the two parts it reads, with the
connection they come from and the name, or between the two it sends. -/
inductive Phase where
  | polling
  | named (connection : Nat) (peerName : Frame)
  | reporting (available : Nat)
deriving DecidableEq, Repr

/-- A line of the output: a name and a number. For the statements only, with the connection
it came from. -/
structure Line where
  connection : Nat
  peerName : Frame
  available : Frame
deriving DecidableEq, Repr

/-- A program, with what it has sent of a message and what is left of the one it reads; for
the statements only, the numbers it has published. -/
structure Party where
  phase : Phase
  out : Msg
  parts : Msg
  lines : List Line
  reports : List Nat
deriving DecidableEq, Repr

def Party.start : Party := ⟨.polling, [], [], [], []⟩

structure State (Node : Type) where
  party : Node → Party
  queue : Node → Nat → List Msg

/-- `zstr_recv`, from this connection where a new message is read; `zstr_sendm` of the name,
with the random number that follows it; `zstr_sendf` of that number. -/
inductive Label (Node : Type) where
  | recv (node : Node) (connection : Nat)
  | sendm (node : Node) (rand : Nat)
  | sendf (node : Node)
  | lose (node : Node) (connection : Nat) (position : Nat)

/-- What a program makes of a part it has received. -/
def Party.read (party : Party) (connection : Nat) (part : Frame) (parts : Msg) : Option Party :=
  match party.phase with
  | .polling => some { party with phase := .named connection (zframeStrdup part), parts := parts }
  | .named connection peerName =>
      some { party with
        phase := .polling
        parts := parts
        lines := party.lines ++ [⟨connection, peerName, zframeStrdup part⟩] }
  | .reporting _ => none

/-- What is on the connections to a publisher after it has sent a message. -/
def Setup.deliver {Node : Type} (setup : Setup Node) (publisher : Node) (msg : Msg)
    (queue : Node → Nat → List Msg) : Node → Nat → List Msg :=
  fun subscriber connection =>
    if setup.Carries subscriber connection publisher then queue subscriber connection ++ [msg]
    else queue subscriber connection

variable {Node : Type} [DecidableEq Node]

def State.setParty (s : State Node) (node : Node) (party : Party) : State Node :=
  { s with party := Function.update s.party node party }

def step (setup : Setup Node) (s : State Node) : Label Node → Option (State Node)
  | .recv node connection =>
      let next :=
        match s.queue node connection with
        | [] => none
        | msg :: msgs => some (msg, Feed.setQueue s.queue node connection msgs)
      (recvPart (s.party node).parts next s.queue).bind fun (part, parts, queue) =>
        ((s.party node).read connection part parts).map fun party =>
          { s.setParty node party with queue := queue }
  | .sendm node rand =>
      let party := s.party node
      if party.phase = .polling ∧ (setup.binds node).isSome then
        (zstrSend .posix (setup.name node)).map fun frame =>
          s.setParty node
            { party with phase := .reporting (rand % 11), out := party.out ++ [frame] }
      else none
  | .sendf node =>
      let party := s.party node
      match party.phase with
      | .reporting available =>
          some { s.setParty node { party with
              phase := .polling
              out := []
              reports := party.reports ++ [available] } with
            queue := setup.deliver node (party.out ++ [printed 10 available]) s.queue }
      | _ => none
  | .lose node connection position =>
      some { s with
        queue := Feed.setQueue s.queue node connection
          ((s.queue node connection).eraseIdx position) }

def statusFlow (setup : Setup Node) : System (State Node) (Label Node) where
  start := ⟨fun _ => .start, fun _ _ => []⟩
  step := step setup

/-! ### What is heard and said -/

/-- The status message of a publisher. -/
def Setup.status (setup : Setup Node) (node : Node) (available : Nat) : Msg :=
  [setup.name node, printed 10 available]

/-- The messages a program has read, the last one from its first part on. -/
def Party.heard (party : Party) : List (Nat × Msg) :=
  party.lines.map (fun line => (line.connection, [line.peerName, line.available])) ++
    match party.phase with
    | .named connection peerName => [(connection, peerName :: party.parts)]
    | _ => []

/-- The feed that the programs are. -/
def State.asFeed (setup : Setup Node) (s : State Node) : Feed Node Node Msg where
  said node := (s.party node).reports.map (setup.status node)
  queue := s.queue
  heard node := (s.party node).heard

end ZmqPractices.StatusFlow
