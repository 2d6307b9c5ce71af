import Mathlib.Data.Multiset.AddSub
import ZmqPractices.Czmq.Message
import ZmqPractices.Lib.Printed
import ZmqPractices.Lib.Transition
import ZmqPractices.Lib.Weight

/-!
The asynchronous server (`asyncsrv.cpp`): DEALER clients, a proxy with a ROUTER frontend and a
DEALER backend, and a pool of workers that send up to four replies to each request.

A client polls a hundred times between two requests, and each poll hands it a message at
most. The proxy gives a request to any worker. The parties take their steps in any order, and
a message may be lost; `none` is a call the C++ code cannot survive, or one that blocks.
-/

namespace ZmqPractices.AsyncServer

open Czmq Lib

/-! ### Texts -/

/-- `sprintf` into a buffer of this size. -/
def sprintf (size : Nat) (text : Frame) : Option Frame :=
  if text.length < size then some text else none

/-- `%x` of `zthread_id ()`. -/
def identityText (thread : Nat) : Frame := printed 16 thread

/-- `request #%d`. -/
def requestText (requestNum : Nat) : Frame :=
  [0x72, 0x65, 0x71, 0x75, 0x65, 0x73, 0x74, 0x20, 0x23] ++ printed 10 requestNum

/-! ### The parties -/

/-- A `client_task`; `printed` is what it got, oldest first. -/
structure Client where
  identity : Frame
  centitick : Nat
  requestNum : Nat
  printed : List Frame
deriving DecidableEq, Repr

def Client.poll (c : Client) : Client := { c with centitick := c.centitick + 1 }

/-- `zframe_print` of the last frame. -/
def Client.print (frame : Frame) (c : Client) : Client :=
  { c.poll with printed := c.printed ++ [frame] }

def Client.request (c : Client) : Client :=
  { c with centitick := 0, requestNum := c.requestNum + 1 }

/-- What a worker answers, and how often it still has to. -/
structure Task where
  identity : Frame
  content : Frame
  replies : Nat
deriving DecidableEq, Repr

/-- A `server_worker`, in its loop over the replies or before its next receive. -/
structure Worker where
  thread : Nat
  task : Option Task
deriving DecidableEq, Repr

def Worker.setTask (task : Option Task) (w : Worker) : Worker := { w with task := task }

/-- Two frames of the request and a draw; `assert (content)`. -/
def takeTask (msg : Msg) (rand : Nat) : Option Task :=
  match zmsgPop msg with
  | (some identity, msg) =>
      match zmsgPop msg with
      | (some content, _) => some ⟨identity, content, rand % 5⟩
      | (none, _) => none
  | (none, _) => none

/-- The loop goes on while replies are left. -/
def Task.loop (t : Task) : Option Task := if t.replies = 0 then none else some t

/-! ### The system -/

/-- A pipe between two sockets, named by the party that is not the proxy. -/
inductive Chan where
  | toFrontend (client : Frame)
  | toWorker (worker : Nat)
  | toBackend (worker : Nat)
  | toClient (client : Frame)
deriving DecidableEq, Repr

/-- The parties with the messages on their way; `lost` and `drawn`, the requests that were
taken and how many replies each of them gets, are for the statements only. -/
structure State where
  clients : List Client
  workers : List Worker
  net : Net Chan Msg
  lost : Net Chan Msg
  drawn : List Task

/-- A step of a client, of the proxy, which gives a request to a worker, or of a worker. -/
inductive Label where
  | start (thread : Nat)
  | receive (client : Frame)
  | timeout (client : Frame)
  | request (client : Frame)
  | forward (client : Frame) (worker : Nat)
  | take (worker rand : Nat)
  | reply (worker : Nat)
  | back (worker : Nat)
  | lose (packet : Nat)
deriving DecidableEq, Repr

def State.setClient (s : State) (identity : Frame) (write : Client → Client) : State :=
  { s with clients := Table.update Client.identity identity write s.clients }

def State.setTask (s : State) (worker : Nat) (task : Option Task) : State :=
  { s with workers := Table.update Worker.thread worker (.setTask task) s.workers }

/-- Of two clients with one identity the ROUTER socket would know only the first. -/
def start (s : State) (thread : Nat) : Option State :=
  if thread < 2 ^ 32 then
    (sprintf 10 (identityText thread)).bind fun identity =>
      match Table.find Client.identity identity s.clients with
      | some _ => none
      | none => some { s with clients := ⟨identity, 0, 0, []⟩ :: s.clients }
  else none

/-- A poll that finds a message. -/
def receive (s : State) (client : Frame) : Option State :=
  (Table.find Client.identity client s.clients).bind fun c =>
    if c.centitick < 100 then
      (Net.recv (.toClient client) s.net).bind fun (msg, net) =>
        msg.getLast?.map fun frame => { s.setClient client (.print frame) with net := net }
    else none

/-- A poll that finds none in time. -/
def timeout (s : State) (client : Frame) : Option State :=
  (Table.find Client.identity client s.clients).bind fun c =>
    if c.centitick < 100 then some (s.setClient client .poll) else none

/-- The request after a hundred polls; `request_num` is an `int`. -/
def request (s : State) (client : Frame) : Option State :=
  (Table.find Client.identity client s.clients).bind fun c =>
    if c.centitick = 100 ∧ c.requestNum + 1 < 2 ^ 31 then
      (sprintf 30 (requestText (c.requestNum + 1))).map fun buf =>
        { s.setClient client .request with net := s.net.send (.toFrontend client) [buf] }
    else none

/-- From the frontend, which adds the identity, to a worker. -/
def forward (s : State) (client : Frame) (worker : Nat) : Option State :=
  (Table.find Worker.thread worker s.workers).bind fun _ =>
    (Net.recv (.toFrontend client) s.net).map fun (msg, net) =>
      { s with net := net.send (.toWorker worker) (client :: msg) }

def take (s : State) (worker rand : Nat) : Option State :=
  (Table.find Worker.thread worker s.workers).bind fun w =>
    match w.task with
    | some _ => none
    | none =>
        (Net.recv (.toWorker worker) s.net).bind fun (msg, net) =>
          (takeTask msg rand).map fun t =>
            { s.setTask worker t.loop with net := net, drawn := t :: s.drawn }

def reply (s : State) (worker : Nat) : Option State :=
  (Table.find Worker.thread worker s.workers).bind fun w =>
    w.task.map fun t =>
      { s.setTask worker (Task.loop { t with replies := t.replies - 1 }) with
        net := s.net.send (.toBackend worker) [t.identity, t.content] }

/-- From the backend to the client the message begins with, if there is one. -/
def back (s : State) (worker : Nat) : Option State :=
  (Net.recv (.toBackend worker) s.net).bind fun (msg, net) =>
    match msg with
    | [] => none
    | client :: msg =>
        match Table.find Client.identity client s.clients with
        | some _ => some { s with net := net.send (.toClient client) msg }
        | none => some { s with net := net }

def lose (s : State) (packet : Nat) : Option State :=
  s.net[packet]?.map fun p => { s with net := s.net.eraseIdx packet, lost := p :: s.lost }

def step (s : State) : Label → Option State
  | .start thread => start s thread
  | .receive client => receive s client
  | .timeout client => timeout s client
  | .request client => request s client
  | .forward client worker => forward s client worker
  | .take worker rand => take s worker rand
  | .reply worker => reply s worker
  | .back worker => back s worker
  | .lose packet => lose s packet

/-- The server with its pool, before the first client. -/
def asyncServer (pool : Nat) : System State Label where
  start := ⟨[], (List.range pool).map (⟨·, none⟩), [], [], []⟩
  step := step

end ZmqPractices.AsyncServer
