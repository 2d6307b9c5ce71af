import ZmqPractices.LazyPirate.Front

/-!
Lazy Pirate clients and a Lazy Pirate server (`lpserver.cpp`), as one system.

The server's REP socket takes one request at a time, and the server sends it back as it is
or stops first; it is restarted at any time, and messages are lost at any time. So a client
meets silence but never a malformed reply.
-/

namespace ZmqPractices.LazyPirate

open Czmq Lib
open Peering (reqSend reqRecv)

/-! ### The server -/

/-- Where the server is: at its receive, between it and the answer to this request of this
socket, or past its loop. -/
inductive ServerPhase where
  | receiving
  | answering (socket request : Frame)
  | exited
deriving DecidableEq, Repr

/-- The variables of the server's `main`. -/
structure Server where
  phase : ServerPhase
  cycles : Nat
deriving DecidableEq, Repr

def Server.start : Server := ⟨.receiving, 0⟩

/-- A request. After three cycles a crash may be simulated; `crash` is the outcome of
`randof (3) == 0`. -/
def Server.receive (server : Server) (socket request : Frame) (crash : Bool) : Server :=
  let server := { server with cycles := server.cycles + 1 }
  if 3 < server.cycles ∧ crash then { server with phase := .exited }
  else { server with phase := .answering socket request }

/-! ### The system -/

/-- The clients with their connections, the server and, for the statements only, the requests
the server has answered, newest first. -/
structure State (Name : Type) where
  front : Front Name
  server : Server
  served : List Sent

/-- A step of the clients or of their connections, a step of the server, or its restart. -/
inductive Label (Name : Type) where
  | front (step : FrontStep Name)
  | receive (socket : Frame) (crash : Bool)
  | answer
  | restart

variable {Name : Type} [DecidableEq Name]

def step (s : State Name) : Label Name → Option (State Name)
  | .front step => (frontStep s.front step).map fun front => { s with front := front }
  | .receive socket crash =>
      if s.server.phase = .receiving then do
        let (msg, front) ← s.front.take socket
        -- REP keeps the envelope, up to the empty frame, for the reply
        match reqRecv msg with
        | some (frame :: _) =>
            return { s with
              front := front
              server := s.server.receive socket (zframeStrdup frame) crash }
        | _ => return { s with front := front }
      else none
  | .answer =>
      match s.server.phase with
      | .answering socket request =>
          (zstrSend .posix request).map fun string =>
            { s with
              front := s.front.give socket (reqSend [string])
              server := { s.server with phase := .receiving }
              served := (socket, request) :: s.served }
      | _ => none
  | .restart => some { s with server := .start }

/-- The clients and the server from their start. -/
def lazyPirate (Name : Type) [DecidableEq Name] : System (State Name) (Label Name) where
  start := ⟨.start, .start, []⟩
  step := step

/-! ### The request in the server's hands -/

def ServerPhase.held : ServerPhase → List Sent
  | .answering socket request => [(socket, request)]
  | _ => []

/-- The front with the server behind it. -/
structure Echoes (s : State Name) : Prop where
  backed : Backed s.front s.server.phase.held [] s.served
  plain : ∀ r ∈ s.server.phase.held, Plain r.2

section Steps

variable {s s' : State Name}

theorem Echoes.receive {socket : Frame} {crash : Bool} (before : Echoes s)
    (taken : step s (.receive socket crash) = some s') : Echoes s' := by
  obtain ⟨receiving, taken⟩ := Option.ite_none_right_eq_some.mp taken
  obtain ⟨⟨msg, front⟩, given, taken⟩ := Option.bind_eq_some_iff.mp taken
  obtain ⟨text, rfl, -, plain, backed⟩ := before.backed.take given
  obtain rfl := Option.some.inj taken
  -- the server has the request in its hands, or has stopped
  have hands : (s.server.receive socket (zframeStrdup text) crash).phase.held.Sublist
      [(socket, text)] := by
    rw [plain.zstrRecv, Server.receive]
    dsimp only
    split
    · exact List.nil_sublist _
    · exact .refl _
  rw [receiving] at backed
  refine ⟨backed.fewer hands.subperm (.refl _), fun r mem => ?_⟩
  obtain rfl := List.mem_singleton.mp (hands.subset mem)
  exact plain

theorem Echoes.answer (before : Echoes s) (taken : step s .answer = some s') : Echoes s' := by
  simp only [step] at taken
  split at taken
  · rename_i socket request answering
    obtain ⟨backed, held⟩ := before
    rw [answering] at backed held
    have plain : Plain request := held (socket, request) List.mem_cons_self
    rw [plain.zstrSend] at taken
    obtain rfl := Option.some.inj taken
    exact ⟨backed.process.give plain, fun r mem => absurd mem List.not_mem_nil⟩
  · cases taken

theorem Echoes.step {l : Label Name} (before : Echoes s)
    (taken : (lazyPirate Name).step s l = some s') : Echoes s' := by
  cases l with
  | front step =>
      obtain ⟨front, moved, rfl⟩ := Option.map_eq_some_iff.mp taken
      exact ⟨before.backed.front moved, before.plain⟩
  | receive socket crash => exact before.receive taken
  | answer => exact before.answer taken
  | restart =>
      obtain rfl := Option.some.inj taken
      exact ⟨before.backed.fewer List.nil_subperm (.refl _),
        fun r mem => absurd mem List.not_mem_nil⟩

end Steps

theorem echoes_of_reachable {s : State Name} (reach : Reachable (lazyPirate Name) s) : Echoes s :=
  reach.invariant Echoes ⟨.start, fun _ mem => absurd mem List.not_mem_nil⟩
    fun _ _ _ before taken => before.step taken

/-- **A Lazy Pirate client and its server.** In every reachable state of any number of
clients and a server that crashes and restarts, with messages lost at any time: every
client gives up in time; a reply on its way to a client's socket is the only one and
repeats the request the client waits for; no request is processed twice or without being
sent, and none of a client's requests more than `requestRetries` times; and the server
is never stuck with a request it cannot send back. -/
theorem echoes_in_time {s : State Name} (reach : Reachable (lazyPirate Name) s) :
    (∀ name v, s.front.clients.session name = some v →
      Served s.front.clients s.front.answered s.served name v) ∧
    AtMostOnce s.front.clients s.served ∧
    ∀ socket request, s.server.phase = .answering socket request →
      ∃ s', (lazyPirate Name).step s .answer = some s' := by
  obtain ⟨backed, held⟩ := echoes_of_reachable reach
  refine ⟨backed.served.1, backed.served.2, ?_⟩
  intro socket request answering
  rw [answering] at held
  have plain : Plain request := held (socket, request) List.mem_cons_self
  exact ⟨_, by simp only [lazyPirate, LazyPirate.step, answering, plain.zstrSend]; rfl⟩

/-- The first reply is lost, and the client gets the one to its second try. -/
def replyLost : List (Label Bool) :=
  [.front (.act true (.start [0, 1])), .front (.act true (.send 0x2a)), .receive [0, 1] false,
    .answer, .front (.lose 0), .front (.act true (.timeout [0, 2])), .receive [0, 2] false,
    .answer, .front (.reply true)]

/-- The request was processed for both of its tries, and answered once. -/
theorem echoes_in_time_reply_lost : ∃ (s : State Bool) (v : Session),
    s.front.clients.session true = some v ∧ v.client.phase = .outer ∧ v.client.retriesLeft = 3 ∧
      s.served = [([0, 2], requestText 1 0x2a), ([0, 1], requestText 1 0x2a)] ∧
      Served s.front.clients s.front.answered s.served true v ∧
      AtMostOnce s.front.clients s.served := by
  have ran : ((lazyPirate Bool).exec (lazyPirate Bool).start replyLost).bind (fun s =>
      (s.front.clients.session true).map fun v =>
        (v.client.phase, v.client.retriesLeft, s.served)) =
      some (.outer, 3, [([0, 2], requestText 1 0x2a), ([0, 1], requestText 1 0x2a)]) := by decide
  obtain ⟨s, done, seen⟩ := Option.bind_eq_some_iff.mp ran
  obtain ⟨v, found, seen⟩ := Option.map_eq_some_iff.mp seen
  obtain ⟨phase, seen⟩ := Prod.mk.inj seen
  obtain ⟨retries, served⟩ := Prod.mk.inj seen
  obtain ⟨each, once, -⟩ := echoes_in_time (Reachable.start.exec done)
  exact ⟨s, v, found, phase, retries, served, each true v found, once⟩

end ZmqPractices.LazyPirate
