import ZmqPractices.LazyPirate.Requests
import ZmqPractices.Lib.Channel
import ZmqPractices.Peering.Envelopes

/-!
Any number of Lazy Pirate clients, and what they need of a service.

A client opens a socket when it starts and a new one after each timeout, and the service
knows a socket by the identity that its own gives to the connection. `exchange` is the
service at its plainest: it holds requests, turns a request into a reply with the same
text, once, and may keep either for ever. In it no client ever gets a malformed reply
(`Echoing`), so none sends a text more than `requestRetries` times, and none is processed
more often than it was sent.

A server, or a queue with its workers, is related to the exchange by `Within`: it holds no
more requests and no more replies.
-/

namespace ZmqPractices.LazyPirate

open Czmq Lib
open Peering (ZeroLed reqSend reqRecv)

/-- A request as the service sees it: the identity of the socket, and the text. -/
abbrev Sent := Frame × Frame

/-- A running client, and the identity that its socket has with the service. -/
structure Session where
  client : Client
  socket : Frame
deriving DecidableEq, Repr

/-- The clients by name, the identities of all their sockets so far, and, for the statements
only, what each has sent, newest first. -/
structure Clients (Name : Type) where
  session : Name → Option Session
  sockets : List Frame
  transmitted : List (Name × Sent)

/-- A client starts, enters its outer loop with a random number, gets no reply in time and
opens the socket given if it tries again, leaves its loop, or is interrupted. -/
inductive Act where
  | start (socket : Frame)
  | send (rand : Nat)
  | timeout (socket : Frame)
  | leave
  | interrupt
deriving DecidableEq, Repr

variable {Name : Type} [DecidableEq Name]

/-- An identity that a ROUTER or REP socket makes for a new connection. -/
def Clients.Fresh (s : Clients Name) (socket : Frame) : Prop :=
  ZeroLed socket ∧ socket ∉ s.sockets

instance (s : Clients Name) (socket : Frame) : Decidable (s.Fresh socket) :=
  inferInstanceAs (Decidable (_ ∧ _))

def Clients.setSession (s : Clients Name) (name : Name) (v : Session) : Clients Name :=
  { s with session := Function.update s.session name (some v) }

/-- The client sends its request on its socket. -/
def Clients.transmit (s : Clients Name) (name : Name) (v : Session) : Clients Name × Option Sent :=
  ({ s.setSession name v with
      transmitted := (name, v.socket, v.client.request) :: s.transmitted },
    some (v.socket, v.client.request))

/-- A step of the client that keeps its socket and sends nothing. -/
def Clients.move (s : Clients Name) (name : Name) (e : Event) : Option (Clients Name) := do
  let v ← s.session name
  let c ← clientStep v.client e
  return s.setSession name ⟨c, v.socket⟩

/-- The steps of a client but for its replies, with the request it sends. -/
def Clients.act (s : Clients Name) (name : Name) : Act → Option (Clients Name × Option Sent)
  | .start socket =>
      if s.session name = none ∧ s.Fresh socket then
        some ({ s.setSession name ⟨.start, socket⟩ with sockets := socket :: s.sockets }, none)
      else none
  | .send rand => do
      let v ← s.session name
      let c ← clientStep v.client (.send rand)
      return s.transmit name ⟨c, v.socket⟩
  | .timeout socket => do
      let v ← s.session name
      let c ← clientStep v.client .timeout
      if c.phase = .inner then
        -- close the old socket and send the request again on a new one
        if s.Fresh socket then
          return { s with sockets := socket :: s.sockets }.transmit name ⟨c, socket⟩
        else none
      else return (s.setSession name ⟨c, v.socket⟩, none)
  | .leave => (s.move name .leave).map (·, none)
  | .interrupt => (s.move name .interrupt).map (·, none)

/-- What the REQ socket of a client puts on the wire for a request it sends. -/
def wire (sent : Option Sent) : Option (Option (Frame × Msg)) :=
  match sent with
  | none => some none
  | some (socket, text) => (zstrSend .posix text).map fun string => some (socket, reqSend [string])

/-- The clients before the first has started. -/
def Clients.start : Clients Name := ⟨fun _ => none, [], []⟩

/-! ### The exchange -/

/-- The requests that wait, the replies that do, and what has been processed so far. -/
structure Exchange (Name : Type) where
  clients : Clients Name
  pending : List Sent
  answered : List Sent
  processed : List Sent

inductive ExchangeStep (Name : Type) where
  | act (name : Name) (act : Act)
  | process (request : Sent)
  | receive (name : Name) (reply : Frame)

def exchangeStep (s : Exchange Name) : ExchangeStep Name → Option (Exchange Name)
  | .act name act =>
      (s.clients.act name act).map fun (clients, sent) =>
        { s with clients := clients, pending := sent.toList ++ s.pending }
  | .process request =>
      if request ∈ s.pending then
        some { s with
          pending := s.pending.erase request
          answered := request :: s.answered
          processed := request :: s.processed }
      else none
  | .receive name reply => do
      let v ← s.clients.session name
      let clients ← s.clients.move name (.reply reply)
      if (v.socket, reply) ∈ s.answered then
        return { s with clients := clients, answered := s.answered.erase (v.socket, reply) }
      else none

def exchange (Name : Type) [DecidableEq Name] : System (Exchange Name) (ExchangeStep Name) where
  start := ⟨.start, [], [], []⟩
  step := exchangeStep

/-! ### Services within the exchange -/

/-- A service with these clients, that holds these requests and replies and has processed
these requests, holds no more than the exchange. -/
structure Within (clients : Clients Name) (pending answered processed : List Sent)
    (t : Exchange Name) : Prop where
  clients : t.clients = clients
  pending : pending.Subperm t.pending
  answered : answered.Subperm t.answered
  processed : t.processed = processed

section Within

variable {clients clients' : Clients Name} {pending answered processed : List Sent}
  {t : Exchange Name} {name : Name}

omit [DecidableEq Name] in
/-- Holding fewer requests and replies, in any order. -/
theorem Within.fewer {pending' answered' : List Sent}
    (within : Within clients pending answered processed t)
    (requests : pending'.Subperm pending) (replies : answered'.Subperm answered) :
    Within clients pending' answered' processed t :=
  ⟨within.clients, requests.trans within.pending, replies.trans within.answered, within.processed⟩

theorem Within.act {act : Act} {sent : Option Sent}
    (within : Within clients pending answered processed t)
    (acted : clients.act name act = some (clients', sent)) :
    ∃ t', (exchange Name).step t (.act name act) = some t' ∧
      Within clients' (sent.toList ++ pending) answered processed t' := by
  refine ⟨{ t with clients := clients', pending := sent.toList ++ t.pending }, ?_, ?_⟩
  · simp only [exchange, exchangeStep, within.clients, acted, Option.map_some]
  · exact ⟨rfl, (List.Subperm.refl _).append within.pending, within.answered, within.processed⟩

theorem Within.process {request : Sent}
    (within : Within clients (request :: pending) answered processed t) :
    ∃ t', (exchange Name).step t (.process request) = some t' ∧
      Within clients pending (request :: answered) (request :: processed) t' := by
  have mem : request ∈ t.pending := within.pending.subset List.mem_cons_self
  refine ⟨⟨t.clients, t.pending.erase request, request :: t.answered, request :: t.processed⟩,
    if_pos mem, within.clients, ?_, ?_, ?_⟩
  · have same := List.perm_cons_erase mem
    exact (List.subperm_cons request).mp (same.subperm_left.mp within.pending)
  · exact (List.subperm_cons request).mpr within.answered
  · rw [within.processed]

theorem Within.receive {v : Session} {reply : Frame}
    (within : Within clients pending ((v.socket, reply) :: answered) processed t)
    (found : clients.session name = some v)
    (moved : clients.move name (.reply reply) = some clients') :
    ∃ t', (exchange Name).step t (.receive name reply) = some t' ∧
      Within clients' pending answered processed t' := by
  have mem : (v.socket, reply) ∈ t.answered := within.answered.subset List.mem_cons_self
  refine ⟨{ t with clients := clients', answered := t.answered.erase (v.socket, reply) }, ?_, ?_⟩
  · simp only [exchange, exchangeStep, within.clients, found, moved, Option.bind_eq_bind,
      Option.bind_some, if_pos mem]
    rfl
  · refine ⟨rfl, within.pending, ?_, within.processed⟩
    have same := List.perm_cons_erase mem
    exact (List.subperm_cons _).mp (same.subperm_left.mp within.answered)

end Within

/-- A plain text goes on the wire as it is. -/
theorem wire_plain {sent : Option Sent} (plain : ∀ r ∈ sent, Plain r.2) :
    wire sent = some (sent.map fun r => (r.1, [[], r.2])) := by
  cases sent with
  | none => rfl
  | some r =>
      rw [wire, (plain r rfl).zstrSend]
      rfl

end ZmqPractices.LazyPirate
