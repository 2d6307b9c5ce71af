import ZmqPractices.LazyPirate.Echo

/-!
The front of a service that Lazy Pirate clients use: the clients and their connections.

What is behind it takes requests from the front and gives replies to it (`Front.take`,
`Front.give`). `Backed` says that the front, with the requests and replies that are held
behind it, stays within a reachable state of the exchange. Each step of the front keeps
that, and so does what is behind it as long as it moves a request from hand to hand, turns
one into its reply, or loses something.
-/

namespace ZmqPractices.LazyPirate

open Czmq Lib
open Peering (ZeroLed reqSend reqRecv)

/-- The two directions of a client's connection, by the identity of its socket. -/
inductive Side where
  | toService (socket : Frame)
  | toClient (socket : Frame)
deriving DecidableEq, Repr

structure Front (Name : Type) where
  clients : Clients Name
  net : Net Side Msg

/-- A step of a client, a reply that reaches it, or the loss of a message. -/
inductive FrontStep (Name : Type) where
  | act (name : Name) (act : Act)
  | reply (name : Name)
  | lose (packet : Nat)

variable {Name : Type}

/-- Put a client's request into the channel of its socket. -/
def sendRequest (net : Net Side Msg) : Option (Frame × Msg) → Net Side Msg
  | none => net
  | some (socket, msg) => net.send (.toService socket) msg

def frontStep [DecidableEq Name] (s : Front Name) : FrontStep Name → Option (Front Name)
  | .act name act => do
      let (clients, sent) ← s.clients.act name act
      let out ← wire sent
      return ⟨clients, sendRequest s.net out⟩
  | .reply name => do
      let v ← s.clients.session name
      let (msg, net) ← Net.recv (.toClient v.socket) s.net
      match reqRecv msg with
      | some (frame :: _) =>
          let clients ← s.clients.move name (.reply frame)
          return ⟨clients, net⟩
      | _ => return { s with net := net }
  | .lose packet => some { s with net := s.net.eraseIdx packet }

/-- The service reads a message of this socket. -/
def Front.take (s : Front Name) (socket : Frame) : Option (Msg × Front Name) :=
  (Net.recv (.toService socket) s.net).map fun (msg, net) => (msg, { s with net := net })

/-- The service sends a message to this socket. -/
def Front.give (s : Front Name) (socket : Frame) (msg : Msg) : Front Name :=
  { s with net := s.net.send (.toClient socket) msg }

def Front.start : Front Name := ⟨.start, []⟩

/-! ### The requests and replies on their way -/

def pendingOf : Side × Msg → Option Sent
  | (.toService socket, [[], text]) => some (socket, text)
  | _ => none

def answeredOf : Side × Msg → Option Sent
  | (.toClient socket, [[], text]) => some (socket, text)
  | _ => none

def Front.pending (s : Front Name) : List Sent := s.net.filterMap pendingOf

def Front.answered (s : Front Name) : List Sent := s.net.filterMap answeredOf

/-- A plain text on its way to the service or back. -/
inductive Shaped : Side × Msg → Prop where
  | request {socket text : Frame} (zeroLed : ZeroLed socket) (plain : Plain text) :
      Shaped (.toService socket, [[], text])
  | reply {socket text : Frame} (plain : Plain text) : Shaped (.toClient socket, [[], text])

theorem Shaped.of_toService {socket : Frame} {msg : Msg}
    (shaped : Shaped (.toService socket, msg)) :
    ∃ text, msg = [[], text] ∧ ZeroLed socket ∧ Plain text := by
  cases shaped with
  | request zeroLed plain => exact ⟨_, rfl, zeroLed, plain⟩

theorem Shaped.of_toClient {socket : Frame} {msg : Msg} (shaped : Shaped (.toClient socket, msg)) :
    ∃ text, msg = [[], text] ∧ Plain text := by
  cases shaped with
  | reply plain => exact ⟨_, rfl, plain⟩

/-! ### What is behind the front -/

/-- The front, with these requests and replies behind it and these requests processed there,
holds no more than the exchange in one of its runs. -/
structure Backed [DecidableEq Name] (s : Front Name) (held returned processed : List Sent) :
    Prop where
  within : ∃ t, Reachable (exchange Name) t ∧
    Within s.clients (held ++ s.pending) (returned ++ s.answered) processed t
  shaped : ∀ packet ∈ s.net, Shaped packet

namespace Backed

variable [DecidableEq Name] {s s' : Front Name}
  {held held' returned returned' processed : List Sent}
  {socket text : Frame}

theorem start : Backed (.start : Front Name) [] [] [] where
  within := ⟨(exchange Name).start, .start, rfl, .refl _, .refl _, rfl⟩
  shaped _ mem := absurd mem List.not_mem_nil

/-- What is lost behind the front, or only put in another order. -/
theorem fewer (before : Backed s held returned processed) (requests : held'.Subperm held)
    (replies : returned'.Subperm returned) : Backed s held' returned' processed := by
  obtain ⟨t, reach, within⟩ := before.within
  exact ⟨⟨t, reach, within.fewer (requests.append (.refl _)) (replies.append (.refl _))⟩,
    before.shaped⟩

/-- A request becomes its reply. -/
theorem process {request : Sent} (before : Backed s (request :: held) returned processed) :
    Backed s held (request :: returned) (request :: processed) := by
  obtain ⟨t, reach, within⟩ := before.within
  obtain ⟨t', moved, within⟩ := within.process
  exact ⟨⟨t', reach.next moved, within⟩, before.shaped⟩

/-- The service takes a request into its hands. -/
theorem take {msg : Msg} (before : Backed s held returned processed)
    (taken : s.take socket = some (msg, s')) :
    ∃ text, msg = [[], text] ∧ ZeroLed socket ∧ Plain text ∧
      Backed s' ((socket, text) :: held) returned processed := by
  obtain ⟨⟨_, net⟩, received, same⟩ := Option.map_eq_some_iff.mp taken
  obtain ⟨rfl, rfl⟩ := Prod.mk.inj same
  obtain ⟨text, rfl, zeroLed, plain⟩ := (before.shaped _ (Net.mem_of_recv received)).of_toService
  obtain ⟨t, reach, within⟩ := before.within
  have requests : s.pending.Perm ((socket, text) :: net.filterMap pendingOf) :=
    Net.filterMap_recv_perm pendingOf received
  have replies : s.answered.Perm (net.filterMap answeredOf) :=
    Net.filterMap_recv_perm answeredOf received
  refine ⟨text, rfl, zeroLed, plain, ⟨t, reach, within.fewer ?_ ?_⟩, ?_⟩
  · exact (List.perm_middle.symm.trans (requests.symm.append_left held)).subperm
  · exact (replies.symm.append_left returned).subperm
  · exact fun packet mem => before.shaped packet (Net.mem_of_mem_recv received mem)

/-- The service sends a reply from its hands. -/
theorem give (before : Backed s held ((socket, text) :: returned) processed) (plain : Plain text) :
    Backed (s.give socket [[], text]) held returned processed := by
  obtain ⟨t, reach, within⟩ := before.within
  refine ⟨⟨t, reach, within.fewer ?_ ?_⟩, ?_⟩
  · rw [Front.pending, Front.give, Net.filterMap_send]
    exact (List.append_nil (s.net.filterMap pendingOf)).symm ▸ .refl _
  · rw [Front.answered, Front.give, Net.filterMap_send, ← List.append_assoc]
    exact List.perm_append_comm.subperm
  · intro packet mem
    rcases Net.mem_send.mp mem with mem | rfl
    · exact before.shaped packet mem
    · exact .reply plain

theorem act {name : Name} {act : Act} (before : Backed s held returned processed)
    (taken : frontStep s (.act name act) = some s') : Backed s' held returned processed := by
  obtain ⟨⟨clients, sent⟩, acted, taken⟩ := Option.bind_eq_some_iff.mp taken
  obtain ⟨t, reach, within⟩ := before.within
  have plain : ∀ r ∈ sent, Plain r.2 ∧ ZeroLed r.1 := by
    rintro r rfl
    exact (echoing_of_reachable reach).plain_sent (within.clients ▸ acted)
  simp only [wire_plain fun r mem => (plain r mem).1, Option.bind_eq_bind,
    Option.bind_some] at taken
  obtain rfl := Option.some.inj taken
  obtain ⟨t', moved, within⟩ := within.act acted
  cases sent with
  | none => exact ⟨⟨t', reach.next moved, within⟩, before.shaped⟩
  | some r =>
      refine ⟨⟨t', reach.next moved, within.fewer (List.Perm.subperm ?_) (List.Perm.subperm ?_)⟩,
        ?_⟩
      · rw [Front.pending, Option.map_some, sendRequest, Net.filterMap_send, ← List.append_assoc]
        exact List.perm_append_comm
      · rw [Front.answered, Option.map_some, sendRequest, Net.filterMap_send]
        exact (List.append_nil (s.net.filterMap answeredOf)).symm ▸ .refl _
      · intro packet mem
        rcases Net.mem_send.mp mem with mem | rfl
        · exact before.shaped packet mem
        · exact .request (plain r rfl).2 (plain r rfl).1

theorem reply {name : Name} (before : Backed s held returned processed)
    (taken : frontStep s (.reply name) = some s') : Backed s' held returned processed := by
  obtain ⟨v, found, taken⟩ := Option.bind_eq_some_iff.mp taken
  obtain ⟨⟨msg, net⟩, received, taken⟩ := Option.bind_eq_some_iff.mp taken
  obtain ⟨text, rfl, -⟩ := (before.shaped _ (Net.mem_of_recv received)).of_toClient
  obtain ⟨clients, moved, taken⟩ := Option.bind_eq_some_iff.mp taken
  obtain rfl := Option.some.inj taken
  obtain ⟨t, reach, within⟩ := before.within
  have requests : s.pending.Perm (net.filterMap pendingOf) :=
    Net.filterMap_recv_perm pendingOf received
  have replies : s.answered.Perm ((v.socket, text) :: net.filterMap answeredOf) :=
    Net.filterMap_recv_perm answeredOf received
  have front : Within s.clients (held ++ net.filterMap pendingOf)
      ((v.socket, text) :: (returned ++ net.filterMap answeredOf)) processed t :=
    within.fewer (requests.symm.append_left held).subperm
      (List.perm_middle.symm.trans (replies.symm.append_left returned)).subperm
  obtain ⟨t', moved', within⟩ := front.receive found moved
  exact ⟨⟨t', reach.next moved', within⟩,
    fun packet mem => before.shaped packet (Net.mem_of_mem_recv received mem)⟩

/-- The steps of the front. -/
theorem front {step : FrontStep Name} (before : Backed s held returned processed)
    (taken : frontStep s step = some s') : Backed s' held returned processed := by
  cases step with
  | act name act => exact before.act taken
  | reply name => exact before.reply taken
  | lose packet =>
      obtain rfl := Option.some.inj taken
      obtain ⟨t, reach, within⟩ := before.within
      have rest := List.eraseIdx_sublist s.net packet
      exact ⟨⟨t, reach, within.fewer ((rest.filterMap _).append_left _).subperm
        ((rest.filterMap _).append_left _).subperm⟩,
        fun sent mem => before.shaped sent (rest.subset mem)⟩

/-- What the clients can rely on. -/
theorem served (before : Backed s held returned processed) :
    (∀ name v, s.clients.session name = some v →
      Served s.clients (returned ++ s.answered) processed name v) ∧
    AtMostOnce s.clients processed := by
  obtain ⟨t, reach, within⟩ := before.within
  have echoing := echoing_of_reachable reach
  exact ⟨fun _ _ found => within.served echoing found, within.atMostOnce echoing⟩

end Backed

end ZmqPractices.LazyPirate
