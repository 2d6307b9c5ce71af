import ZmqPractices.Peering.System

/-!
The main loop of one prototype broker, with any messages on its sockets.

`Loop.next` takes the turn apart as the cluster does, but the messages are whatever
the environment sends. Beside the variables of `main` the state records what was
published on `statebe`, and, since the last message read from `statefe`, how many
requests found no available worker and how many messages were sent on `cloudbe`.
-/

namespace ZmqPractices.Peering

open Czmq Lib

/-- The sockets requests come from. -/
inductive Frontend where
  | localfe
  | cloudfe
deriving DecidableEq, Repr

/-- The poll for a request, and the message it finds first. `cloudfe` is polled only
while there is local capacity, and what is not polled has no event. -/
def secondaryPoll (b : Broker) (localfe cloudfe : Option Msg) : Option (Frontend × Msg) :=
  match localfe with
  | some msg => some (.localfe, msg)
  | none => if b.localCapacity ≠ 0 then cloudfe.map fun msg => (.cloudfe, msg) else none

/-- What goes out on `statebe` at the end of a turn. -/
def broadcast (b : Broker) : Option Int :=
  if b.localCapacity ≠ b.previousCapacity then some b.localCapacity else none

/-- The steps of a turn, with what is found on the sockets: `rand` is what
`randof (argc - 2)` gives, `localfe` and `cloudfe` the messages at the front there. -/
inductive LoopStep where
  | poll (localbe cloudbe statefe : Bool)
  | localbe (msg : Msg)
  | cloudbe (msg : Msg)
  | noReply
  | statefe (capacity : Int)
  | noStatus
  | request (rand : Nat) (localfe cloudfe : Option Msg)
  | publish
deriving DecidableEq, Repr

/-- A broker in its loop. `published` is newest first. -/
structure Loop where
  broker : Broker
  turn : Turn
  published : List Int
  unserved : Nat
  forwarded : Nat
deriving DecidableEq, Repr

def Loop.start (self : Frame) (peers : List Frame) : Loop where
  broker := .start self peers
  turn := .poll
  published := []
  unserved := 0
  forwarded := 0

/-- How many messages for `cloudbe` an output is. -/
def sentToCloud : Option Output → Nat
  | some (.cloudbe _) => 1
  | _ => 0

/-- Take over what routing a message left of the variables. -/
def Loop.routed (s : Loop) (turn : Turn) (out : Broker × Option Output) : Loop × Option Output :=
  ({ s with broker := out.1, turn := turn }, out.2)

/-- Take over what routing a request left of the variables. -/
def Loop.requested (s : Loop) (out : Broker × Option Output) : Loop × Option Output :=
  ({ s with
      broker := out.1
      unserved := if s.broker.localCapacity = 0 then s.unserved + 1 else s.unserved
      forwarded := s.forwarded + sentToCloud out.2 }, out.2)

/-- One step of a turn, and what it sends. A broker without peers has not connected its
`statefe`, and reads nothing there. -/
def Loop.next (s : Loop) (step : LoopStep) : Option (Loop × Option Output) :=
  let b := s.broker
  match s.turn, step with
  | .poll, .poll localbe cloudbe statefe =>
      some ({ s with
        broker := { b with previousCapacity := b.localCapacity }
        turn := .reply localbe cloudbe statefe }, none)
  | .reply true _ statefe, .localbe msg => (localbeReply b msg).map (s.routed (.status statefe))
  | .reply false true statefe, .cloudbe msg => (cloudbeReply b msg).map (s.routed (.status statefe))
  | .reply false false statefe, .noReply => some ({ s with turn := .status statefe }, none)
  | .status true, .statefe capacity =>
      if b.peers ≠ [] then
        some ({ s with
          broker := { b with cloudCapacity := capacity }
          turn := .requests
          unserved := 0
          forwarded := 0 }, none)
      else none
  | .status false, .noStatus => some ({ s with turn := .requests }, none)
  | .requests, .request rand localfe cloudfe =>
      if b.localCapacity + b.cloudCapacity ≠ 0 then do
        let (_, msg) ← secondaryPoll b localfe cloudfe
        (routeRequest b rand msg).map s.requested
      else none
  | .requests, .publish =>
      some ({ s with turn := .poll, published := (broadcast b).toList ++ s.published }, none)
  | _, _ => none

/-- The loop as a system. -/
def loop (self : Frame) (peers : List Frame) : System Loop LoopStep where
  start := .start self peers
  step s step := (s.next step).map Prod.fst

/-! ### What a step can do -/

/-- An output of the reply part, to a client or to a peer. -/
inductive Output.IsReply : Option Output → Prop where
  | dropped : Output.IsReply none
  | localfe (msg : Msg) : Output.IsReply (some (.localfe msg))
  | cloudfe (msg : Msg) : Output.IsReply (some (.cloudfe msg))

theorem routeReply_isReply {peers : List Frame} {msg : Msg} {out : Output}
    (done : routeReply peers msg = some out) : Output.IsReply (some out) := by
  induction peers with
  | nil => exact Option.some.inj done ▸ .localfe msg
  | cons peer peers ih =>
      cases msg with
      | nil => cases done
      | cons frame msg =>
          rw [routeReply] at done
          split at done
          · exact Option.some.inj done ▸ .cloudfe _
          · exact ih done

/-- The broker after a message from `worker` on `localbe`. -/
def Broker.listed (b : Broker) (worker : Frame) : Broker :=
  { b with
    availableWorkers := b.availableWorkers.append worker
    localCapacity := b.localCapacity + 1 }

/-- The broker after a request that its longest available worker takes. -/
def Broker.taken (b : Broker) (workers : List Frame) : Broker :=
  { b with availableWorkers := ⟨workers, none⟩, localCapacity := b.localCapacity - 1 }

/-- A message on `localbe` lists the worker whose identity frame it begins with. -/
theorem localbeReply_cases {b b' : Broker} {msg : Msg} {out : Option Output}
    (done : localbeReply b msg = some (b', out)) :
    (∃ worker rest, msg = worker :: rest ∧ b' = b.listed worker) ∧ Output.IsReply out := by
  cases msg with
  | nil => cases done
  | cons worker rest =>
      obtain ⟨content, unwrapped⟩ := zmsgUnwrap_cons worker rest
      simp only [localbeReply, unwrapped] at done
      split at done
      · cases done
      · cases done
      split at done
      · obtain ⟨rfl, rfl⟩ := Prod.mk.inj (Option.some.inj done)
        exact ⟨⟨worker, rest, rfl, rfl⟩, .dropped⟩
      · obtain ⟨out', routed, same⟩ := Option.map_eq_some_iff.mp done
        obtain ⟨rfl, rfl⟩ := Prod.mk.inj same
        exact ⟨⟨worker, rest, rfl, rfl⟩, routeReply_isReply routed⟩

theorem cloudbeReply_cases {b b' : Broker} {msg : Msg} {out : Option Output}
    (done : cloudbeReply b msg = some (b', out)) : b' = b ∧ Output.IsReply out := by
  simp only [cloudbeReply] at done
  split at done
  · cases done
  · obtain ⟨out', routed, same⟩ := Option.map_eq_some_iff.mp done
    obtain ⟨rfl, rfl⟩ := Prod.mk.inj same
    exact ⟨rfl, routeReply_isReply routed⟩

/-- What a step leaves and sends, by its label. -/
inductive LoopMove (s : Loop) : LoopStep → Loop → Option Output → Prop where
  | poll (localbe cloudbe statefe : Bool) (at_ : s.turn = .poll) :
      LoopMove s (.poll localbe cloudbe statefe)
        { s with
          broker := { s.broker with previousCapacity := s.broker.localCapacity }
          turn := .reply localbe cloudbe statefe } none
  | localbe (worker : Frame) (rest : Msg) (statefe : Bool) {out : Option Output}
      (at_ : s.turn ≠ .poll) (reply : Output.IsReply out) :
      LoopMove s (.localbe (worker :: rest))
        { s with broker := s.broker.listed worker, turn := .status statefe } out
  | cloudbe (msg : Msg) (statefe : Bool) {out : Option Output}
      (at_ : s.turn ≠ .poll) (reply : Output.IsReply out) :
      LoopMove s (.cloudbe msg) { s with turn := .status statefe } out
  | noReply (statefe : Bool) (at_ : s.turn ≠ .poll) :
      LoopMove s .noReply { s with turn := .status statefe } none
  | statefe (capacity : Int) (at_ : s.turn ≠ .poll) (connected : s.broker.peers ≠ []) :
      LoopMove s (.statefe capacity)
        { s with
          broker := { s.broker with cloudCapacity := capacity }
          turn := .requests
          unserved := 0
          forwarded := 0 } none
  | noStatus (at_ : s.turn ≠ .poll) : LoopMove s .noStatus { s with turn := .requests } none
  | taken (rand : Nat) {localfe cloudfe : Option Msg} {socket : Frontend} {msg : Msg}
      (worker : Frame) (workers : List Frame) (at_ : s.turn = .requests)
      (polled : secondaryPoll s.broker localfe cloudfe = some (socket, msg))
      (capacity : s.broker.localCapacity ≠ 0)
      (available : s.broker.availableWorkers.items = worker :: workers) :
      LoopMove s (.request rand localfe cloudfe) { s with broker := s.broker.taken workers }
        (some (.localbe (worker :: [] :: msg)))
  | forwarded (rand : Nat) {localfe cloudfe : Option Msg} {socket : Frontend} {msg : Msg}
      (peer : Frame) (at_ : s.turn = .requests)
      (polled : secondaryPoll s.broker localfe cloudfe = some (socket, msg))
      (capacity : s.broker.localCapacity = 0) (cloud : s.broker.cloudCapacity ≠ 0)
      (found : s.broker.peers[rand]? = some peer) :
      LoopMove s (.request rand localfe cloudfe)
        { s with unserved := s.unserved + 1, forwarded := s.forwarded + 1 }
        (some (.cloudbe (peer :: msg)))
  | publish (at_ : s.turn = .requests) :
      LoopMove s .publish
        { s with turn := .poll, published := (broadcast s.broker).toList ++ s.published } none

section Moves

variable {s s' : Loop} {step : LoopStep} {out : Option Output}

theorem request_move {rand : Nat} {localfe cloudfe : Option Msg} {socket : Frontend} {msg : Msg}
    (at_ : s.turn = .requests) (room : s.broker.localCapacity + s.broker.cloudCapacity ≠ 0)
    (polled : secondaryPoll s.broker localfe cloudfe = some (socket, msg))
    (done : (routeRequest s.broker rand msg).map s.requested = some (s', out)) :
    LoopMove s (.request rand localfe cloudfe) s' out := by
  obtain ⟨⟨b, out'⟩, routed, same⟩ := Option.map_eq_some_iff.mp done
  obtain ⟨rfl, rfl⟩ := Prod.mk.inj same
  simp only [routeRequest] at routed
  split at routed
  · rename_i capacity
    cases available : s.broker.availableWorkers.items with
    | nil => simp [ZList.pop, available] at routed
    | cons worker workers =>
        simp only [ZList.pop, available, Option.some.injEq, Prod.mk.injEq] at routed
        obtain ⟨rfl, rfl⟩ := routed
        simp only [if_neg capacity, sentToCloud, Nat.add_zero]
        exact .taken rand worker workers at_ polled capacity available
  · rename_i capacity
    have capacity := not_not.mp capacity
    split at routed
    · cases routed
    · rename_i peer found
      obtain ⟨rfl, rfl⟩ := Prod.mk.inj (Option.some.inj routed)
      have cloud : s.broker.cloudCapacity ≠ 0 := by simpa [capacity] using room
      simp only [if_pos capacity, sentToCloud]
      exact .forwarded rand peer at_ polled capacity cloud found

theorem next_move (done : s.next step = some (s', out)) : LoopMove s step s' out := by
  simp only [Loop.next] at done
  split at done
  · rename_i at_
    obtain ⟨rfl, rfl⟩ := Prod.mk.inj (Option.some.inj done)
    exact .poll _ _ _ at_
  · rename_i at_
    obtain ⟨⟨b, out'⟩, routed, same⟩ := Option.map_eq_some_iff.mp done
    obtain ⟨rfl, rfl⟩ := Prod.mk.inj same
    obtain ⟨⟨worker, rest, rfl, rfl⟩, reply⟩ := localbeReply_cases routed
    exact .localbe worker rest _ (at_ ▸ Turn.noConfusion) reply
  · rename_i at_
    obtain ⟨⟨b, out'⟩, routed, same⟩ := Option.map_eq_some_iff.mp done
    obtain ⟨rfl, rfl⟩ := Prod.mk.inj same
    obtain ⟨rfl, reply⟩ := cloudbeReply_cases routed
    exact .cloudbe _ _ (at_ ▸ Turn.noConfusion) reply
  · rename_i at_
    obtain ⟨rfl, rfl⟩ := Prod.mk.inj (Option.some.inj done)
    exact .noReply _ (at_ ▸ Turn.noConfusion)
  · rename_i at_
    split at done
    · rename_i connected
      obtain ⟨rfl, rfl⟩ := Prod.mk.inj (Option.some.inj done)
      exact .statefe _ (at_ ▸ Turn.noConfusion) connected
    · cases done
  · rename_i at_
    obtain ⟨rfl, rfl⟩ := Prod.mk.inj (Option.some.inj done)
    exact .noStatus (at_ ▸ Turn.noConfusion)
  · rename_i at_
    split at done
    · rename_i room
      obtain ⟨⟨socket, msg⟩, polled, done⟩ := Option.bind_eq_some_iff.mp done
      exact request_move at_ room polled done
    · cases done
  · rename_i at_
    obtain ⟨rfl, rfl⟩ := Prod.mk.inj (Option.some.inj done)
    exact .publish at_
  · cases done

theorem loop_step {self : Frame} {peers : List Frame} (done : s.next step = some (s', out)) :
    (loop self peers).step s step = some s' := by
  simp [loop, done]

theorem loop_move {self : Frame} {peers : List Frame}
    (taken : (loop self peers).step s step = some s') : ∃ out, LoopMove s step s' out := by
  obtain ⟨⟨_, out⟩, done, rfl⟩ := Option.map_eq_some_iff.mp taken
  exact ⟨out, next_move done⟩

end Moves

end ZmqPractices.Peering
