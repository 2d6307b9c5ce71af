import ZmqPractices.Peering.System

/-!
The envelopes of the peering prototype: which frames a message can have on each
connection, and whose task it carries.

A task gets one address frame from the frontend it enters by, a second one when it
crosses to a peer, and each is stripped on the way back. `Shaped` lists the shapes and
`tokenOf` reads off the client and the task; `Relays` is what a broker owes to every
message it reads, whichever of its sockets that is: what it sends on has again a shape,
and carries the same task of the same client.

The routing tells READY, replies to a peer and replies to a client apart by their
first frame only. That works because a client identity begins with a zero byte and a
broker name neither with that nor with the byte of READY.
-/

namespace ZmqPractices.Peering

open Czmq Lib

variable {cluster : Cluster}

/-! ### Shapes -/

/-- The messages that can be on their way on each connection. -/
inductive Shaped (cluster : Cluster) : Chan → Msg → Prop where
  | request {self client task : Frame} (zeroLed : ZeroLed client) :
      Shaped cluster (.toLocalfe self client) [[], task]
  | reply {self client task : Frame} (zeroLed : ZeroLed client) :
      Shaped cluster (.toClient self client) [[], task]
  | ready {self worker : Frame} : Shaped cluster (.toLocalbe self worker) [[], workerReady]
  | ownTask {self worker client task : Frame} (zeroLed : ZeroLed client) :
      Shaped cluster (.toWorker self worker) [[], client, [], task]
  | ownAnswer {self worker client task : Frame} (zeroLed : ZeroLed client) :
      Shaped cluster (.toLocalbe self worker) [[], client, [], task]
  | peerTask {self worker peer client task : Frame} (known : peer ∈ cluster.peers self)
      (zeroLed : ZeroLed client) :
      Shaped cluster (.toWorker self worker) [[], peer, client, [], task]
  | peerAnswer {self worker peer client task : Frame} (known : peer ∈ cluster.peers self)
      (zeroLed : ZeroLed client) :
      Shaped cluster (.toLocalbe self worker) [[], peer, client, [], task]
  | forwarded {self peer client task : Frame} (known : peer ∈ cluster.peers self)
      (zeroLed : ZeroLed client) : Shaped cluster (.toCloudfe self peer) [client, [], task]
  | returned {self peer client task : Frame} (zeroLed : ZeroLed client) :
      Shaped cluster (.toCloudbe self peer) [client, [], task]

/-- A task, with its client under the name of the client's broker. -/
abbrev Token := (Frame × Frame) × Frame

/-- The task a packet carries. -/
def tokenOf : Chan × Msg → Option Token
  | (.toLocalfe self client, [_, task]) => some ((self, client), task)
  | (.toClient self client, [_, task]) => some ((self, client), task)
  | (.toWorker self _, [_, client, _, task]) => some ((self, client), task)
  | (.toWorker _ _, [_, peer, client, _, task]) => some ((peer, client), task)
  | (.toLocalbe self _, [_, client, _, task]) => some ((self, client), task)
  | (.toLocalbe _ _, [_, peer, client, _, task]) => some ((peer, client), task)
  | (.toCloudfe _ peer, [client, _, task]) => some ((peer, client), task)
  | (.toCloudbe self _, [client, _, task]) => some ((self, client), task)
  | _ => none

/-- What a worker receives it can send back: the shapes of the two directions agree,
and so do the tasks. -/
theorem Shaped.answer {self worker : Frame} {msg : Msg}
    (shaped : Shaped cluster (.toWorker self worker) msg) :
    Shaped cluster (.toLocalbe self worker) msg ∧
      tokenOf (.toLocalbe self worker, msg) = tokenOf (.toWorker self worker, msg) := by
  cases shaped with
  | ownTask zeroLed => exact ⟨.ownAnswer zeroLed, rfl⟩
  | peerTask known zeroLed => exact ⟨.peerAnswer known zeroLed, rfl⟩

/-- Every shape a REQ socket can be handed begins with the empty frame. -/
theorem Shaped.reqRecv {self worker : Frame} {msg : Msg}
    (shaped : Shaped cluster (.toWorker self worker) msg) :
    ∃ content, reqRecv msg = some content ∧ reqSend content = msg := by
  cases shaped with
  | ownTask => exact ⟨_, rfl, rfl⟩
  | peerTask => exact ⟨_, rfl, rfl⟩

/-! ### First frames -/

/-- A client identity is not the name of a peer. -/
theorem not_mem_peers_of_zeroLed {self client : Frame} (named : self ∈ cluster.names)
    (zeroLed : ZeroLed client) : client ∉ cluster.peers self := by
  intro mem
  apply cluster.names_nulFree client (cluster.peers_named self named client mem)
  exact List.mem_of_mem_head? (Option.mem_def.mpr zeroLed)

/-- A frame that begins with zero has a first byte, and it is not READY's. -/
theorem ZeroLed.eq_cons {client : Frame} (zeroLed : ZeroLed client) :
    ∃ bytes, client = 0 :: bytes := by
  cases client with
  | nil => cases zeroLed
  | cons byte bytes => exact ⟨bytes, by rw [Option.some.inj zeroLed]⟩

/-- A broker name has a first byte, and it is not READY's. -/
theorem eq_cons_of_mem_names {self : Frame} (named : self ∈ cluster.names) :
    ∃ byte bytes, self = byte :: bytes ∧ workerReady ≠ [byte] := by
  have not_ready := cluster.names_not_ready self named
  cases self with
  | nil => exact absurd rfl (cluster.names_ne_nil _ named)
  | cons byte bytes =>
      refine ⟨byte, bytes, rfl, fun ready => not_ready ?_⟩
      rw [List.head?_cons, ← (List.cons.inj ready).1]

/-! ### Hops -/

/-- What a broker sends on for a message it read carries the same task, in a shape
again. -/
def Relays (cluster : Cluster) (self : Frame) (chan : Chan) (msg : Msg) (out : Option Output) :
    Prop :=
  Shaped cluster chan msg → ∀ packet, out.bind (address self) = some packet →
    Shaped cluster packet.1 packet.2 ∧ tokenOf packet = tokenOf (chan, msg)

section Hops

variable {b b' : Broker} {self : Frame} {msg : Msg} {out : Option Output}

/-- A reply of a local worker that is not READY is routed by its first frame. -/
theorem localbeReply_answer (b : Broker) (worker : Frame) {byte : UInt8} (bytes : Frame)
    (content : Msg) (not_ready : workerReady ≠ [byte]) :
    localbeReply b (worker :: [] :: (byte :: bytes) :: content) =
      some ({ b with
          availableWorkers := b.availableWorkers.append worker
          localCapacity := b.localCapacity + 1 },
        some (if byte :: bytes ∈ b.peers then .cloudfe ((byte :: bytes) :: content)
          else .localfe ((byte :: bytes) :: content))) := by
  simp [localbeReply, not_ready, routeReply_cons]

/-- A reply of a peer is routed by the frame behind the peer's identity. -/
theorem cloudbeReply_answer (b : Broker) (peer : Frame) (byte : UInt8) (bytes : Frame)
    (content : Msg) :
    cloudbeReply b (peer :: (byte :: bytes) :: content) =
      some (b, some (if byte :: bytes ∈ b.peers then .cloudfe ((byte :: bytes) :: content)
        else .localfe ((byte :: bytes) :: content))) := by
  simp [cloudbeReply, routeReply_cons]

theorem localbeReply_relays {worker : Frame} (named : self ∈ cluster.names)
    (peers : b.peers = cluster.peers self)
    (done : localbeReply b (worker :: msg) = some (b', out)) :
    Relays cluster self (.toLocalbe self worker) msg out := by
  intro shaped packet sent
  cases shaped with
  | ready =>
      obtain rfl : none = out := (Prod.mk.inj (Option.some.inj done)).2
      cases sent
  | ownAnswer zeroLed =>
      have foreign := not_mem_peers_of_zeroLed named zeroLed
      obtain ⟨bytes, rfl⟩ := zeroLed.eq_cons
      rw [localbeReply_answer b worker bytes _ (by decide), peers, if_neg foreign] at done
      obtain rfl := (Prod.mk.inj (Option.some.inj done)).2
      obtain rfl := Option.some.inj sent
      exact ⟨.reply zeroLed, rfl⟩
  | peerAnswer known zeroLed =>
      obtain ⟨byte, bytes, rfl, not_ready⟩ :=
        eq_cons_of_mem_names (cluster.peers_named self named _ known)
      rw [localbeReply_answer b worker bytes _ not_ready, peers, if_pos known] at done
      obtain rfl := (Prod.mk.inj (Option.some.inj done)).2
      obtain rfl := Option.some.inj sent
      exact ⟨.returned zeroLed, rfl⟩

theorem cloudbeReply_relays {peer : Frame} (named : self ∈ cluster.names)
    (peers : b.peers = cluster.peers self)
    (done : cloudbeReply b (peer :: msg) = some (b', out)) :
    Relays cluster self (.toCloudbe self peer) msg out := by
  intro shaped packet sent
  cases shaped with
  | returned zeroLed =>
      have foreign := not_mem_peers_of_zeroLed named zeroLed
      obtain ⟨bytes, rfl⟩ := zeroLed.eq_cons
      rw [cloudbeReply_answer, peers, if_neg foreign] at done
      obtain rfl := (Prod.mk.inj (Option.some.inj done)).2
      obtain rfl := Option.some.inj sent
      exact ⟨.reply zeroLed, rfl⟩

theorem localfeRequest_relays {client : Frame} {rand : Nat} (named : self ∈ cluster.names)
    (peers : b.peers = cluster.peers self)
    (done : routeRequest b rand (client :: msg) = some (b', out)) :
    Relays cluster self (.toLocalfe self client) msg out := by
  intro shaped packet sent
  cases shaped with
  | request zeroLed =>
      rcases routeRequest_cases done with ⟨worker, _, _, _, rfl⟩ | ⟨_, _, peer, known, rfl⟩
      · obtain rfl := Option.some.inj sent
        exact ⟨.ownTask zeroLed, rfl⟩
      · obtain rfl := Option.some.inj sent
        rw [peers] at known
        exact ⟨.forwarded (cluster.peers_symm self named peer known) zeroLed, rfl⟩

/-- A request from a peer is not forwarded a second time, since the cloud frontend is
read only while there is local capacity. -/
theorem cloudfeRequest_relays {peer : Frame} {rand : Nat} (capacity : b.localCapacity ≠ 0)
    (done : routeRequest b rand (peer :: msg) = some (b', out)) :
    Relays cluster self (.toCloudfe self peer) msg out := by
  intro shaped packet sent
  cases shaped with
  | forwarded known zeroLed =>
      rcases routeRequest_cases done with ⟨worker, _, _, _, rfl⟩ | ⟨empty, _⟩
      · obtain rfl := Option.some.inj sent
        exact ⟨.peerTask known zeroLed, rfl⟩
      · exact absurd empty capacity

end Hops

end ZmqPractices.Peering
