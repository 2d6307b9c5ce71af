import Mathlib.Algebra.BigOperators.Group.Multiset.Basic
import Mathlib.Algebra.Group.Pi.Lemmas
import ZmqPractices.TaskFlow.System

/-!
One hop of a message through a broker.

`Hop` says what a broker does with a message it reads, whichever of its sockets that is: it
sends on a message of the same client, nearer to the client's reply, and the worker of the
message is listed or the first worker of the list goes with it. Each reading function of the
broker has one lemma, which says too that it can handle what can be on its way to it.
-/

namespace ZmqPractices.TaskFlow

open Czmq Lib
open Peering

/-! ### What is in a packet -/

/-- At most so many messages are received until the reply is. A worker that holds a message
is four away. -/
def hops : Chan → Nat
  | .toLocalfe _ _ => 7
  | .toCloudfe _ _ => 6
  | .toWorker _ _ => 5
  | .toLocalbe _ _ => 3
  | .toCloudbe _ _ => 2
  | .toClient _ _ => 1

/-- The broker that a message is for or, on the way to a client or worker, from. -/
def brokerOf : Chan → Frame
  | .toLocalfe self _ => self
  | .toClient self _ => self
  | .toLocalbe self _ => self
  | .toWorker self _ => self
  | .toCloudfe self _ => self
  | .toCloudbe self _ => self

/-- The worker a packet is from or for, under the name of its broker. -/
def seat : Chan × Msg → Frame → Multiset Frame
  | (.toLocalbe self worker, _) => Pi.single self {worker}
  | (.toWorker self worker, _) => Pi.single self {worker}
  | _ => 0

/-- The workers in a broker's list. -/
def Broker.seats (self : Frame) (b : Broker) : Frame → Multiset Frame :=
  Pi.single self (b.workers.items : Multiset Frame)

/-- A worker's message has been read. -/
def Broker.listed (b : Broker) (worker : Frame) : Broker :=
  { b with workers := b.workers.append worker, capacity := b.capacity + 1 }

/-- A request has been sent to the first worker, before these. -/
def Broker.taken (b : Broker) (workers : List Frame) : Broker :=
  { b with workers := ⟨workers, none⟩, capacity := b.capacity - 1 }

/-- The broker `name` reads `p` and sends `q`. -/
structure Hop (cluster : Cluster) (name : Frame) (b : Broker) (p : Chan × Msg) (b' : Broker)
    (q : Option (Chan × Msg)) : Prop where
  peers : b'.peers = b.peers
  counted : b.capacity = b.workers.size → b'.capacity = b'.workers.size
  shaped : ∀ p' ∈ q, Shaped cluster p'.1 p'.2 ∧ brokerOf p'.1 ∈ cluster.names
  nearer : ∀ p' ∈ q, hops p'.1 < hops p.1
  reply : ∀ p' ∈ q, hops p'.1 ≤ 3 → hops p.1 ≤ 3
  token : q.bind tokenOf = tokenOf p
  seats : q.elim 0 seat + b'.seats name = seat p + b.seats name

variable {cluster : Cluster} {self : Frame} {b : Broker}

/-! ### Replies -/

theorem seats_listed (b : Broker) (self worker : Frame) :
    (b.listed worker).seats self = Pi.single self {worker} + b.seats self := by
  rw [Broker.seats, Broker.seats, ← Pi.single_add, add_comm, Broker.listed, ZList.items_append,
    ← Multiset.coe_add]
  rfl

theorem counted_listed (worker : Frame) (counted : b.capacity = b.workers.size) :
    (b.listed worker).capacity = (b.listed worker).workers.size := by
  rw [Broker.listed, ZList.size, ZList.items_append, List.length_append, counted]
  rfl

/-- A worker's reply to `q` is sent on, to a client or a peer. -/
theorem Hop.answer {worker : Frame} {msg : Msg} {q : Chan × Msg}
    (shaped : Shaped cluster q.1 q.2 ∧ brokerOf q.1 ∈ cluster.names) (reply : hops q.1 ≤ 2)
    (nobody : seat q = 0)
    (token : tokenOf q = tokenOf (.toLocalbe self worker, msg)) :
    Hop cluster self b (.toLocalbe self worker, msg) (b.listed worker) (some q) where
  peers := rfl
  counted := counted_listed worker
  shaped := by
    rintro _ ⟨⟩
    exact shaped
  nearer := by
    rintro _ ⟨⟩
    exact Nat.lt_succ_of_le reply
  reply _ _ _ := Nat.le_refl 3
  token := token
  seats := by
    rw [Option.elim_some, nobody, zero_add]
    exact seats_listed b self worker

/-- A reply of a local worker that is not READY is routed by its first frame. -/
theorem routeLocalbe_answer (b : Broker) (worker : Frame) {byte : UInt8} (bytes : Frame)
    (content : Msg) (not_ready : workerReady ≠ [byte]) :
    routeLocalbe b (worker :: [] :: (byte :: bytes) :: content) =
      some (b.listed worker,
        some (if byte :: bytes ∈ b.peers then .cloudfe ((byte :: bytes) :: content)
          else .localfe ((byte :: bytes) :: content))) := by
  have other : (1 : UInt8) ≠ byte := fun same => not_ready (same ▸ rfl)
  simp [routeLocalbe, localbeReply, memcmpData, startsWith, zmsgFirst, workerReady, other,
    routeReply_cons, Broker.listed]

/-- Whatever a worker sent, its broker lists it and sends the reply to the client or its
broker. -/
theorem routeLocalbe_hop {worker : Frame} {msg : Msg} (named : self ∈ cluster.names)
    (peers : b.peers = cluster.peers self) (shaped : Shaped cluster (.toLocalbe self worker) msg) :
    ∃ b' out, routeLocalbe b (worker :: msg) = some (b', out) ∧
      Hop cluster self b (.toLocalbe self worker, msg) b' (out.bind (address self)) := by
  cases shaped with
  | ready =>
      refine ⟨b.listed worker, none, rfl, rfl, counted_listed worker, ?_, ?_, ?_, rfl, ?_⟩
      · exact fun _ absent => absurd absent (Option.not_mem_none _)
      · exact fun _ absent => absurd absent (Option.not_mem_none _)
      · exact fun _ absent => absurd absent (Option.not_mem_none _)
      · exact (zero_add _).trans (seats_listed b self worker)
  | ownAnswer zeroLed =>
      have foreign := not_mem_peers_of_zeroLed named zeroLed
      obtain ⟨bytes, rfl⟩ := zeroLed.eq_cons
      refine ⟨_, _, routeLocalbe_answer b worker bytes _ (by decide), ?_⟩
      rw [peers, if_neg foreign]
      exact .answer ⟨.reply zeroLed, named⟩ (Nat.le_succ 1) rfl rfl
  | peerAnswer known zeroLed =>
      obtain ⟨byte, bytes, rfl, not_ready⟩ :=
        eq_cons_of_mem_names (cluster.peers_named self named _ known)
      refine ⟨_, _, routeLocalbe_answer b worker bytes _ not_ready, ?_⟩
      rw [peers, if_pos known]
      exact .answer ⟨.returned zeroLed, cluster.peers_named self named _ known⟩ (Nat.le_refl 2)
        rfl rfl

/-- A reply of a peer is for a client. -/
theorem routeCloudbe_hop {peer : Frame} {msg : Msg} (named : self ∈ cluster.names)
    (peers : b.peers = cluster.peers self) (shaped : Shaped cluster (.toCloudbe self peer) msg) :
    ∃ b' out, routeCloudbe b (peer :: msg) = some (b', out) ∧
      Hop cluster self b (.toCloudbe self peer, msg) b' (out.bind (address self)) := by
  cases shaped with
  | returned zeroLed =>
      have foreign := not_mem_peers_of_zeroLed named zeroLed
      obtain ⟨bytes, rfl⟩ := zeroLed.eq_cons
      rw [← peers] at foreign
      refine ⟨b, _,
        by rw [routeCloudbe, zmsgUnwrap_cons_cons, routeReply_cons, if_neg foreign]; rfl,
        rfl, id, ?_, ?_, ?_, rfl, ?_⟩
      · rintro _ ⟨⟩
        exact ⟨.reply zeroLed, named⟩
      · rintro _ ⟨⟩
        exact Nat.lt_succ_self 1
      · exact fun _ _ _ => Nat.le_succ 2
      · rfl

/-! ### Requests -/

/-- A request is sent to the first worker of the list. -/
theorem Hop.request {worker : Frame} {workers : List Frame} {p : Chan × Msg} {msg : Msg}
    (named : self ∈ cluster.names) (available : b.workers.items = worker :: workers)
    (shaped : Shaped cluster (.toWorker self worker) msg) (request : 6 ≤ hops p.1)
    (nobody : seat p = 0) (token : tokenOf (.toWorker self worker, msg) = tokenOf p) :
    Hop cluster self b p (b.taken workers) (some (.toWorker self worker, msg)) where
  peers := rfl
  counted count := by
    rw [ZList.size, available, List.length_cons] at count
    show b.capacity - 1 = (workers.length : Int)
    omega
  shaped := by
    rintro _ ⟨⟩
    exact ⟨shaped, named⟩
  nearer := by
    rintro _ ⟨⟩
    exact request
  reply := by
    rintro _ ⟨⟩ (short : 5 ≤ 3)
    exact absurd short (by decide)
  token := token
  seats := by
    have first : (b.workers.items : Multiset Frame) = {worker} + (workers : Multiset Frame) := by
      rw [available, Multiset.singleton_add, Multiset.cons_coe]
    rw [nobody, zero_add, Broker.seats, Broker.seats, first, Pi.single_add]
    rfl

/-- A request that is not rerouted, with a worker available. -/
theorem routeRequest_taken {reroutable : Bool} {rand : Nat} (pick : Nat) (msg : Msg)
    {worker : Frame} {workers : List Frame}
    (stays : ¬ (reroutable = true ∧ b.peers ≠ [] ∧ rand % 5 = 0))
    (available : b.workers.items = worker :: workers) :
    routeRequest b reroutable rand pick msg =
      some (b.taken workers, some (.localbe (worker :: [] :: msg))) := by
  rw [routeRequest, if_neg stays, ZList.pop, available]
  rfl

/-- A request that is rerouted goes to one of the peers. -/
theorem routeRequest_away {reroutable : Bool} {rand : Nat} (pick : Nat) (msg : Msg)
    (leaves : reroutable = true ∧ b.peers ≠ [] ∧ rand % 5 = 0) :
    ∃ peer ∈ b.peers,
      routeRequest b reroutable rand pick msg = some (b, some (.cloudbe (peer :: msg))) := by
  have inside : pick % b.peers.length < b.peers.length :=
    Nat.mod_lt _ (List.length_pos_iff.mpr leaves.2.1)
  refine ⟨_, List.getElem_mem inside, ?_⟩
  rw [routeRequest, if_pos leaves, List.getElem?_eq_getElem inside]
  rfl

/-- Where there is capacity there is a worker in the list. -/
theorem available_of_capacity (counted : b.capacity = b.workers.size) (room : b.capacity ≠ 0) :
    ∃ worker workers, b.workers.items = worker :: workers := by
  cases available : b.workers.items with
  | nil => exact absurd (by rw [counted, ZList.size, available]; rfl) room
  | cons worker workers => exact ⟨worker, workers, rfl⟩

/-- A client's request goes to a worker or, at random, to a peer. -/
theorem localfe_hop {client : Frame} {msg : Msg} (named : self ∈ cluster.names)
    (peers : b.peers = cluster.peers self) (counted : b.capacity = b.workers.size)
    (room : b.capacity ≠ 0) (shaped : Shaped cluster (.toLocalfe self client) msg)
    (rand pick : Nat) :
    ∃ b' out, routeRequest b true rand pick (client :: msg) = some (b', out) ∧
      Hop cluster self b (.toLocalfe self client, msg) b' (out.bind (address self)) := by
  obtain ⟨worker, workers, available⟩ := available_of_capacity counted room
  cases shaped with
  | @request _ _ task zeroLed =>
      by_cases leaves : true = true ∧ b.peers ≠ [] ∧ rand % 5 = 0
      · obtain ⟨peer, known, sent⟩ := routeRequest_away pick [client, [], task] leaves
        rw [peers] at known
        refine ⟨b, _, sent, rfl, id, ?_, ?_, ?_, rfl, rfl⟩
        · rintro _ ⟨⟩
          exact ⟨.forwarded (cluster.peers_symm self named peer known) zeroLed,
            cluster.peers_named self named peer known⟩
        · rintro _ ⟨⟩
          exact Nat.lt_succ_self 6
        · rintro _ ⟨⟩ (short : 6 ≤ 3)
          exact absurd short (by decide)
      · exact ⟨_, _, routeRequest_taken pick _ leaves available,
          .request named available (.ownTask zeroLed) (Nat.le_succ 6) rfl rfl⟩

/-- A peer's request goes to a worker: it is not rerouted a second time. -/
theorem cloudfe_hop {peer : Frame} {msg : Msg} (named : self ∈ cluster.names)
    (counted : b.capacity = b.workers.size) (room : b.capacity ≠ 0)
    (shaped : Shaped cluster (.toCloudfe self peer) msg) :
    ∃ b' out, routeRequest b false 0 0 (peer :: msg) = some (b', out) ∧
      Hop cluster self b (.toCloudfe self peer, msg) b' (out.bind (address self)) := by
  obtain ⟨worker, workers, available⟩ := available_of_capacity counted room
  cases shaped with
  | forwarded known zeroLed =>
      exact ⟨_, _, routeRequest_taken 0 _ (fun leaves => Bool.noConfusion leaves.1) available,
        .request named available (.peerTask known zeroLed) (Nat.le_refl 6) rfl rfl⟩

end ZmqPractices.TaskFlow
