import ZmqPractices.TaskFlow.Hops

/-!
Who has what in the task flow prototype, over whole runs.

`Shapes` is what the parties rely on: the envelopes on the way and in the workers' hands,
unique identities, brokers that know their peers and count their workers. Under it every
step is one of a few moves (`Moved`), and each move hands its message or its worker on: so
the requests and replies in the system are those of the clients that wait (`Ledger.owed`),
and the workers' places are the workers (`Ledger.seats`).
-/

namespace ZmqPractices.TaskFlow

open Czmq Lib
open Peering

variable {cluster : Cluster}

/-! ### Shapes -/

/-- What a worker has in its hands, as the packet it was. -/
def Worker.inHand (w : Worker) : Option (Chan × Msg) :=
  w.task.map fun task => (.toWorker w.self w.identity, reqSend task)

structure Shapes (cluster : Cluster) (s : State) : Prop where
  peers : ∀ self, (s.broker self).peers = cluster.peers self
  counted : ∀ self, (s.broker self).capacity = (s.broker self).workers.size
  clientKeys : (s.clients.map Client.key).Nodup
  workerKeys : (s.workers.map Worker.key).Nodup
  clients : ∀ c ∈ s.clients, c.self ∈ cluster.names ∧ ZeroLed c.identity
  workers : ∀ w ∈ s.workers, w.self ∈ cluster.names ∧ w.socket < 2 ^ 32
  net : ∀ p ∈ s.net, Shaped cluster p.1 p.2 ∧ brokerOf p.1 ∈ cluster.names
  inHand : ∀ w ∈ s.workers, ∀ p ∈ w.inHand, Shaped cluster p.1 p.2

/-- The client whose request or reply a packet is. -/
def asked (p : Chan × Msg) : Multiset (Frame × Frame) := (tokenOf p).elim 0 fun t => {t.1}

/-- The answer is that of this worker, at the client's broker or a peer of it. -/
def Worker.Wrote (cluster : Cluster) (w : Worker) (self text : Frame) : Prop :=
  (w.self = self ∨ w.self ∈ cluster.peers self) ∧ text = answerText w.self w.socket

/-- What a worker answers has the shape of the request and is for the same client. -/
theorem Worker.answer_shaped {w : Worker} {task answer : Msg} (named : w.self ∈ cluster.names)
    (shaped : Shaped cluster (.toWorker w.self w.identity) (reqSend task))
    (written : w.answer task = some answer) :
    Shaped cluster (.toLocalbe w.self w.identity) (reqSend answer) ∧
      asked (.toLocalbe w.self w.identity, reqSend answer) =
        asked (.toWorker w.self w.identity, reqSend task) ∧
      ∀ t, tokenOf (.toLocalbe w.self w.identity, reqSend answer) = some t →
        w.Wrote cluster t.1.1 t.2 := by
  obtain ⟨-, written⟩ := Option.ite_none_right_eq_some.mp written
  obtain rfl := Option.some.inj written
  generalize framed : reqSend task = msg at shaped
  cases shaped with
  | ownTask zeroLed =>
      obtain rfl := (List.cons.inj framed).2
      refine ⟨.ownAnswer zeroLed, rfl, ?_⟩
      rintro _ ⟨⟩
      exact ⟨.inl rfl, rfl⟩
  | peerTask known zeroLed =>
      obtain rfl := (List.cons.inj framed).2
      refine ⟨.peerAnswer known zeroLed, rfl, ?_⟩
      rintro _ ⟨⟩
      exact ⟨.inr (cluster.peers_symm _ named _ known), rfl⟩

/-! ### Moves -/

/-- What a step does when the shapes are kept. -/
inductive Moved (cluster : Cluster) (s : State) : Label → State → Prop
  | hop {self chan msg net b out step} (named : self ∈ cluster.names)
      (received : Net.recv chan s.net = some (msg, net))
      (hop : Hop cluster self (s.broker self) (chan, msg) b (out.bind (address self)))
      (moves : step ≠ .timeout ∧ step ≠ .done) :
      Moved cluster s (.broker self step) (s.routed self b (deliver self net out))
  | turned {self step turn} (quiet : step = .timeout ∨ step = .done) :
      Moved cluster s (.broker self step) (s.setTurn self turn)
  | clientStart {self identity socket}
      (missing : Table.find Client.key (self, identity) s.clients = none)
      (named : self ∈ cluster.names) (zeroLed : ZeroLed identity) :
      Moved cluster s (.client self identity (.start socket))
        { s with clients := ⟨self, identity, socket, false, 0, []⟩ :: s.clients }
  | send {c : Client} (mem : c ∈ s.clients) (idle : c.waiting = false) :
      Moved cluster s (.client c.self c.identity .send)
        { s.setClient c.key .send with
          net := s.net.send (.toLocalfe c.self c.identity)
            (reqSend [requestText c.self c.socket]) }
  | clientReceive {c : Client} {frame : Frame} {net} (mem : c ∈ s.clients)
      (waiting : c.waiting = true)
      (received : Net.recv (.toClient c.self c.identity) s.net = some (reqSend [frame], net)) :
      Moved cluster s (.client c.self c.identity .receive)
        { s.setClient c.key (.receive frame) with net := net }
  | workerStart {self identity socket}
      (missing : Table.find Worker.key (self, identity) s.workers = none)
      (named : self ∈ cluster.names) (bound : socket < 2 ^ 32) :
      Moved cluster s (.worker self identity (.start socket)) { s with
        workers := ⟨self, identity, socket, none⟩ :: s.workers
        net := s.net.send (.toLocalbe self identity) (reqSend [workerReady]) }
  | workerReceive {w : Worker} {task : Msg} {net} (mem : w ∈ s.workers) (idle : w.task = none)
      (received : Net.recv (.toWorker w.self w.identity) s.net = some (reqSend task, net)) :
      Moved cluster s (.worker w.self w.identity .receive)
        { s.setTask w.key (some task) with net := net }
  | reply {w : Worker} {task answer : Msg} (mem : w ∈ s.workers) (busy : w.task = some task)
      (shaped : Shaped cluster (.toLocalbe w.self w.identity) (reqSend answer))
      (same : asked (.toLocalbe w.self w.identity, reqSend answer) =
        asked (.toWorker w.self w.identity, reqSend task))
      (wrote : ∀ t, tokenOf (.toLocalbe w.self w.identity, reqSend answer) = some t →
        w.Wrote cluster t.1.1 t.2) :
      Moved cluster s (.worker w.self w.identity .reply)
        { s.setTask w.key none with
          net := s.net.send (.toLocalbe w.self w.identity) (reqSend answer) }
  | lose {packet : Nat} {p : Chan × Msg} (found : s.net[packet]? = some p) :
      Moved cluster s (.lose packet)
        { s with net := s.net.eraseIdx packet, lost := p :: s.lost }

section Steps

variable {s s' : State} {l : Label}

/-- A broker can handle what it reads. -/
theorem Shapes.moved (shapes : Shapes cluster s) (stepped : Stepped cluster s l s') :
    Moved cluster s l s' := by
  cases stepped with
  | localbe named received done =>
      obtain ⟨b, out, done', hop⟩ := routeLocalbe_hop named (shapes.peers _)
        (shapes.net _ (Net.mem_of_recv received)).1
      obtain ⟨rfl, rfl⟩ := Prod.mk.inj (Option.some.inj (done.symm.trans done'))
      exact .hop named received hop ⟨BrokerStep.noConfusion, BrokerStep.noConfusion⟩
  | cloudbe named received done =>
      obtain ⟨b, out, done', hop⟩ := routeCloudbe_hop named (shapes.peers _)
        (shapes.net _ (Net.mem_of_recv received)).1
      obtain ⟨rfl, rfl⟩ := Prod.mk.inj (Option.some.inj (done.symm.trans done'))
      exact .hop named received hop ⟨BrokerStep.noConfusion, BrokerStep.noConfusion⟩
  | timeout => exact .turned (.inl rfl)
  | cloudfe named room received done =>
      obtain ⟨b, out, done', hop⟩ := cloudfe_hop named (shapes.counted _) room
        (shapes.net _ (Net.mem_of_recv received)).1
      obtain ⟨rfl, rfl⟩ := Prod.mk.inj (Option.some.inj (done.symm.trans done'))
      exact .hop named received hop ⟨BrokerStep.noConfusion, BrokerStep.noConfusion⟩
  | localfe named room received done =>
      obtain ⟨b, out, done', hop⟩ := localfe_hop named (shapes.peers _) (shapes.counted _) room
        (shapes.net _ (Net.mem_of_recv received)).1 _ _
      obtain ⟨rfl, rfl⟩ := Prod.mk.inj (Option.some.inj (done.symm.trans done'))
      exact .hop named received hop ⟨BrokerStep.noConfusion, BrokerStep.noConfusion⟩
  | done => exact .turned (.inr rfl)
  | clientStart missing named zeroLed => exact .clientStart missing named zeroLed
  | send found idle =>
      obtain ⟨rfl, rfl⟩ := client_of_find found
      exact .send (Table.mem_of_find found) idle
  | clientReceive found waiting received =>
      obtain ⟨rfl, rfl⟩ := client_of_find found
      cases (shapes.net _ (Net.mem_of_recv received)).1 with
      | reply zeroLed => exact .clientReceive (Table.mem_of_find found) waiting received
  | workerStart missing named bound => exact .workerStart missing named bound
  | workerReceive found received =>
      have mem := Table.mem_of_find found
      cases (shapes.net _ (Net.mem_of_recv received)).1 with
      | ownTask zeroLed => exact .workerReceive mem rfl received
      | peerTask known zeroLed => exact .workerReceive mem rfl received
  | reply found written =>
      have mem := Table.mem_of_find found
      have shaped := shapes.inHand _ mem _ rfl
      obtain ⟨shaped, same, wrote⟩ :=
        Worker.answer_shaped (shapes.workers _ mem).1 shaped written
      exact .reply mem rfl shaped same wrote
  | lose found => exact .lose found

theorem mem_deliver {self : Frame} {net : Net Chan Msg} {out : Option Output} {p : Chan × Msg} :
    p ∈ deliver self net out ↔ p ∈ net ∨ p ∈ out.bind (address self) := by
  rw [deliver]
  cases out.bind (address self) with
  | none => simp
  | some q => exact Net.mem_send.trans (or_congr_right (eq_comm.trans Option.mem_some_iff.symm))

theorem weight_deliver {M : Type*} [AddCommMonoid M] (part : Chan × Msg → M) (self : Frame)
    (net : Net Chan Msg) (out : Option Output) :
    Net.weight part (deliver self net out) =
      Net.weight part net + (out.bind (address self)).elim 0 part := by
  rw [deliver]
  cases out.bind (address self) with
  | none => exact (add_zero _).symm
  | some q => exact Net.weight_send part net q.1 q.2

theorem Shapes.hop {self : Frame} {chan : Chan} {msg : Msg} {net : Net Chan Msg} {b : Broker}
    {out : Option Output} (shapes : Shapes cluster s)
    (received : Net.recv chan s.net = some (msg, net))
    (hop : Hop cluster self (s.broker self) (chan, msg) b (out.bind (address self))) :
    Shapes cluster (s.routed self b (deliver self net out)) where
  peers other := by
    by_cases here : other = self
    · rw [here, State.routed_self, hop.peers]
      exact shapes.peers self
    · rw [State.routed_ne here]
      exact shapes.peers other
  counted other := by
    by_cases here : other = self
    · rw [here, State.routed_self]
      exact hop.counted (shapes.counted self)
    · rw [State.routed_ne here]
      exact shapes.counted other
  clientKeys := shapes.clientKeys
  workerKeys := shapes.workerKeys
  clients := shapes.clients
  workers := shapes.workers
  net p mem := by
    rcases mem_deliver.mp mem with mem | mem
    · exact shapes.net p (Net.mem_of_mem_recv received mem)
    · exact hop.shaped p mem
  inHand := shapes.inHand

/-- A client writes to itself and the packets change. -/
theorem Shapes.setClient {key : Frame × Frame} {write : Client → Client} {net : Net Chan Msg}
    (shapes : Shapes cluster s)
    (kept : ∀ c, (write c).self = c.self ∧ (write c).identity = c.identity)
    (shaped : ∀ p ∈ net, Shaped cluster p.1 p.2 ∧ brokerOf p.1 ∈ cluster.names) :
    Shapes cluster { s.setClient key write with net := net } where
  peers := shapes.peers
  counted := shapes.counted
  clientKeys := by
    rw [State.setClient, Table.keys_update fun c => Prod.ext (kept c).1 (kept c).2]
    exact shapes.clientKeys
  workerKeys := shapes.workerKeys
  clients c mem := by
    rcases Table.mem_update.mp mem with ⟨mem, -⟩ | ⟨c, inside, -, rfl⟩
    · exact shapes.clients c mem
    · rw [(kept c).1, (kept c).2]
      exact shapes.clients c inside
  workers := shapes.workers
  net := shaped
  inHand := shapes.inHand

/-- A worker takes a task, or is done with it, and the packets change. -/
theorem Shapes.setTask {w : Worker} {task : Option Msg} {net : Net Chan Msg}
    (shapes : Shapes cluster s)
    (taken : ∀ msg ∈ task, Shaped cluster (.toWorker w.self w.identity) (reqSend msg))
    (shaped : ∀ p ∈ net, Shaped cluster p.1 p.2 ∧ brokerOf p.1 ∈ cluster.names) :
    Shapes cluster { s.setTask w.key task with net := net } where
  peers := shapes.peers
  counted := shapes.counted
  clientKeys := shapes.clientKeys
  workerKeys := by
    have kept : ∀ v, Worker.key (Worker.setTask task v) = v.key := fun _ => rfl
    rw [State.setTask, Table.keys_update kept]
    exact shapes.workerKeys
  clients := shapes.clients
  workers v mem := by
    rcases Table.mem_update.mp mem with ⟨mem, -⟩ | ⟨v, inside, -, rfl⟩
    · exact shapes.workers v mem
    · exact shapes.workers v inside
  net := shaped
  inHand v mem p inside := by
    rcases Table.mem_update.mp mem with ⟨mem, -⟩ | ⟨v, -, here, rfl⟩
    · exact shapes.inHand v mem p inside
    · obtain ⟨same, same'⟩ := Prod.mk.inj here
      obtain ⟨msg, held, rfl⟩ := Option.map_eq_some_iff.mp inside
      have shape := taken msg held
      rwa [← same, ← same'] at shape

theorem shaped_send {net : Net Chan Msg} {chan : Chan} {msg : Msg}
    (shaped : ∀ p ∈ net, Shaped cluster p.1 p.2 ∧ brokerOf p.1 ∈ cluster.names)
    (new : Shaped cluster chan msg) (named : brokerOf chan ∈ cluster.names) :
    ∀ p ∈ net.send chan msg, Shaped cluster p.1 p.2 ∧ brokerOf p.1 ∈ cluster.names := by
  intro p mem
  rcases Net.mem_send.mp mem with mem | rfl
  · exact shaped p mem
  · exact ⟨new, named⟩

theorem Shapes.step (shapes : Shapes cluster s) (moved : Moved cluster s l s') :
    Shapes cluster s' := by
  cases moved with
  | hop named received hop moves => exact shapes.hop received hop
  | turned quiet => exact { shapes with }
  | clientStart missing named zeroLed =>
      exact { shapes with
        clientKeys := by
          refine List.nodup_cons.mpr ⟨fun mem => ?_, shapes.clientKeys⟩
          obtain ⟨c, inside, same⟩ := List.mem_map.mp mem
          exact Table.find_eq_none.mp missing c inside same
        clients := List.forall_mem_cons.mpr ⟨⟨named, zeroLed⟩, shapes.clients⟩ }
  | send mem idle =>
      exact shapes.setClient (fun _ => ⟨rfl, rfl⟩)
        (shaped_send shapes.net (.request (shapes.clients _ mem).2) (shapes.clients _ mem).1)
  | clientReceive mem waiting received =>
      exact shapes.setClient (fun _ => ⟨rfl, rfl⟩)
        fun p inside => shapes.net p (Net.mem_of_mem_recv received inside)
  | workerStart missing named bound =>
      exact { shapes with
        workerKeys := by
          refine List.nodup_cons.mpr ⟨fun mem => ?_, shapes.workerKeys⟩
          obtain ⟨w, inside, same⟩ := List.mem_map.mp mem
          exact Table.find_eq_none.mp missing w inside same
        workers := List.forall_mem_cons.mpr ⟨⟨named, bound⟩, shapes.workers⟩
        net := shaped_send shapes.net .ready named
        inHand := List.forall_mem_cons.mpr
          ⟨fun _ absent => absurd absent (Option.not_mem_none _), shapes.inHand⟩ }
  | workerReceive mem idle received =>
      refine shapes.setTask ?_ fun p inside => shapes.net p (Net.mem_of_mem_recv received inside)
      rintro _ ⟨⟩
      exact (shapes.net _ (Net.mem_of_recv received)).1
  | reply mem busy shaped same wrote =>
      exact shapes.setTask (fun _ absent => absurd absent (Option.not_mem_none _))
        (shaped_send shapes.net shaped (shapes.workers _ mem).1)
  | lose found =>
      exact { shapes with
        net := fun p mem => shapes.net p (List.mem_of_mem_eraseIdx mem) }

end Steps

/-! ### Ledgers -/

section Total

variable {M : Type*} [AddCancelCommMonoid M] (part : Chan × Msg → M)

/-- A quantity of the messages, on their way, lost and in hand. -/
def State.total (s : State) : M :=
  Net.weight part s.net + Net.weight part s.lost +
    (s.workers.map fun w => w.inHand.elim 0 part).sum

variable {s : State}

theorem total_send (s : State) (chan : Chan) (msg : Msg) :
    State.total part { s with net := s.net.send chan msg } = s.total part + part (chan, msg) := by
  simp only [State.total, Net.weight_send]
  abel

theorem total_recv {chan : Chan} {msg : Msg} {net : Net Chan Msg}
    (received : Net.recv chan s.net = some (msg, net)) :
    s.total part = part (chan, msg) + State.total part { s with net := net } := by
  simp only [State.total, Net.weight_recv part received]
  abel

theorem total_lose {packet : Nat} {p : Chan × Msg} (found : s.net[packet]? = some p) :
    State.total part { s with net := s.net.eraseIdx packet, lost := p :: s.lost } =
      s.total part := by
  have one : Net.weight part (p :: s.lost) = part p + Net.weight part s.lost := List.sum_cons
  simp only [State.total, Net.weight_eraseIdx part found, one]
  abel

/-- A worker's hands count what is put into them, and no longer what they held. -/
theorem total_setTask {w : Worker} (unique : (s.workers.map Worker.key).Nodup)
    (mem : w ∈ s.workers) (task : Option Msg) :
    (s.setTask w.key task).total part + w.inHand.elim 0 part =
      s.total part + (w.setTask task).inHand.elim 0 part := by
  have hands : ((s.setTask w.key task).workers.map fun w => w.inHand.elim 0 part).sum +
      w.inHand.elim 0 part = (s.workers.map fun w => w.inHand.elim 0 part).sum +
        (w.setTask task).inHand.elim 0 part := Table.sum_update _ unique mem
  rw [State.total, State.total, add_assoc, hands, ← add_assoc]
  rfl

/-- A worker that takes a request has it in its hands. -/
theorem total_taken {w : Worker} {task : Msg} {net : Net Chan Msg}
    (unique : (s.workers.map Worker.key).Nodup) (mem : w ∈ s.workers) (idle : w.task = none)
    (received : Net.recv (.toWorker w.self w.identity) s.net = some (reqSend task, net)) :
    State.total part { s.setTask w.key (some task) with net := net } = s.total part := by
  have hands := total_setTask part unique mem (some task)
  have empty : w.inHand = none := by rw [Worker.inHand, idle, Option.map_none]
  have taken : (s.setTask w.key (some task)).total part =
      part (.toWorker w.self w.identity, reqSend task) +
        State.total part { s.setTask w.key (some task) with net := net } :=
    total_recv part received
  rw [empty, Option.elim_none, add_zero, taken, add_comm (s.total part)] at hands
  exact add_left_cancel hands

/-- A worker that replies sends what it had in its hands, in another message. -/
theorem total_replied {w : Worker} {task msg : Msg} {chan : Chan}
    (unique : (s.workers.map Worker.key).Nodup) (mem : w ∈ s.workers) (busy : w.task = some task)
    (same : part (chan, msg) = part (.toWorker w.self w.identity, reqSend task)) :
    State.total part { s.setTask w.key none with net := s.net.send chan msg } = s.total part := by
  have hands := total_setTask part unique mem none
  have held : w.inHand = some (.toWorker w.self w.identity, reqSend task) := by
    rw [Worker.inHand, busy, Option.map_some]
  rw [held, Option.elim_some, ← same] at hands
  exact (total_send part (s.setTask w.key none) chan msg).trans (hands.trans (add_zero _))

end Total

/-- The client, when it waits for a reply. -/
def Client.asking (c : Client) : Multiset (Frame × Frame) := if c.waiting then {c.key} else 0

def Worker.seat (w : Worker) : Frame → Multiset Frame := Pi.single w.self {w.identity}

/-- The workers in the brokers' lists. -/
def State.listed (s : State) : Frame → Multiset Frame := fun self => (s.broker self).workers.items

/-- The requests and replies are those of the clients that wait, and each worker has one
place: a packet, its hands or its broker's list. -/
structure Ledger (s : State) : Prop where
  owed : s.total asked = (s.clients.map Client.asking).sum
  seats : s.total seat + s.listed = (s.workers.map Worker.seat).sum

section Steps

variable {s s' : State} {l : Label}

theorem listed_routed (s : State) (self : Frame) (b : Broker) (net : Net Chan Msg) :
    (s.routed self b net).listed + (s.broker self).seats self = s.listed + b.seats self := by
  funext other
  by_cases here : other = self
  · subst here
    simp only [Pi.add_apply, State.listed, State.routed_self, Broker.seats, Pi.single_eq_same]
    exact add_comm _ _
  · simp only [Pi.add_apply, State.listed, State.routed_ne here, Broker.seats,
      Pi.single_eq_of_ne here]

theorem asked_hop {self : Frame} {b b' : Broker} {p : Chan × Msg} {q : Option (Chan × Msg)}
    (hop : Hop cluster self b p b' q) : q.elim 0 asked = asked p := by
  rw [asked, ← hop.token]
  cases q with
  | none => rfl
  | some q => rfl

theorem Ledger.hop {self : Frame} {chan : Chan} {msg : Msg} {net : Net Chan Msg} {b : Broker}
    {out : Option Output} (ledger : Ledger s)
    (received : Net.recv chan s.net = some (msg, net))
    (hop : Hop cluster self (s.broker self) (chan, msg) b (out.bind (address self))) :
    Ledger (s.routed self b (deliver self net out)) := by
  have moved {M : Type} [AddCancelCommMonoid M] (part : Chan × Msg → M) :
      State.total part (s.routed self b (deliver self net out)) + part (chan, msg) =
        s.total part + (out.bind (address self)).elim 0 part := by
    rw [total_recv part received]
    simp only [State.total, State.routed, weight_deliver]
    abel
  constructor
  · have same := moved asked
    rw [asked_hop hop] at same
    exact (add_right_cancel same).trans ledger.owed
  · have places := moved seat
    have lists := listed_routed s self b (deliver self net out)
    have seats := hop.seats
    refine Eq.trans (add_right_cancel (?_ : _ + (seat (chan, msg) + (s.broker self).seats self) =
      _ + (seat (chan, msg) + (s.broker self).seats self))) ledger.seats
    rw [add_add_add_comm, places, lists, add_add_add_comm, seats]

/-- A client's write exchanges what it waits for. -/
theorem asking_setClient {c : Client} (write : Client → Client)
    (unique : (s.clients.map Client.key).Nodup) (mem : c ∈ s.clients) :
    ((s.setClient c.key write).clients.map Client.asking).sum + c.asking =
      (s.clients.map Client.asking).sum + (write c).asking :=
  Table.sum_update _ unique mem

/-- A worker's place does not depend on what it is working on. -/
theorem seats_setTask (s : State) (key : Frame × Frame) (task : Option Msg) :
    ((s.setTask key task).workers.map Worker.seat).sum = (s.workers.map Worker.seat).sum := by
  rw [State.setTask, Table.update, List.map_map]
  congr 1
  refine List.map_congr_left fun w _ => ?_
  rw [Function.comp_apply]
  split
  · rfl
  · rfl

theorem Ledger.send {c : Client} {chan : Chan} {msg : Msg} (ledger : Ledger s)
    (unique : (s.clients.map Client.key).Nodup) (mem : c ∈ s.clients) (idle : c.waiting = false)
    (own : asked (chan, msg) = {c.key}) (nobody : seat (chan, msg) = 0) :
    Ledger { s.setClient c.key .send with net := s.net.send chan msg } := by
  constructor
  · have exchanged := asking_setClient .send unique mem
    have sent := total_send asked s chan msg
    have nothing : c.asking = 0 := if_neg (Bool.not_eq_true _ ▸ idle)
    rw [nothing, add_zero] at exchanged
    rw [own, ledger.owed] at sent
    exact sent.trans exchanged.symm
  · have sent := total_send seat s chan msg
    rw [nobody, add_zero] at sent
    exact (congrArg (· + s.listed) sent).trans ledger.seats

theorem Ledger.clientReceive {c : Client} {frame : Frame} {chan : Chan} {msg : Msg}
    {net : Net Chan Msg} (ledger : Ledger s) (unique : (s.clients.map Client.key).Nodup)
    (mem : c ∈ s.clients) (waiting : c.waiting = true)
    (received : Net.recv chan s.net = some (msg, net))
    (own : asked (chan, msg) = {c.key}) (nobody : seat (chan, msg) = 0) :
    Ledger { s.setClient c.key (.receive frame) with net := net } := by
  constructor
  · have exchanged := asking_setClient (.receive frame) unique mem
    have taken := total_recv asked received
    have done : (Client.receive frame c).asking = 0 := rfl
    have waits : c.asking = {c.key} := if_pos waiting
    rw [waits, done, add_zero, ← ledger.owed, taken, own, add_comm] at exchanged
    exact (add_left_cancel exchanged).symm
  · have taken := total_recv seat received
    rw [nobody, zero_add] at taken
    exact (congrArg (· + s.listed) taken.symm).trans ledger.seats

/-- What a worker does with its task, when the packets agree on what it had. -/
theorem Ledger.setTask {key : Frame × Frame} {task : Option Msg} {net : Net Chan Msg}
    (ledger : Ledger s)
    (owed : State.total asked { s.setTask key task with net := net } = s.total asked)
    (seats : State.total seat { s.setTask key task with net := net } = s.total seat) :
    Ledger { s.setTask key task with net := net } where
  owed := owed.trans ledger.owed
  seats := ((congrArg (· + s.listed) seats).trans ledger.seats).trans
    (seats_setTask s key task).symm

theorem Ledger.workerStart {self identity : Frame} (ledger : Ledger s) (socket : Nat) :
    Ledger { s with
      workers := ⟨self, identity, socket, none⟩ :: s.workers
      net := s.net.send (.toLocalbe self identity) (reqSend [workerReady]) } := by
  have listed {M : Type} [AddCancelCommMonoid M] (part : Chan × Msg → M) :
      State.total part { s with
        workers := ⟨self, identity, socket, none⟩ :: s.workers
        net := s.net.send (.toLocalbe self identity) (reqSend [workerReady]) } =
        s.total part + part (.toLocalbe self identity, reqSend [workerReady]) := by
    rw [← total_send part s, State.total, State.total, List.map_cons, List.sum_cons]
    exact congrArg _ (zero_add _)
  constructor
  · exact (listed asked).trans ((add_zero _).trans ledger.owed)
  · have places := listed seat
    rw [List.map_cons, List.sum_cons, ← ledger.seats, places]
    show s.total seat + Pi.single self {identity} + s.listed =
      Pi.single self {identity} + (s.total seat + s.listed)
    abel

theorem Ledger.step (ledger : Ledger s) (shapes : Shapes cluster s)
    (moved : Moved cluster s l s') : Ledger s' := by
  cases moved with
  | hop named received hop moves => exact ledger.hop received hop
  | turned quiet => exact ⟨ledger.owed, ledger.seats⟩
  | clientStart missing named zeroLed =>
      exact ⟨ledger.owed.trans (zero_add _).symm, ledger.seats⟩
  | send mem idle => exact ledger.send shapes.clientKeys mem idle rfl rfl
  | clientReceive mem waiting received =>
      exact ledger.clientReceive shapes.clientKeys mem waiting received rfl rfl
  | workerStart missing named bound => exact ledger.workerStart _
  | workerReceive mem idle received =>
      exact ledger.setTask (total_taken asked shapes.workerKeys mem idle received)
        (total_taken seat shapes.workerKeys mem idle received)
  | reply mem busy shaped same wrote =>
      exact ledger.setTask (total_replied asked shapes.workerKeys mem busy same)
        (total_replied seat shapes.workerKeys mem busy rfl)
  | lose found =>
      exact ⟨(total_lose asked found).trans ledger.owed,
        (congrArg (· + s.listed) (total_lose seat found)).trans ledger.seats⟩

end Steps

end ZmqPractices.TaskFlow
