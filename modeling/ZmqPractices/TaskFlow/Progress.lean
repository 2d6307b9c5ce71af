import Mathlib.Algebra.Order.BigOperators.Group.List
import ZmqPractices.Lib.Progress
import ZmqPractices.TaskFlow.Answers

/-!
How the task flow prototype gets its requests answered.

Each step that moves a message leaves it nearer to the client's reply, so a request takes at
most seven moves. While a client waits and nothing was lost there is always a move to make,
after one turn of a broker at most: its message can be moved, or it waits for a worker of a
broker whose workers are all busy, and then one of these can be.
-/

namespace ZmqPractices.TaskFlow

open Czmq Lib
open Peering

variable {cluster : Cluster}

/-! ### Moves -/

/-- A step that takes a message from one party to the next. -/
def Label.moves : Label → Bool
  | .broker _ .timeout => false
  | .broker _ .done => false
  | .broker _ _ => true
  | .client _ _ .receive => true
  | .worker _ _ .receive => true
  | .worker _ _ .reply => true
  | _ => false

/-- A turn of a broker without a message. -/
def Label.prepares : Label → Bool
  | .broker _ .timeout => true
  | .broker _ .done => true
  | _ => false

/-- The moves that a step brings at most: those of a request, or of READY. -/
def Label.brings : Label → Nat
  | .client _ _ .send => 7
  | .worker _ _ (.start _) => 3
  | _ => 0

def hopsOf (p : Chan × Msg) : Nat := hops p.1

def Worker.left (w : Worker) : Nat := if w.task.isSome then 4 else 0

/-- The moves that are left at most. -/
def State.remaining (s : State) : Nat :=
  Net.weight hopsOf s.net + (s.workers.map Worker.left).sum

section Steps

variable {s s' : State} {l : Label}

theorem moves_of_broker {self : Frame} {step : BrokerStep}
    (moves : step ≠ .timeout ∧ step ≠ .done) : Label.moves (.broker self step) = true := by
  cases step with
  | timeout => exact absurd rfl moves.1
  | done => exact absurd rfl moves.2
  | _ => rfl

theorem left_setTask {w : Worker} (unique : (s.workers.map Worker.key).Nodup)
    (mem : w ∈ s.workers) (task : Option Msg) :
    ((s.setTask w.key task).workers.map Worker.left).sum + w.left =
      (s.workers.map Worker.left).sum + (w.setTask task).left :=
  Table.sum_update _ unique mem

/-- A move leaves one less, and other steps bring what they bring. -/
theorem remaining_step (shapes : Shapes cluster s) (moved : Moved cluster s l s') :
    s'.remaining + (if l.moves then 1 else 0) ≤ s.remaining + l.brings := by
  cases moved with
  | @hop self chan msg net b out step named received hop moves =>
      have fewer : Net.weight hopsOf s.net = hops chan + Net.weight hopsOf net :=
        Net.weight_recv hopsOf received
      have more := weight_deliver hopsOf self net out
      have nearer : (out.bind (address self)).elim 0 hopsOf + 1 ≤ hops chan := by
        cases sent : out.bind (address self) with
        | none =>
            rw [Option.elim_none]
            cases chan <;> exact Nat.le_add_left 1 _
        | some q => exact hop.nearer q sent
      rw [if_pos (moves_of_broker moves)]
      show Net.weight hopsOf (deliver self net out) + (s.workers.map Worker.left).sum + 1 ≤
        Net.weight hopsOf s.net + (s.workers.map Worker.left).sum + _
      omega
  | turned quiet =>
      rcases quiet with rfl | rfl
      · exact Nat.le_refl _
      · exact Nat.le_refl _
  | clientStart missing named zeroLed => exact Nat.le_refl _
  | @send c mem idle =>
      have more : Net.weight hopsOf (s.net.send (.toLocalfe c.self c.identity) _) =
          Net.weight hopsOf s.net + 7 :=
        Net.weight_send hopsOf s.net _ (reqSend [requestText c.self c.socket])
      show Net.weight hopsOf (s.net.send _ _) + (s.workers.map Worker.left).sum + 0 ≤
        Net.weight hopsOf s.net + (s.workers.map Worker.left).sum + 7
      omega
  | @clientReceive c frame net mem waiting received =>
      have fewer : Net.weight hopsOf s.net = 1 + Net.weight hopsOf net :=
        Net.weight_recv hopsOf received
      show Net.weight hopsOf net + (s.workers.map Worker.left).sum + 1 ≤
        Net.weight hopsOf s.net + (s.workers.map Worker.left).sum + 0
      omega
  | @workerStart self identity socket missing named bound =>
      have more : Net.weight hopsOf (s.net.send (.toLocalbe self identity) _) =
          Net.weight hopsOf s.net + 3 := Net.weight_send hopsOf s.net _ (reqSend [workerReady])
      show Net.weight hopsOf (s.net.send _ _) + (0 + (s.workers.map Worker.left).sum) + 0 ≤
        Net.weight hopsOf s.net + (s.workers.map Worker.left).sum + 3
      omega
  | @workerReceive w task net mem idle received =>
      have fewer : Net.weight hopsOf s.net = 5 + Net.weight hopsOf net :=
        Net.weight_recv hopsOf received
      have hands := left_setTask shapes.workerKeys mem (some task)
      have before : w.left = 0 := by rw [Worker.left, idle]; rfl
      have after : (w.setTask (some task)).left = 4 := rfl
      show Net.weight hopsOf net + ((s.setTask w.key (some task)).workers.map Worker.left).sum + 1 ≤
        Net.weight hopsOf s.net + (s.workers.map Worker.left).sum + 0
      omega
  | @reply w task answer mem busy shaped same wrote =>
      have more : Net.weight hopsOf (s.net.send (.toLocalbe w.self w.identity) _) =
          Net.weight hopsOf s.net + 3 := Net.weight_send hopsOf s.net _ (reqSend answer)
      have hands := left_setTask shapes.workerKeys mem none
      have before : w.left = 4 := by rw [Worker.left, busy]; rfl
      have after : (w.setTask none).left = 0 := rfl
      show Net.weight hopsOf (s.net.send _ _) +
          ((s.setTask w.key none).workers.map Worker.left).sum + 1 ≤
        Net.weight hopsOf s.net + (s.workers.map Worker.left).sum + 0
      omega
  | lose found =>
      have fewer := Net.weight_eraseIdx hopsOf found
      show Net.weight hopsOf (s.net.eraseIdx _) + (s.workers.map Worker.left).sum + 0 ≤
        Net.weight hopsOf s.net + (s.workers.map Worker.left).sum + 0
      omega

end Steps

/-! ### There is always a move -/

/-- After one turn of a broker at most, a message moves. -/
abbrev Flows (cluster : Cluster) : State → Prop :=
  Soon (taskFlow cluster) Label.prepares Label.moves

section Flows

variable {s : State} {self : Frame}

theorem soon_turned {step turning : BrokerStep} {turn : Turn} (named : self ∈ cluster.names)
    (quiet : Label.prepares (.broker self turning) = true)
    (turns : brokerStep s self turning = some (s.setTurn self turn))
    (moves : Label.moves (.broker self step) = true)
    (enabled : ∃ s', brokerStep (s.setTurn self turn) self step = some s') :
    Flows cluster s := by
  obtain ⟨s', taken⟩ := enabled
  exact .after quiet ((if_pos named).trans turns) moves ⟨s', (if_pos named).trans taken⟩

theorem setTurn_self {turn : Turn} (here : s.turn self = turn) : s.setTurn self turn = s := by
  rw [State.setTurn, ← here, Function.update_eq_self]

/-- A broker that can read from a backend does so when it polls them. -/
theorem soon_backends {step : BrokerStep} (named : self ∈ cluster.names)
    (moves : Label.moves (.broker self step) = true)
    (enabled : ∃ s', brokerStep (s.setTurn self .backends) self step = some s') :
    Flows cluster s := by
  cases here : s.turn self with
  | backends =>
      rw [setTurn_self here] at enabled
      obtain ⟨s', taken⟩ := enabled
      exact .now moves ⟨s', (if_pos named).trans taken⟩
  | frontends =>
      have turns : brokerStep s self .done = some (s.setTurn self .backends) := by
        simp only [brokerStep, here]
      exact soon_turned named rfl turns moves enabled

/-- A broker with a worker available polls its frontends next. -/
theorem soon_frontends {step : BrokerStep} (named : self ∈ cluster.names)
    (room : (s.broker self).capacity ≠ 0) (moves : Label.moves (.broker self step) = true)
    (enabled : ∃ s', brokerStep (s.setTurn self .frontends) self step = some s') :
    Flows cluster s := by
  cases here : s.turn self with
  | backends =>
      have turns : brokerStep s self .timeout = some (s.setTurn self .frontends) := by
        simp only [brokerStep, here]
        exact if_pos room
      exact soon_turned named rfl turns moves enabled
  | frontends =>
      rw [setTurn_self here] at enabled
      obtain ⟨s', taken⟩ := enabled
      exact .now moves ⟨s', (if_pos named).trans taken⟩

theorem route_defined {sender : Frame} {chan : Chan} {msg : Msg} {net : Net Chan Msg}
    {f : Broker → Msg → Option (Broker × Option Output)} {done : Broker × Option Output}
    (received : Net.recv chan s.net = some (msg, net))
    (routed : f (s.broker self) (sender :: msg) = some done) :
    ∃ s', s.route self sender chan f = some s' := by
  refine ⟨s.routed self done.1 (deliver self net done.2), ?_⟩
  show (Net.recv chan s.net).bind _ = _
  rw [received, Option.bind_some]
  show (f (s.broker self) (sender :: msg)).bind _ = _
  rw [routed]
  rfl

/-! ### A move for each message -/

theorem Kept.soon_toLocalbe {worker : Frame} {msg : Msg} (kept : Kept cluster s)
    (mem : (.toLocalbe self worker, msg) ∈ s.net) : Flows cluster s := by
  obtain ⟨m, net, received⟩ := Net.recv_of_mem mem
  obtain ⟨shaped, (named : self ∈ cluster.names)⟩ := kept.shapes.net _ (Net.mem_of_recv received)
  obtain ⟨b, out, done, -⟩ := routeLocalbe_hop named (kept.shapes.peers self) shaped
  have routed : ∃ s', (s.setTurn self .backends).route self worker (.toLocalbe self worker)
      routeLocalbe = some s' := route_defined received done
  refine soon_backends named (rfl : Label.moves (.broker self (.localbe worker)) = true) ?_
  simpa only [brokerStep, State.setTurn, Function.update_self] using routed

theorem Kept.soon_toCloudbe {peer : Frame} {msg : Msg} (kept : Kept cluster s)
    (mem : (.toCloudbe self peer, msg) ∈ s.net) : Flows cluster s := by
  obtain ⟨m, net, received⟩ := Net.recv_of_mem mem
  obtain ⟨shaped, (named : self ∈ cluster.names)⟩ := kept.shapes.net _ (Net.mem_of_recv received)
  obtain ⟨b, out, done, -⟩ := routeCloudbe_hop named (kept.shapes.peers self) shaped
  have routed : ∃ s', (s.setTurn self .backends).route self peer (.toCloudbe self peer)
      routeCloudbe = some s' := route_defined received done
  refine soon_backends named (rfl : Label.moves (.broker self (.cloudbe peer)) = true) ?_
  simpa only [brokerStep, State.setTurn, Function.update_self] using routed

theorem Kept.soon_toLocalfe {client : Frame} {msg : Msg} (kept : Kept cluster s)
    (room : (s.broker self).capacity ≠ 0) (mem : (.toLocalfe self client, msg) ∈ s.net) :
    Flows cluster s := by
  obtain ⟨m, net, received⟩ := Net.recv_of_mem mem
  obtain ⟨shaped, (named : self ∈ cluster.names)⟩ := kept.shapes.net _ (Net.mem_of_recv received)
  obtain ⟨b, out, done, -⟩ :=
    localfe_hop named (kept.shapes.peers self) (kept.shapes.counted self) room shaped 0 0
  have routed : ∃ s', (s.setTurn self .frontends).route self client (.toLocalfe self client)
      (routeRequest · true 0 0) = some s' := route_defined received done
  refine soon_frontends named room
    (rfl : Label.moves (.broker self (.localfe client 0 0)) = true) ?_
  simpa only [brokerStep, State.setTurn, Function.update_self, room, ne_eq, not_false_eq_true,
    if_true] using routed

theorem Kept.soon_toCloudfe {peer : Frame} {msg : Msg} (kept : Kept cluster s)
    (room : (s.broker self).capacity ≠ 0) (mem : (.toCloudfe self peer, msg) ∈ s.net) :
    Flows cluster s := by
  obtain ⟨m, net, received⟩ := Net.recv_of_mem mem
  obtain ⟨shaped, (named : self ∈ cluster.names)⟩ := kept.shapes.net _ (Net.mem_of_recv received)
  obtain ⟨b, out, done, -⟩ := cloudfe_hop named (kept.shapes.counted self) room shaped
  have routed : ∃ s', (s.setTurn self .frontends).route self peer (.toCloudfe self peer)
      (routeRequest · false 0 0) = some s' := route_defined received done
  refine soon_frontends named room (rfl : Label.moves (.broker self (.cloudfe peer)) = true) ?_
  simpa only [brokerStep, State.setTurn, Function.update_self, room, ne_eq, not_false_eq_true,
    if_true] using routed

/-- A packet on its way is part of a total. -/
theorem part_le_weight (part : Chan × Msg → Nat) {p : Chan × Msg} (mem : p ∈ s.net) :
    part p ≤ Net.weight part s.net :=
  List.single_le_sum (fun _ _ => Nat.zero_le _) _ (List.mem_map_of_mem mem)

/-- What a worker has in its hands is another part. -/
theorem part_le_hands (part : Chan × Msg → Nat) {w : Worker} (mem : w ∈ s.workers) :
    w.inHand.elim 0 part ≤ (s.workers.map fun w => w.inHand.elim 0 part).sum :=
  List.single_le_sum (fun _ _ => Nat.zero_le _) _
    (List.mem_map_of_mem (f := fun w : Worker => w.inHand.elim 0 part) mem)

/-- Where nothing is lost, a total is made up by packets and hands. -/
theorem part_of_total_ne_zero {part : Chan × Msg → Nat} (nothing : s.lost = [])
    (some_part : s.total part ≠ 0) :
    (∃ p ∈ s.net, part p ≠ 0) ∨ ∃ w ∈ s.workers, w.inHand.elim 0 part ≠ 0 := by
  by_contra missing
  push Not at missing
  apply some_part
  have packets : Net.weight part s.net = 0 := by
    refine List.sum_eq_zero fun n found => ?_
    obtain ⟨p, mem, rfl⟩ := List.mem_map.mp found
    exact missing.1 p mem
  have hands : (s.workers.map fun w => w.inHand.elim 0 part).sum = 0 := by
    refine List.sum_eq_zero fun n found => ?_
    obtain ⟨w, mem, rfl⟩ := List.mem_map.mp found
    exact missing.2 w mem
  rw [State.total, packets, hands, nothing]
  rfl

theorem atSeat_self (self worker : Frame) : atSeat self worker (Pi.single self {worker}) = 1 :=
  (atSeat_single self worker self worker).trans (if_pos rfl)

/-- A worker with a request on its way to it waits for one. -/
theorem Kept.idle_of_toWorker {worker : Frame} {msg : Msg} (kept : Kept cluster s)
    (mem : (.toWorker self worker, msg) ∈ s.net) :
    ∃ w ∈ s.workers, w.self = self ∧ w.identity = worker ∧ w.task = none := by
  have packet := part_le_weight (fun p => atSeat self worker (seat p)) mem
  have one : atSeat self worker (seat (.toWorker self worker, msg)) = 1 := atSeat_self self worker
  have total : (s.total fun p => atSeat self worker (seat p)) ≠ 0 := by
    unfold State.total
    omega
  obtain ⟨w, working, here⟩ := kept.started_of_place self worker (by omega)
  obtain ⟨rfl, rfl⟩ := Prod.mk.inj here
  refine ⟨w, working, rfl, rfl, ?_⟩
  by_contra busy
  obtain ⟨task, held⟩ := Option.ne_none_iff_exists'.mp busy
  have hands := part_le_hands (fun p => atSeat w.self w.identity (seat p)) working
  have place := kept.one_place working
  rw [Worker.inHand, held, Option.map_some, Option.elim_some] at hands
  have two : atSeat w.self w.identity (seat (.toWorker w.self w.identity, reqSend task)) = 1 :=
    atSeat_self w.self w.identity
  unfold State.total at place
  omega

theorem Kept.soon_toWorker {worker : Frame} {msg : Msg} (kept : Kept cluster s)
    (mem : (.toWorker self worker, msg) ∈ s.net) : Flows cluster s := by
  obtain ⟨m, net, received⟩ := Net.recv_of_mem mem
  obtain ⟨⟨self, worker, socket, _⟩, working, rfl, rfl, rfl⟩ := kept.idle_of_toWorker mem
  have found : Table.find Worker.key (self, worker) s.workers = some ⟨self, worker, socket, none⟩ :=
    Table.find_of_mem kept.shapes.workerKeys working
  refine .now (rfl : Label.moves (.worker self worker .receive) = true) ?_
  simp only [taskFlow, workerStep, found, received, Option.map_some]
  exact ⟨_, rfl⟩

theorem Kept.soon_inHand {w : Worker} {task : Msg} (kept : Kept cluster s) (mem : w ∈ s.workers)
    (busy : w.task = some task) (short : w.self.length < 20) : Flows cluster s := by
  obtain ⟨self, worker, socket, _⟩ := w
  obtain rfl := busy
  have shaped : Shaped cluster (.toWorker self worker) (reqSend task) :=
    kept.shapes.inHand _ mem _ rfl
  have framed : task ≠ [] := by
    rintro rfl
    cases shaped
  obtain ⟨answer, written⟩ := (answer_defined_iff (kept.shapes.workers _ mem).2 framed).mpr short
  have found : Table.find Worker.key (self, worker) s.workers =
      some ⟨self, worker, socket, some task⟩ := Table.find_of_mem kept.shapes.workerKeys mem
  refine .now (rfl : Label.moves (.worker self worker .reply) = true) ?_
  simp only [taskFlow, workerStep, found, written, Option.map_some]
  exact ⟨_, rfl⟩

/-- A client with a message in the system waits. -/
theorem Kept.waiting_of_asked {key : Frame × Frame} (kept : Kept cluster s)
    (somewhere : (s.total fun p => (asked p).count key) ≠ 0) :
    ∃ c ∈ s.clients, c.key = key ∧ c.waiting = true := by
  by_contra missing
  apply somewhere
  have owed := congrArg (Multiset.countAddMonoidHom key) kept.ledger.owed
  rw [total_count, map_list_sum, List.map_map] at owed
  refine owed.trans (List.sum_eq_zero fun n found => ?_)
  obtain ⟨c, mem, rfl⟩ := List.mem_map.mp found
  show (c.asking).count key = 0
  unfold Client.asking
  split
  · rename_i waiting
    rw [Multiset.count_singleton, if_neg fun same => missing ⟨c, mem, same.symm, waiting⟩]
  · exact Multiset.count_zero _

theorem Kept.soon_toClient {client : Frame} {msg : Msg} (kept : Kept cluster s)
    (mem : (.toClient self client, msg) ∈ s.net) : Flows cluster s := by
  obtain ⟨m, net, received⟩ := Net.recv_of_mem mem
  have there := Net.mem_of_recv received
  have packet := part_le_weight (fun p => (asked p).count (self, client)) there
  have one : (asked (.toClient self client, m)).count (self, client) = 1 := by
    cases (kept.shapes.net _ there).1 with
    | reply zeroLed => exact Multiset.count_singleton_self _
  have total : (s.total fun p => (asked p).count (self, client)) ≠ 0 := by
    unfold State.total
    omega
  obtain ⟨c, mem, here, waiting⟩ := kept.waiting_of_asked total
  have found : Table.find Client.key (self, client) s.clients = some c :=
    here ▸ Table.find_of_mem kept.shapes.clientKeys mem
  refine .now (rfl : Label.moves (.client self client .receive) = true) ?_
  simp only [taskFlow, clientStep, found, waiting, if_true, received, Option.map_some]
  exact ⟨_, rfl⟩

/-- With nothing lost, a worker that is not listed can move. -/
theorem Kept.soon_worker {w : Worker} (kept : Kept cluster s) (nothing : s.lost = [])
    (mem : w ∈ s.workers) (short : ∀ w ∈ s.workers, w.self.length < 20)
    (busy : (s.broker w.self).capacity = 0) : Flows cluster s := by
  have empty : (s.broker w.self).workers.items = [] := by
    have counted := kept.shapes.counted w.self
    rw [busy, ZList.size] at counted
    exact List.length_eq_zero_iff.mp (Int.natCast_eq_zero.mp counted.symm)
  have place := kept.one_place mem
  rw [empty, List.count_nil, Nat.add_zero] at place
  rcases part_of_total_ne_zero nothing (place ▸ Nat.one_ne_zero) with
    ⟨⟨chan, msg⟩, inside, here⟩ | ⟨v, working, here⟩
  · cases chan with
    | toLocalbe self worker => exact kept.soon_toLocalbe inside
    | toWorker self worker => exact kept.soon_toWorker inside
    | _ => exact absurd (map_zero _) here
  · cases held : v.task with
    | none =>
        rw [Worker.inHand, held] at here
        exact absurd rfl here
    | some task => exact kept.soon_inHand working held (short v working)

/-- With nothing lost, a packet that stays where it is waits for a worker. -/
theorem Kept.soon_packet {p : Chan × Msg} (kept : Kept cluster s) (nothing : s.lost = [])
    (started : ∀ self ∈ cluster.names, ∃ w ∈ s.workers, w.self = self)
    (short : ∀ w ∈ s.workers, w.self.length < 20) (mem : p ∈ s.net) : Flows cluster s := by
  obtain ⟨w, working, here⟩ := started _ (kept.shapes.net p mem).2
  obtain ⟨chan, msg⟩ := p
  cases chan with
  | toLocalfe self client =>
      by_cases busy : (s.broker self).capacity = 0
      · exact kept.soon_worker nothing working short (here ▸ busy)
      · exact kept.soon_toLocalfe busy mem
  | toCloudfe self peer =>
      by_cases busy : (s.broker self).capacity = 0
      · exact kept.soon_worker nothing working short (here ▸ busy)
      · exact kept.soon_toCloudfe busy mem
  | toClient self client => exact kept.soon_toClient mem
  | toLocalbe self worker => exact kept.soon_toLocalbe mem
  | toWorker self worker => exact kept.soon_toWorker mem
  | toCloudbe self peer => exact kept.soon_toCloudbe mem

end Flows

/-- **Requests keep moving.** In every run of any number of peered brokers, with steps in any
order and any message lost, no more messages are moved than seven for each request that was
sent and three for each READY. And while a client waits, nothing was lost, each broker has a
worker and the brokers' names have less than twenty bytes, a message can be moved, after one
turn of a broker at most: so a waiting client is never deadlocked, and the moves until all
replies are taken are bounded. -/
theorem requests_flow {past : List (State × Label)} {s : State}
    (run : Run (taskFlow cluster) past s) :
    past.countP (fun p => p.2.moves) + s.remaining ≤ (past.map fun p => p.2.brings).sum ∧
    (s.lost = [] → (∀ self ∈ cluster.names, ∃ w ∈ s.workers, w.self = self) →
      (∀ self ∈ cluster.names, self.length < 20) → (∃ c ∈ s.clients, c.waiting = true) →
        Flows cluster s) := by
  obtain ⟨kept, paid⟩ := run.afforded (Kept cluster) State.remaining Label.moves Label.brings .start
    fun s l s' kept taken =>
      ⟨kept.step taken, remaining_step kept.shapes (kept.shapes.moved (step_stepped taken))⟩
  refine ⟨by simpa [taskFlow, State.remaining, Net.weight] using paid, ?_⟩
  intro nothing started names waits
  obtain ⟨c, mem, waiting⟩ := waits
  have short : ∀ w ∈ s.workers, w.self.length < 20 := fun w working =>
    names _ (kept.shapes.workers w working).1
  have one := kept.asked_count mem
  rw [if_pos waiting, ← Multiset.coe_countAddMonoidHom, total_count] at one
  rcases part_of_total_ne_zero nothing (one ▸ Nat.one_ne_zero) with
    ⟨p, inside, -⟩ | ⟨w, working, here⟩
  · exact kept.soon_packet nothing started short inside
  · cases held : w.task with
    | none =>
        rw [Worker.inHand, held] at here
        exact absurd rfl here
    | some task => exact kept.soon_inHand working held (short w working)

/-- The request that crosses to a peer takes its seven moves, and a last one is left while its
reply is on its way. -/
theorem requests_flow_through_peer : ∃ (past : List (State × Label)) (s : State),
    Run (taskFlow pair) past s ∧ past.countP (fun p => p.2.moves) = 8 ∧ s.remaining = 1 ∧
      Flows pair s := by
  have ran : ((taskFlow pair).record [] (taskFlow pair).start (throughPeer.take 14)).map
      (fun p => (p.1.countP fun p => p.2.moves, p.2.remaining, p.2.lost.length,
        decide (p.2.workers.map Worker.self = [[0x41], [0x42]] ∧
          p.2.clients.map Client.waiting = [true]))) =
      some (8, 1, 0, true) := by decide +kernel
  obtain ⟨⟨past, s⟩, done, seen⟩ := Option.map_eq_some_iff.mp ran
  have run := Run.record .start done
  simp only [Prod.mk.injEq, decide_eq_true_eq] at seen
  obtain ⟨moved, left, nothing, workers, clients⟩ := seen
  obtain ⟨-, soon⟩ := requests_flow run
  refine ⟨past, s, run, moved, left, soon (List.length_eq_zero_iff.mp nothing) ?_ ?_ ?_⟩
  · intro self named
    have mem : self ∈ s.workers.map Worker.self := by
      rw [workers]
      exact named
    exact List.mem_map.mp mem
  · decide
  · have mem : true ∈ s.clients.map Client.waiting := by
      rw [clients]
      exact List.mem_cons_self
    exact List.mem_map.mp mem

end ZmqPractices.TaskFlow
