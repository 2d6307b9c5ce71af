import ZmqPractices.Peering.Envelopes

/-!
Who has a task: the packets on their way and the workers, over whole runs.

`tokens` collects the tasks of a state. Every step keeps the shapes, and a step of a
broker or a worker, or a loss, leaves no task that was not there before, whichever
broker it takes it to; only its client puts a task into the system.
-/

namespace ZmqPractices.Peering

open Czmq Lib

/-- The task in a worker's hands. -/
def held (w : Worker) : List Token :=
  (w.task.bind fun task => tokenOf (.toWorker w.self w.identity, reqSend task)).toList

/-- The tasks in the system. -/
def tokens (s : State) : List Token :=
  s.net.filterMap tokenOf ++ s.workers.flatMap held

/-- What the parties rely on: shapes on the way and in hand, one worker for each
identity, brokers that know their peers, and client identities given by a ROUTER. -/
structure WellShaped (cluster : Cluster) (s : State) : Prop where
  net : ∀ p ∈ s.net, Shaped cluster p.1 p.2
  inHand : ∀ w ∈ s.workers, ∀ task, w.task = some task →
    Shaped cluster (.toWorker w.self w.identity) (reqSend task)
  workers : (s.workers.map Worker.key).Nodup
  peers : ∀ self, (s.broker self).peers = cluster.peers self
  clients : ∀ key c, s.client key = some c → key.1 ∈ cluster.names ∧ ZeroLed key.2

/-- What every step but a client's does: it keeps the shapes and the clients, and
brings no task into the system. -/
structure Keeps (cluster : Cluster) (s s' : State) : Prop where
  shaped : WellShaped cluster s'
  client : s'.client = s.client
  fewer : (tokens s').Subperm (tokens s)

variable {cluster : Cluster} {s s' : State} {self : Frame}

/-! ### Steps of a broker -/

/-- The packets after a broker has sent on what it read. -/
theorem relay_net {chan : Chan} {msg : Msg} {net : Net Chan Msg} {out : Option Output}
    (shaped : ∀ p ∈ s.net, Shaped cluster p.1 p.2)
    (received : Net.recv chan s.net = some (msg, net)) (relays : Relays cluster self chan msg out) :
    (∀ p ∈ deliver self net out, Shaped cluster p.1 p.2) ∧
      ((deliver self net out).filterMap tokenOf).Subperm (s.net.filterMap tokenOf) := by
  have relays := relays (shaped _ (Net.mem_of_recv received))
  have rest : ∀ p ∈ net, Shaped cluster p.1 p.2 := fun p mem =>
    shaped p (Net.mem_of_mem_recv received mem)
  unfold deliver
  split
  · exact ⟨rest, ((Net.recv_sublist received).filterMap _).subperm⟩
  · rename_i chan' msg' sent
    obtain ⟨shape, same⟩ := relays _ sent
    constructor
    · intro p mem
      rcases Net.mem_send.mp mem with mem | rfl
      · exact rest p mem
      · exact shape
    · rw [Net.filterMap_send, same]
      exact (List.perm_append_comm.trans (Net.filterMap_recv_perm tokenOf received).symm).subperm

theorem peers_update {b : Broker} (same : b.peers = (s.broker self).peers) (other : Frame) :
    (Function.update s.broker self b other).peers = (s.broker other).peers := by
  by_cases here : other = self
  · rw [here, Function.update_self, same]
  · rw [Function.update_of_ne here]

/-- A broker step that changes nothing but the broker's own variables and the status
messages. -/
theorem Keeps.quiet (before : WellShaped cluster s) (client : s'.client = s.client)
    (workers : s'.workers = s.workers) (net : s'.net = s.net)
    (peers : ∀ other, (s'.broker other).peers = (s.broker other).peers) :
    Keeps cluster s s' where
  shaped := {
    net := net ▸ before.net
    inHand := workers ▸ before.inHand
    workers := workers ▸ before.workers
    peers := fun other => (peers other).trans (before.peers other)
    clients := client ▸ before.clients }
  client := client
  fewer := by rw [tokens, tokens, net, workers]

/-- Reading a message and sending it on. -/
theorem Keeps.route {sender : Frame} {chan : Chan} {turn : Turn}
    {f : Broker → Msg → Option (Broker × Option Output)} (before : WellShaped cluster s)
    (peers : ∀ b msg b' out, f b msg = some (b', out) → b'.peers = b.peers)
    (relays : ∀ msg b' out, f (s.broker self) (sender :: msg) = some (b', out) →
      Relays cluster self chan msg out)
    (taken : s.route self sender chan turn f = some s') : Keeps cluster s s' := by
  obtain ⟨msg, net, b, out, received, done, rfl⟩ := route_cases taken
  obtain ⟨shaped, fewer⟩ := relay_net before.net received (relays msg b out done)
  have kept := peers_update (peers _ _ _ _ done)
  exact
    { shaped := {
        net := shaped
        inHand := before.inHand
        workers := before.workers
        peers := fun other => (kept other).trans (before.peers other)
        clients := before.clients }
      client := rfl
      fewer := fewer.append (.refl _) }

theorem BrokerMove.keeps (before : WellShaped cluster s) (named : self ∈ cluster.names)
    (move : BrokerMove s self s') : Keeps cluster s s' := by
  have peers := before.peers self
  cases move with
  | polled turn => exact .quiet before rfl rfl rfl (peers_update rfl)
  | localbe worker turn taken =>
      exact .route before (fun _ _ _ _ done => (localbeReply_routed done).peers)
        (fun _ _ _ => localbeReply_relays named peers) taken
  | cloudbe peer turn taken =>
      exact .route before (fun _ _ _ _ done => (cloudbeReply_routed done).peers)
        (fun _ _ _ => cloudbeReply_relays named peers) taken
  | learnt name capacity status turn received =>
      exact .quiet before rfl rfl rfl (peers_update rfl)
  | localfe client rand turn taken =>
      exact .route before (fun _ _ _ _ done => (routeRequest_routed done).peers)
        (fun _ _ _ => localfeRequest_relays named peers) taken
  | cloudfe peer rand turn capacity taken =>
      exact .route before (fun _ _ _ _ done => (routeRequest_routed done).peers)
        (fun _ _ _ => cloudfeRequest_relays capacity) taken
  | turned turn => exact .quiet before rfl rfl rfl fun _ => rfl
  | published turn => exact .quiet before rfl rfl rfl fun _ => rfl

/-! ### Steps of a worker -/

theorem key_setTask (task : Option Msg) (w : Worker) : (w.setTask task).key = w.key := rfl

/-- Writing to a worker keeps what the parties rely on, if its new task has a shape. -/
theorem WellShaped.setTask {identity : Frame} {task : Option Msg} (before : WellShaped cluster s)
    (shaped : ∀ content, task = some content →
      Shaped cluster (.toWorker self identity) (reqSend content)) :
    WellShaped cluster (s.setTask (self, identity) task) where
  net := before.net
  inHand := by
    intro w mem content working
    rcases Table.mem_update.mp mem with ⟨mem, _⟩ | ⟨v, mem, same, rfl⟩
    · exact before.inHand w mem content working
    · obtain ⟨rfl, rfl⟩ := Prod.mk.inj same
      exact shaped content working
  workers := by
    rw [State.setTask, Table.keys_update (key_setTask task)]
    exact before.workers
  peers := before.peers
  clients := before.clients

/-- Writing to a worker exchanges the task in its hands. -/
theorem count_held_setTask {identity : Frame} {old : Option Msg}
    (before : WellShaped cluster s)
    (found : Table.find Worker.key (self, identity) s.workers = some ⟨self, identity, old⟩)
    (task : Option Msg) (t : Token) :
    ((s.setTask (self, identity) task).workers.flatMap held).count t +
        (held ⟨self, identity, old⟩).count t =
      (s.workers.flatMap held).count t + (held ⟨self, identity, task⟩).count t := by
  have exchange : ((s.setTask (self, identity) task).workers.flatMap held ++
      held ⟨self, identity, old⟩).Perm
        (s.workers.flatMap held ++ held ⟨self, identity, task⟩) :=
    Table.flatMap_update_perm held before.workers (Table.mem_of_find found)
  simpa only [List.count_append] using exchange.count_eq t

/-- A new worker, which says that it is ready. -/
theorem Keeps.startWorker {identity : Frame} (before : WellShaped cluster s)
    (missing : Table.find Worker.key (self, identity) s.workers = none) :
    Keeps cluster s { s with
      workers := ⟨self, identity, none⟩ :: s.workers
      net := s.net.send (.toLocalbe self identity) (reqSend [workerReady]) } := by
  refine ⟨⟨?_, ?_, ?_, before.peers, before.clients⟩, rfl, ?_⟩
  · intro p mem
    rcases Net.mem_send.mp mem with mem | rfl
    · exact before.net p mem
    · exact .ready
  · intro w mem task working
    rcases List.mem_cons.mp mem with rfl | mem
    · cases working
    · exact before.inHand w mem task working
  · rw [List.map_cons, List.nodup_cons]
    refine ⟨fun mem => ?_, before.workers⟩
    obtain ⟨w, mem, same⟩ := List.mem_map.mp mem
    exact Table.find_eq_none.mp missing w mem same
  · have idle : held ⟨self, identity, none⟩ = [] := rfl
    have control : tokenOf (.toLocalbe self identity, reqSend [workerReady]) = none := rfl
    rw [tokens, tokens, Net.filterMap_send, control, List.flatMap_cons, idle, Option.toList_none,
      List.append_nil, List.nil_append]

/-- A worker that takes a task off its connection has it in its hands. -/
theorem Keeps.takeTask {identity : Frame} {msg content : Msg} {net : Net Chan Msg}
    (before : WellShaped cluster s)
    (found : Table.find Worker.key (self, identity) s.workers = some ⟨self, identity, none⟩)
    (received : Net.recv (.toWorker self identity) s.net = some (msg, net))
    (wrapped : reqSend content = msg) :
    Keeps cluster s { s.setTask (self, identity) (some content) with net := net } := by
  have shape := before.net _ (Net.mem_of_recv received)
  have shaped : WellShaped cluster (s.setTask (self, identity) (some content)) :=
    before.setTask fun content' same => by
      obtain rfl := Option.some.inj same
      exact wrapped ▸ shape
  refine ⟨⟨?_, shaped.inHand, shaped.workers, before.peers, before.clients⟩, rfl, ?_⟩
  · exact fun p mem => before.net p (Net.mem_of_mem_recv received mem)
  · apply List.Perm.subperm
    apply List.perm_iff_count.mpr
    intro t
    have exchange := count_held_setTask before found (some content) t
    have loaded := (Net.filterMap_recv_perm tokenOf received).count_eq t
    have idle : held ⟨self, identity, none⟩ = [] := rfl
    have taken : held ⟨self, identity, some content⟩ =
        (tokenOf (.toWorker self identity, msg)).toList := by rw [← wrapped]; rfl
    rw [idle, taken, List.count_nil] at exchange
    simp only [tokens, List.count_append] at loaded ⊢
    omega

/-- A worker that answers has handed its task back. -/
theorem Keeps.answerTask {identity : Frame} {task : Msg} (before : WellShaped cluster s)
    (found : Table.find Worker.key (self, identity) s.workers = some ⟨self, identity, some task⟩) :
    Keeps cluster s { s.setTask (self, identity) none with
      net := s.net.send (.toLocalbe self identity) (reqSend task) } := by
  obtain ⟨shape, same⟩ := (before.inHand _ (Table.mem_of_find found) task rfl).answer
  have shaped : WellShaped cluster (s.setTask (self, identity) none) :=
    before.setTask fun _ working => by cases working
  refine ⟨⟨?_, shaped.inHand, shaped.workers, before.peers, before.clients⟩, rfl, ?_⟩
  · intro p mem
    rcases Net.mem_send.mp mem with mem | rfl
    · exact before.net p mem
    · exact shape
  · apply List.Perm.subperm
    apply List.perm_iff_count.mpr
    intro t
    have exchange := count_held_setTask before found none t
    have idle : held ⟨self, identity, none⟩ = [] := rfl
    have given : held ⟨self, identity, some task⟩ =
        (tokenOf (.toWorker self identity, reqSend task)).toList := rfl
    rw [idle, given, List.count_nil] at exchange
    simp only [tokens, Net.filterMap_send, same, List.count_append]
    omega

theorem workerStep_keeps {identity : Frame} {step : WorkerStep} (before : WellShaped cluster s)
    (taken : workerStep cluster s self identity step = some s') : Keeps cluster s s' := by
  rcases workerStep_cases taken with ⟨missing, rfl⟩ | ⟨msg, net, found, received, rfl⟩ |
    ⟨task, found, rfl⟩
  · exact .startWorker before missing
  · obtain ⟨content, unwrapped, wrapped⟩ := (before.net _ (Net.mem_of_recv received)).reqRecv
    rw [unwrapped]
    exact .takeTask before found received wrapped
  · exact .answerTask before found

/-! ### Losses -/

theorem Keeps.lose (before : WellShaped cluster s) (packet : Nat) :
    Keeps cluster s { s with net := s.net.eraseIdx packet } := by
  have fewer := List.eraseIdx_sublist s.net packet
  exact
    { shaped := {
        net := fun p mem => before.net p (fewer.subset mem)
        inHand := before.inHand
        workers := before.workers
        peers := before.peers
        clients := before.clients }
      client := rfl
      fewer := ((fewer.filterMap _).append (.refl _)).subperm }

/-! ### Steps of a client -/

/-- Writing to a client, and to the packets on their way. -/
theorem WellShaped.setClient {identity : Frame} {c : Client} {net : Net Chan Msg}
    (before : WellShaped cluster s) (allowed : self ∈ cluster.names ∧ ZeroLed identity)
    (shaped : ∀ p ∈ net, Shaped cluster p.1 p.2) :
    WellShaped cluster { s.setClient (self, identity) c with net := net } where
  net := shaped
  inHand := before.inHand
  workers := before.workers
  peers := before.peers
  clients := by
    intro key c' found
    by_cases here : key = (self, identity)
    · rw [here]
      exact allowed
    · simp only [State.setClient, Function.update_of_ne here] at found
      exact before.clients key c' found

theorem WellShaped.client {build : Build} {identity : Frame} {step : ClientStep}
    (before : WellShaped cluster s)
    (taken : clientStep build cluster s self identity step = some s') :
    WellShaped cluster s' := by
  rcases clientStep_cases taken with ⟨_, _, named, zeroLed, rfl⟩ |
    ⟨c, rand, string, _, found, _, _, rfl⟩ | ⟨c, rand, _, found, _, _, rfl⟩ |
    ⟨c, task, msg, net, _, found, _, received, rfl⟩ | ⟨c, task, _, found, _, rfl⟩
  · exact before.setClient ⟨named, zeroLed⟩ before.net
  · have allowed := before.clients _ c found
    refine before.setClient allowed fun p mem => ?_
    rcases Net.mem_send.mp mem with mem | rfl
    · exact before.net p mem
    · exact .request allowed.2
  · exact before.setClient (before.clients _ c found) before.net
  · have rest : ∀ p ∈ net, Shaped cluster p.1 p.2 :=
      fun p mem => before.net p (Net.mem_of_mem_recv received mem)
    split
    · exact before.setClient (before.clients _ c found) rest
    · exact ⟨rest, before.inHand, before.workers, before.peers, before.clients⟩
  · exact before.setClient (before.clients _ c found) before.net

/-! ### Runs -/

/-- A step of the cluster that no client takes. -/
theorem keeps_of_step {build : Build} {l : Label} (before : WellShaped cluster s)
    (other : ∀ self identity step, l ≠ .client self identity step)
    (taken : (prototype build cluster).step s l = some s') : Keeps cluster s s' := by
  cases l with
  | broker self step =>
      obtain ⟨named, taken⟩ := Option.ite_none_right_eq_some.mp taken
      exact (brokerStep_move taken).keeps before named
  | client self identity step => exact absurd rfl (other self identity step)
  | worker self identity step => exact workerStep_keeps before taken
  | lose packet =>
      obtain rfl := Option.some.inj taken
      exact .lose before packet
  | loseStatus packet =>
      obtain rfl := Option.some.inj taken
      exact .quiet before rfl rfl rfl fun _ => rfl

theorem WellShaped.start {build : Build} : WellShaped cluster (prototype build cluster).start where
  net := by simp [prototype]
  inHand := by simp [prototype]
  workers := by simp [prototype]
  peers := fun _ => rfl
  clients := by simp [prototype]

theorem WellShaped.step {build : Build} {l : Label} (before : WellShaped cluster s)
    (taken : (prototype build cluster).step s l = some s') : WellShaped cluster s' := by
  cases l with
  | client self identity step => exact before.client taken
  | _ => exact (keeps_of_step before (fun _ _ _ => Label.noConfusion) taken).shaped

theorem wellShaped_of_reachable {build : Build} (reach : Reachable (prototype build cluster) s) :
    WellShaped cluster s :=
  reach.invariant (WellShaped cluster) .start fun _ _ _ before taken => before.step taken

end ZmqPractices.Peering
