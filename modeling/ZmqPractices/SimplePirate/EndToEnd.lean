import ZmqPractices.SimplePirate.System

/-!
What the Simple Pirate pattern gives its clients.

A request goes from its client through the queue to a worker and comes back the same way.
Each hop of the queue takes one message and sends one that carries the same request, and
the worker that sends a request back is the one that processes it. So what is behind the
front of the service are the requests on their way to a worker and in its hands, and the
replies on their way back (`Relaying`).
-/

namespace ZmqPractices.SimplePirate

open Czmq Lib
open LazyPirate (Sent Backed Carries Served AtMostOnce Session requestOf requestText)
open Peering (ZeroLed reqSend reqRecv)

variable {Name : Type}

/-! ### The requests and replies between the queue and its workers -/

def taskOf : Chan × Msg → Option Sent
  | (.toWorker _, [[], socket, [], text]) => some (socket, text)
  | _ => none

def answerOf : Chan × Msg → Option Sent
  | (.toBackend _, [[], socket, [], text]) => some (socket, text)
  | _ => none

/-- The request in a worker's hands. -/
def Worker.held (w : Worker) : List Sent :=
  match w.phase with
  | .working msg => (requestOf msg).toList
  | _ => []

/-- The requests behind the front. -/
def State.held (s : State Name) : List Sent :=
  s.workers.flatMap Worker.held ++ s.net.filterMap taskOf

/-- The replies behind the front. -/
def State.returned (s : State Name) : List Sent := s.net.filterMap answerOf

/-- The messages that can be on their way between the queue and a worker. -/
inductive Shaped : Chan × Msg → Prop where
  | ready {worker : Frame} : Shaped (.toBackend worker, [[], workerReady])
  | task {worker socket text : Frame} (zeroLed : ZeroLed socket) (plain : Plain text) :
      Shaped (.toWorker worker, [[], socket, [], text])
  | answer {worker socket text : Frame} (zeroLed : ZeroLed socket) (plain : Plain text) :
      Shaped (.toBackend worker, [[], socket, [], text])

/-- The front with the queue and the workers behind it: all that is on its way has a shape, and
a worker works on a request. -/
structure Relaying [DecidableEq Name] (s : State Name) : Prop where
  backed : Backed s.front s.held s.returned s.served
  shaped : ∀ packet ∈ s.net, Shaped packet
  inHand : ∀ w ∈ s.workers, ∀ msg, w.phase = .working msg → Carries msg
  unique : (s.workers.map Worker.identity).Nodup

/-! ### Hops of the queue -/

section Hops

variable [DecidableEq Name] {s s' : State Name}

/-- The queue reads whatever a worker sends: READY goes no further, and a reply goes to the
client in front of it. -/
theorem turn_backend (q : Queue) {worker : Frame} {msg : Msg}
    (shaped : Shaped (.toBackend worker, msg)) :
    ∃ queue, turn q (.backend (worker :: msg)) = some (queue, none) ∧ msg = [[], workerReady] ∨
      ∃ socket text, turn q (.backend (worker :: msg)) =
        some (queue, some (.frontend [socket, [], text])) ∧
        msg = [[], socket, [], text] ∧ Plain text := by
  cases shaped with
  | ready => exact ⟨_, .inl ⟨rfl, rfl⟩⟩
  | @answer _ socket text zeroLed plain =>
      obtain ⟨bytes, rfl⟩ := zeroLed.eq_cons
      exact ⟨_, .inr ⟨0 :: bytes, text, rfl, rfl, plain⟩⟩

theorem Relaying.backend {worker : Frame} (before : Relaying s)
    (taken : step s (.backend worker) = some s') : Relaying s' := by
  obtain ⟨msg, net, queue, out, received, done, rfl⟩ := backend_cases taken
  have shaped : ∀ packet ∈ net, Shaped packet :=
    fun packet mem => before.shaped packet (Net.mem_of_mem_recv received mem)
  obtain ⟨_, ⟨did, rfl⟩ | ⟨socket, text, did, rfl, plain⟩⟩ :=
    turn_backend s.queue (before.shaped _ (Net.mem_of_recv received))
  · obtain ⟨rfl, rfl⟩ := Prod.mk.inj (Option.some.inj (did.symm.trans done))
    exact ⟨before.backed.drop (Net.recv_sublist received), shaped, before.inHand, before.unique⟩
  · obtain ⟨rfl, rfl⟩ := Prod.mk.inj (Option.some.inj (did.symm.trans done))
    exact ⟨before.backed.giveAnswer received rfl plain, shaped, before.inHand, before.unique⟩

theorem Relaying.frontend {socket : Frame} (before : Relaying s)
    (taken : step s (.frontend socket) = some s') : Relaying s' := by
  obtain ⟨msg, front, worker, workers, given, -, rfl⟩ := frontend_cases taken
  obtain ⟨text, rfl, zeroLed, plain, backed⟩ := before.backed.take given
  refine ⟨backed.sendTask rfl rfl, ?_, before.inHand, before.unique⟩
  intro packet mem
  rcases Net.mem_send.mp mem with mem | rfl
  · exact before.shaped packet mem
  · exact .task zeroLed plain

end Hops

/-! ### Steps of a worker -/

section Workers

variable [DecidableEq Name] {s s' : State Name} {identity : Frame} {w : Worker}

/-- A worker has gone from one phase to another: the shapes in hand, and the requests. -/
theorem Relaying.setWorker (write : Worker → Worker) (before : Relaying s)
    (found : Table.find Worker.identity identity s.workers = some w)
    (kept : ∀ v, (write v).identity = v.identity)
    (inHand : ∀ msg, (write w).phase = .working msg → Carries msg) :
    (∀ v ∈ (s.setWorker identity write).workers, ∀ msg, v.phase = .working msg → Carries msg) ∧
    ((s.setWorker identity write).workers.map Worker.identity).Nodup ∧
    ((s.setWorker identity write).workers.flatMap Worker.held ++ w.held).Perm
      (s.workers.flatMap Worker.held ++ (write w).held) := by
  have mem := Table.mem_of_find found
  have key := Table.key_of_find found
  refine ⟨?_, ?_, ?_⟩
  · intro v inside msg working
    rcases Table.mem_update.mp inside with ⟨there, _⟩ | ⟨u, there, same, rfl⟩
    · exact before.inHand v there msg working
    · obtain rfl := List.inj_on_of_nodup_map before.unique there mem (same.trans key.symm)
      exact inHand msg working
  · exact (Table.keys_update kept).symm ▸ before.unique
  · exact key ▸ Table.flatMap_update_perm Worker.held before.unique mem

theorem Relaying.startWorker (before : Relaying s)
    (missing : Table.find Worker.identity identity s.workers = none) :
    Relaying { s with
      workers := .start identity :: s.workers
      net := s.net.send (.toBackend identity) (reqSend [workerReady]) } where
  backed := before.backed.sendSilent rfl rfl
  shaped packet mem := by
    rcases Net.mem_send.mp mem with mem | rfl
    · exact before.shaped packet mem
    · exact .ready
  inHand v mem msg working := by
    rcases List.mem_cons.mp mem with rfl | mem
    · cases working
    · exact before.inHand v mem msg working
  unique := by
    rw [List.map_cons, List.nodup_cons]
    refine ⟨fun mem => ?_, before.unique⟩
    obtain ⟨v, mem, same⟩ := List.mem_map.mp mem
    exact Table.find_eq_none.mp missing v mem same

theorem Worker.receive_cases (msg : Msg) (crash : Bool) (w : Worker) :
    (w.receive msg crash).phase = .crashed ∨ (w.receive msg crash).phase = .working msg := by
  unfold Worker.receive
  dsimp only
  split
  · exact .inl rfl
  · exact .inr rfl

theorem Worker.identity_receive (msg : Msg) (crash : Bool) (w : Worker) :
    (w.receive msg crash).identity = w.identity := by
  unfold Worker.receive
  dsimp only
  split <;> rfl

theorem Relaying.takeTask {msg : Msg} {net : Net Chan Msg} {crash : Bool} (before : Relaying s)
    (found : Table.find Worker.identity identity s.workers = some w) (waiting : w.phase = .waiting)
    (received : Net.recv (.toWorker identity) s.net = some (msg, net)) :
    ∃ content, reqRecv msg = some content ∧
      Relaying { s.setWorker identity (.receive content crash) with net := net } := by
  cases before.shaped _ (Net.mem_of_recv received) with
  | @task _ socket text zeroLed plain =>
      refine ⟨[socket, [], text], rfl, ?_⟩
      obtain ⟨inHand, unique, exchanged⟩ := before.setWorker _ found
        (Worker.identity_receive [socket, [], text] crash) (by
          intro msg working
          rcases Worker.receive_cases [socket, [], text] crash w with phase | phase
          · cases phase.symm.trans working
          · cases phase.symm.trans working
            exact ⟨socket, text, rfl, zeroLed, plain⟩)
      have idle : w.held = [] := by rw [Worker.held, waiting]
      have hands : (w.receive [socket, [], text] crash).held.Sublist [(socket, text)] := by
        unfold Worker.held
        rcases Worker.receive_cases [socket, [], text] crash w with phase | phase
        · rw [phase]
          exact List.nil_sublist _
        · rw [phase]
          exact .refl _
      rw [idle, List.append_nil] at exchanged
      have taken := before.backed.takeTask received
      refine ⟨taken.dropHands ?_, ?_, inHand, unique⟩
      · exact exchanged.subperm.trans (hands.append_left _).subperm
      · exact fun packet mem => before.shaped packet (Net.mem_of_mem_recv received mem)

theorem Relaying.answerTask {msg : Msg} (before : Relaying s)
    (found : Table.find Worker.identity identity s.workers = some w)
    (working : w.phase = .working msg) :
    Relaying { s.setWorker identity .reply with
      net := s.net.send (.toBackend identity) (reqSend msg)
      served := (requestOf msg).toList ++ s.served } := by
  obtain ⟨socket, text, rfl, zeroLed, plain⟩ :=
    before.inHand w (Table.mem_of_find found) msg working
  obtain ⟨inHand, unique, exchanged⟩ :=
    before.setWorker .reply found (fun _ => rfl) fun _ => WorkerPhase.noConfusion
  have hands : w.held = [(socket, text)] := by
    rw [Worker.held, working]
    rfl
  have free : w.reply.held = [] := rfl
  rw [hands, free, List.append_nil] at exchanged
  have requests : List.Subperm ((socket, text) ::
      ((s.setWorker identity .reply).workers.flatMap Worker.held ++ s.net.filterMap taskOf))
      s.held :=
    ((List.perm_append_comm.trans exchanged).append_right _).subperm
  have backed := before.backed.fewer requests (.refl _)
  refine ⟨backed.sendAnswer rfl rfl, ?_, inHand, unique⟩
  intro packet mem
  rcases Net.mem_send.mp mem with mem | rfl
  · exact before.shaped packet mem
  · exact .answer zeroLed plain

theorem Relaying.interrupt (before : Relaying s)
    (found : Table.find Worker.identity identity s.workers = some w)
    (waiting : w.phase = .waiting) : Relaying (s.setWorker identity .interrupt) := by
  obtain ⟨inHand, unique, exchanged⟩ :=
    before.setWorker .interrupt found (fun _ => rfl) fun _ => WorkerPhase.noConfusion
  have idle : w.held = [] := by rw [Worker.held, waiting]
  have free : w.interrupt.held = [] := rfl
  rw [idle, free, List.append_nil, List.append_nil] at exchanged
  exact ⟨before.backed.dropHands exchanged.subperm, before.shaped, inHand, unique⟩

theorem Relaying.worker {step : WorkerStep} (before : Relaying s)
    (taken : workerStep s identity step = some s') : Relaying s' := by
  rcases workerStep_cases taken with ⟨missing, rfl⟩ |
    ⟨w, msg, net, crash, found, waiting, received, rfl⟩ | ⟨w, msg, found, working, rfl⟩ |
    ⟨w, found, waiting, rfl⟩
  · exact before.startWorker missing
  · obtain ⟨content, unwrapped, relaying⟩ := before.takeTask found waiting received
    rw [unwrapped]
    exact relaying
  · exact before.answerTask found working
  · exact before.interrupt found waiting

end Workers

/-! ### The system -/

section System

variable [DecidableEq Name] {s s' : State Name}

theorem Relaying.step {l : Label Name} (before : Relaying s)
    (taken : (simplePirate Name).step s l = some s') : Relaying s' := by
  cases l with
  | front step =>
      obtain ⟨front, moved, rfl⟩ := Option.map_eq_some_iff.mp taken
      exact ⟨before.backed.front moved, before.shaped, before.inHand, before.unique⟩
  | worker identity step => exact before.worker taken
  | backend worker => exact before.backend taken
  | frontend socket => exact before.frontend taken
  | lose packet =>
      obtain rfl := Option.some.inj taken
      have rest := List.eraseIdx_sublist s.net packet
      exact ⟨before.backed.drop rest, fun sent mem => before.shaped sent (rest.subset mem),
        before.inHand, before.unique⟩

theorem Relaying.start : Relaying (simplePirate Name).start where
  backed := .start
  shaped _ mem := absurd mem List.not_mem_nil
  inHand _ mem := absurd mem List.not_mem_nil
  unique := List.nodup_nil

theorem relaying_of_reachable (reach : Reachable (simplePirate Name) s) : Relaying s :=
  reach.invariant Relaying .start fun _ _ _ before taken => before.step taken

/-- Whatever the order of the steps and whatever is lost, each client gives up in time, gets
no reply but the one to the request it waits for, and has no request answered more than
`requestRetries` times or twice on one socket. The queue can read each message from a
worker, and each from a client while the list has a worker. -/
theorem answered_through_queue (reach : Reachable (simplePirate Name) s) :
    (∀ name v, s.front.clients.session name = some v →
      Served s.front.clients (s.returned ++ s.front.answered) s.served name v) ∧
    AtMostOnce s.front.clients s.served ∧
    (∀ worker packet, Net.recv (.toBackend worker) s.net = some packet →
      ∃ s', (simplePirate Name).step s (.backend worker) = some s') ∧
    ∀ socket given, s.front.take socket = some given → s.queue.availableWorkers.items ≠ [] →
      ∃ s', (simplePirate Name).step s (.frontend socket) = some s' := by
  have relaying := relaying_of_reachable reach
  refine ⟨relaying.backed.served.1, relaying.backed.served.2, ?_, ?_⟩
  · rintro worker ⟨msg, net⟩ received
    have shaped := relaying.shaped _ (Net.mem_of_recv received)
    obtain ⟨queue, out, done⟩ : ∃ queue out,
        turn s.queue (.backend (worker :: msg)) = some (queue, out) := by
      obtain ⟨queue, ⟨did, -⟩ | ⟨socket, text, did, -⟩⟩ := turn_backend s.queue shaped
      · exact ⟨queue, none, did⟩
      · exact ⟨queue, some (.frontend [socket, [], text]), did⟩
    refine ⟨{ s with queue := queue, net := net }.send out, ?_⟩
    simp only [simplePirate, SimplePirate.step, received, done, Option.bind_eq_bind,
      Option.bind_some]
    rfl
  · rintro socket ⟨msg, front⟩ given listed
    obtain ⟨worker, workers, listed⟩ := List.exists_cons_of_ne_nil listed
    have done : turn s.queue (.frontend (socket :: msg)) =
        some ({ s.queue with availableWorkers := ⟨workers, none⟩ },
          some (.backend (worker :: [] :: socket :: msg))) := by
      simp [turn, ZList.size, listed, frontendRequest, ZList.pop, zmsgWrap, zmsgPush]
    refine ⟨{ s with
      front := front
      queue := { s.queue with availableWorkers := ⟨workers, none⟩ } }.send
        (some (.backend (worker :: [] :: socket :: msg))), ?_⟩
    simp only [simplePirate, SimplePirate.step, given, done, Option.bind_eq_bind,
      Option.bind_some]
    rfl

/-- The reply to the first try is late: the client has a new socket by then, and gets the
second reply there. -/
def lateReply : List (Label Bool) :=
  [.worker [0x41] .start, .backend [0x41], .front (.act true (.start [0, 1])),
    .front (.act true (.send 0x2a)), .frontend [0, 1], .worker [0x41] (.receive false),
    .front (.act true (.timeout [0, 2])), .worker [0x41] .reply, .backend [0x41],
    .frontend [0, 2], .worker [0x41] (.receive false), .worker [0x41] .reply, .backend [0x41],
    .front (.reply true)]

/-- The late reply lies at the closed socket, and the request was served for both tries. -/
theorem answered_through_queue_late : ∃ (s : State Bool) (v : Session),
    s.front.clients.session true = some v ∧ v.client.phase = .outer ∧
      s.returned ++ s.front.answered = [([0, 1], requestText 1 0x2a)] ∧
      s.served = [([0, 2], requestText 1 0x2a), ([0, 1], requestText 1 0x2a)] ∧
      Served s.front.clients (s.returned ++ s.front.answered) s.served true v ∧
      AtMostOnce s.front.clients s.served := by
  have ran : ((simplePirate Bool).exec (simplePirate Bool).start lateReply).map (fun s =>
      (s.returned ++ s.front.answered, s.served)) = some ([([0, 1], requestText 1 0x2a)],
        [([0, 2], requestText 1 0x2a), ([0, 1], requestText 1 0x2a)]) := by decide
  have left : ((simplePirate Bool).exec (simplePirate Bool).start lateReply).bind (fun s =>
      (s.front.clients.session true).map (·.client.phase)) = some .outer := by decide
  obtain ⟨s, done, seen⟩ := Option.map_eq_some_iff.mp ran
  obtain ⟨replies, served⟩ := Prod.mk.inj seen
  rw [done, Option.bind_some] at left
  obtain ⟨v, found, phase⟩ := Option.map_eq_some_iff.mp left
  obtain ⟨each, once, -⟩ := answered_through_queue (Reachable.start.exec done)
  exact ⟨s, v, found, phase, replies, served, each true v found, once⟩

end System

end ZmqPractices.SimplePirate
