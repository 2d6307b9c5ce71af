import ZmqPractices.LazyPirate.Relay
import ZmqPractices.Lib.Table
import ZmqPractices.Pirate.OneRequest

/-!
What the Paranoid Pirate pattern gives its clients: Lazy Pirate clients (`lpclient.cpp`),
the queue (`ppqueue.c`) and any number of workers (`ppworker.c`), as one system.

The queue may list a worker that already has a request, a worker may come back on a new
connection, and either end of a connection may go. None of that makes a second request of
one: each message that carries a request is taken once and sent on once, so the queue and
its workers stay behind the front of the service (`Relaying`).
-/

namespace ZmqPractices.Pirate

open Czmq Lib
open LazyPirate (Sent Front FrontStep frontStep Backed Carries Served AtMostOnce Session
  requestOf requestText)
open Peering (ZeroLed)

/-! ### The system -/

/-- The clients with their connections, the queue and the workers, and, for the statements
only, the requests that workers have sent back, newest first. -/
structure Service (Name : Type) where
  front : Front Name
  back : State
  served : List Sent

/-- A step of the clients or of their connections, a step of a worker, a message of this
worker or socket that the queue takes, another part of the queue's turn, or the loss of a
message. -/
inductive ServiceStep (Name : Type) where
  | front (step : FrontStep Name)
  | worker (identity : Frame) (step : WorkerStep)
  | backend (worker : Frame)
  | frontend (socket : Frame)
  | queue (step : QueueStep)
  | lose (packet : Nat)

variable {Name : Type}

/-- The request that a step of a worker sends back. -/
def answeredBy (s : State) (identity : Frame) : WorkerStep → Option Sent
  | .reply =>
      match s.worker identity with
      | some ⟨.replying msg, _, _, _, _⟩ => requestOf msg
      | _ => none
  | _ => none

/-- What the queue sends on its frontend: the ROUTER strips the first frame and sends the
rest to the socket it names. -/
def forward (front : Front Name) : List Output → Front Name
  | .frontend (socket :: msg) :: out => forward (front.give socket msg) out
  | _ :: out => forward front out
  | [] => front

/-- The part of a turn takes a message. -/
def reads : QueueStep → Bool
  | .backend _ => true
  | .frontend _ _ => true
  | _ => false

def Service.turn (clock : Nat → Nat) (s : Service Name) (step : QueueStep) :
    Option (Service Name) :=
  (queueStep clock s.back step).map fun back => { s with back := back }

def serviceStep [DecidableEq Name] (clock : Nat → Nat) (s : Service Name) :
    ServiceStep Name → Option (Service Name)
  | .front step => (frontStep s.front step).map fun front => { s with front := front }
  | .worker identity step =>
      (workerStep s.back identity step).map fun back =>
        { s with back := back, served := (answeredBy s.back identity step).toList ++ s.served }
  | .backend worker => do
      let (msg, _) ← Net.recv (.toQueue worker) s.back.net
      let (_, out) ← backendBranch clock s.back.queue (worker :: msg)
      { s with front := forward s.front out }.turn clock (.backend worker)
  | .frontend socket => do
      let (msg, front) ← s.front.take socket
      { s with front := front }.turn clock (.frontend socket msg)
  | .queue step => if reads step then none else s.turn clock step
  | .lose packet =>
      some { s with back := { s.back with net := s.back.net.eraseIdx packet } }

/-- The clients, the queue and the workers from their start. -/
def paranoidPirate (clock : Nat → Nat) (Name : Type) [DecidableEq Name] :
    System (Service Name) (ServiceStep Name) where
  start := ⟨.start, (pirate clock).start, []⟩
  step := serviceStep clock

/-! ### The requests and replies between the queue and its workers -/

def taskOf : Chan × Msg → Option Sent
  | (.toWorker _, msg) => requestOf msg
  | _ => none

def answerOf : Chan × Msg → Option Sent
  | (.toQueue _, msg) => requestOf msg
  | _ => none

/-- The request in a worker's hands. -/
def heldBy : Option PPWorker → List Sent
  | some ⟨.replying msg, _, _, _, _⟩ => (requestOf msg).toList
  | _ => []

/-- The requests behind the front, where the workers have these names. -/
def State.held (s : State) (names : List Frame) : List Sent :=
  (names.flatMap fun name => heldBy (s.worker name)) ++ s.net.filterMap taskOf

/-- The replies behind the front. -/
def State.returned (s : State) : List Sent := s.net.filterMap answerOf

def Control (msg : Msg) : Prop := ∃ byte, msg = [[byte]]

/-- A message between the queue and a worker is a control message or carries a request. -/
def Shaped (msg : Msg) : Prop := Control msg ∨ Carries msg

/-- What is behind the front, where the workers have these names. -/
structure Relaying [DecidableEq Name] (s : Service Name) (names : List Frame) : Prop where
  backed : Backed s.front (s.back.held names) s.back.returned s.served
  shaped : ∀ packet ∈ s.back.net, Shaped packet.2
  inHand : ∀ name w msg, s.back.worker name = some w → w.phase = .replying msg → Carries msg
  once : names.Nodup
  named : ∀ name, s.back.worker name ≠ none → name ∈ names

/-! ### Steps of a worker -/

theorem heldBy_idle {w : PPWorker} (idle : ∀ msg, w.phase ≠ .replying msg) :
    heldBy (some w) = [] := by
  obtain ⟨phase, _, _, _, _⟩ := w
  cases phase with
  | replying msg => exact absurd rfl (idle msg)
  | polling => rfl
  | beating => rfl
  | exited => rfl

theorem heldBy_replying {w : PPWorker} {msg : Msg} (phase : w.phase = .replying msg) :
    heldBy (some w) = (requestOf msg).toList := by
  obtain ⟨_, _, _, _, _⟩ := w
  obtain rfl := phase
  rfl

theorem worker_act (s : State) (identity : Frame) (arrived : Nat) (action : Action) :
    (s.act identity arrived action).worker = s.worker := by
  cases action <;> rfl

/-- What a worker does to its socket, but for sending a request back, loses messages and sends
control messages. -/
theorem backed_act {front : Front Name} {hands served : List Sent} [DecidableEq Name]
    (s : State) (identity : Frame) (arrived : Nat) {action : Action}
    (backed : Backed front (hands ++ s.net.filterMap taskOf) (s.net.filterMap answerOf) served)
    (control : ∀ msg, action = .send msg → Control msg) :
    Backed front (hands ++ (s.act identity arrived action).net.filterMap taskOf)
        ((s.act identity arrived action).net.filterMap answerOf) served ∧
      ∀ packet ∈ (s.act identity arrived action).net, packet ∈ s.net ∨ Control packet.2 := by
  cases action with
  | none => exact ⟨backed, fun _ mem => .inl mem⟩
  | send msg =>
      obtain ⟨byte, rfl⟩ := control msg rfl
      refine ⟨backed.sendSilent rfl rfl, fun packet mem => ?_⟩
      rcases Net.mem_send.mp mem with mem | rfl
      · exact .inl mem
      · exact .inr ⟨byte, rfl⟩
  | connect =>
      have rest : ((s.net.trim (.toWorker identity) 0).trim (.toQueue identity) arrived).Sublist
          s.net := (Net.trim_sublist _ _ _).trans (Net.trim_sublist _ _ _)
      refine ⟨(backed.drop rest).sendSilent rfl rfl, fun packet mem => ?_⟩
      rcases Net.mem_send.mp mem with mem | rfl
      · exact .inl (rest.subset mem)
      · exact .inr ⟨1, rfl⟩

section Workers

variable [DecidableEq Name] {s s' : Service Name} {names : List Frame} {identity : Frame}
  {w : PPWorker}

/-- A name may be added to the list of the workers. -/
theorem Relaying.name (before : Relaying s names) (identity : Frame) :
    ∃ names, Relaying s names ∧ identity ∈ names := by
  by_cases mem : identity ∈ names
  · exact ⟨names, before, mem⟩
  · have missing : s.back.worker identity = none := by
      by_contra started
      exact mem (before.named identity started)
    have held : s.back.held (identity :: names) = s.back.held names := by
      rw [State.held, List.flatMap_cons, missing]
      rfl
    exact ⟨identity :: names, ⟨held.symm ▸ before.backed, before.shaped, before.inHand,
      List.nodup_cons.mpr ⟨mem, before.once⟩,
      fun name started => List.mem_cons_of_mem _ (before.named name started)⟩,
      List.mem_cons_self⟩

/-- A worker goes on with another request in its hands, or none. -/
theorem Relaying.setWorker (before : Relaying s names) (mem : identity ∈ names)
    (inHand : ∀ msg, w.phase = .replying msg → Carries msg) :
    (∀ name v msg, Function.update s.back.worker identity (some w) name = some v →
      v.phase = .replying msg → Carries msg) ∧
    (∀ name, Function.update s.back.worker identity (some w) name ≠ none → name ∈ names) ∧
    ((names.flatMap fun name => heldBy (Function.update s.back.worker identity (some w) name)) ++
        heldBy (s.back.worker identity)).Perm
      ((names.flatMap fun name => heldBy (s.back.worker name)) ++ heldBy (some w)) := by
  refine ⟨?_, ?_, Table.flatMap_write_perm heldBy before.once mem (some w)⟩
  · intro name v msg found phase
    by_cases here : name = identity
    · subst here
      rw [Function.update_self] at found
      exact inHand msg (Option.some.inj found ▸ phase)
    · rw [Function.update_of_ne here] at found
      exact before.inHand name v msg found phase
  · intro name started
    by_cases here : name = identity
    · exact here ▸ mem
    · rw [Function.update_of_ne here] at started
      exact before.named name started

/-- A worker goes on without a request, and sends at most control messages. -/
theorem Relaying.idle {arrived : Nat} (out : PPWorker × Action) (before : Relaying s names)
    (mem : identity ∈ names) (idle : ∀ msg, out.1.phase ≠ .replying msg)
    (control : ∀ msg, out.2 = .send msg → Control msg) :
    Relaying { s with back := s.back.update identity arrived out } names := by
  obtain ⟨w, action⟩ := out
  obtain ⟨inHand, named, exchanged⟩ :=
    before.setWorker mem (w := w) fun msg phase => absurd phase (idle msg)
  rw [heldBy_idle idle, List.append_nil] at exchanged
  have fewer := (List.sublist_append_left _ (heldBy (s.back.worker identity))).subperm.trans
    exchanged.subperm
  obtain ⟨backed, packets⟩ := backed_act
    { s.back with worker := Function.update s.back.worker identity (some w) } identity arrived
    (before.backed.dropHands fewer) control
  have workers := worker_act
    { s.back with worker := Function.update s.back.worker identity (some w) } identity arrived
    action
  constructor
  · unfold State.held State.update
    rw [workers]
    exact backed
  · intro packet mem
    rcases packets packet mem with mem | control
    · exact before.shaped packet mem
    · exact .inl control
  · exact workers.symm ▸ inHand
  · exact before.once
  · exact workers.symm ▸ named

/-- A worker takes up the request of a message at most. -/
theorem heldBy_receive (w : PPWorker) (msg : Msg) (crash : Bool) :
    (heldBy (some (w.receive msg crash))).Sublist (requestOf msg).toList := by
  by_cases idle : ∀ held, (w.receive msg crash).phase ≠ .replying held
  · rw [heldBy_idle idle]
    exact List.nil_sublist _
  · push Not at idle
    obtain ⟨held, phase⟩ := idle
    obtain ⟨rfl, -⟩ := receive_replying phase
    rw [heldBy_replying phase]

theorem Relaying.receive {v : PPWorker} {msg : Msg} {net : Net Chan Msg} {crash : Bool}
    (before : Relaying s names) (mem : identity ∈ names)
    (received : Net.recv (.toWorker identity) s.back.net = some (msg, net)) :
    Relaying { s with
      back := { s.back with net := net }.update identity 0
        (v.receive msg crash, .none) } names := by
  have shaped := before.shaped _ (Net.mem_of_recv received)
  obtain ⟨inHand, named, exchanged⟩ := before.setWorker mem (w := v.receive msg crash) (by
    intro held phase
    obtain ⟨rfl, length⟩ := receive_replying phase
    rcases shaped with ⟨frame, rfl⟩ | carries
    · cases length
    · exact carries)
  have taken := before.backed.takeTask received
  refine ⟨taken.dropHands ?_, ?_, inHand, before.once, named⟩
  · -- the request goes from the connection into the worker's hands at most
    have hands := (List.sublist_append_left _ (heldBy (s.back.worker identity))).subperm.trans
      exchanged.subperm
    exact hands.trans ((heldBy_receive v msg crash).append_left _).subperm
  · exact fun packet mem => before.shaped packet (Net.mem_of_mem_recv received mem)

theorem Relaying.reply {msg : Msg} (before : Relaying s names) (mem : identity ∈ names)
    (found : s.back.worker identity = some w) (replying : w.phase = .replying msg) :
    Relaying { s with
      back := s.back.update identity 0 (w.reply msg)
      served := (requestOf msg).toList ++ s.served } names := by
  obtain ⟨socket, text, rfl, zeroLed, plain⟩ := before.inHand identity w msg found replying
  obtain ⟨inHand, named, exchanged⟩ := before.setWorker mem (w := (w.reply [socket, [], text]).1)
    fun _ => Phase.noConfusion
  rw [found, heldBy_replying replying, heldBy_idle fun _ => Phase.noConfusion,
    List.append_nil] at exchanged
  have requests : List.Subperm ((socket, text) ::
      ((names.flatMap fun name => heldBy (Function.update s.back.worker identity
        (some (w.reply [socket, [], text]).1) name)) ++ s.back.net.filterMap taskOf))
      (s.back.held names) :=
    ((List.perm_append_comm.trans exchanged).append_right _).subperm
  have backed := before.backed.fewer requests (.refl _)
  refine ⟨backed.sendAnswer rfl rfl, ?_, inHand, before.once, named⟩
  intro packet mem
  rcases Net.mem_send.mp mem with mem | rfl
  · exact before.shaped packet mem
  · exact .inr ⟨socket, text, rfl, zeroLed, plain⟩

theorem timeout_idle (w : PPWorker) :
    (∀ msg, w.timeout.1.phase ≠ .replying msg) ∧ ∀ msg, w.timeout.2 ≠ .send msg := by
  unfold PPWorker.timeout
  split
  · exact ⟨fun _ => Phase.noConfusion, fun _ => Action.noConfusion⟩
  · exact ⟨fun _ => Phase.noConfusion, fun _ => Action.noConfusion⟩

theorem beat_idle (w : PPWorker) (now later : Nat) :
    (∀ msg, (w.beat now later).1.phase ≠ .replying msg) ∧
      ∀ msg, (w.beat now later).2 = .send msg → msg = [pppHeartbeat] := by
  unfold PPWorker.beat
  split
  · exact ⟨fun _ => Phase.noConfusion, fun _ sent => (Action.send.inj sent).symm⟩
  · exact ⟨fun _ => Phase.noConfusion, fun _ => Action.noConfusion⟩

theorem Relaying.worker {step : WorkerStep} {back : State} (before : Relaying s names)
    (taken : workerStep s.back identity step = some back) :
    ∃ names, Relaying { s with
      back := back
      served := (answeredBy s.back identity step).toList ++ s.served } names := by
  obtain ⟨names, before, mem⟩ := before.name identity
  unfold workerStep at taken
  split at taken
  · rename_i now found
    obtain rfl := Option.some.inj taken
    exact ⟨names, before.idle (PPWorker.start now) mem (fun _ => Phase.noConfusion)
      fun _ => Action.noConfusion⟩
  · rename_i w crash found
    obtain ⟨polling, taken⟩ := Option.ite_none_right_eq_some.mp taken
    obtain ⟨⟨msg, net⟩, received, rfl⟩ := Option.map_eq_some_iff.mp taken
    exact ⟨names, before.receive mem received⟩
  · rename_i w arrived found
    obtain ⟨polling, taken⟩ := Option.ite_none_right_eq_some.mp taken
    obtain rfl := Option.some.inj taken
    have idle := timeout_idle w
    exact ⟨names, before.idle w.timeout mem idle.1 fun msg sent => absurd sent (idle.2 msg)⟩
  · rename_i w found
    split at taken
    · rename_i msg replying
      obtain rfl := Option.some.inj taken
      have answered : answeredBy s.back identity .reply = requestOf msg := by
        obtain ⟨_, _, _, _, _⟩ := w
        obtain rfl := replying
        rw [answeredBy, found]
      exact ⟨names, answered ▸ before.reply mem found replying⟩
    · cases taken
  · rename_i w now later found
    obtain ⟨beating, taken⟩ := Option.ite_none_right_eq_some.mp taken
    obtain rfl := Option.some.inj taken
    have idle := beat_idle w now later
    exact ⟨names, before.idle (w.beat now later) mem idle.1
      fun msg sent => ⟨2, idle.2 msg sent⟩⟩
  · cases taken

end Workers

/-! ### Parts of the queue's turn -/

/-- The queue reads whatever a worker sends. A control message has the byte that the queue
compares, and goes no further; a request that was sent back has three frames behind the
worker's, and goes to the client in front of it. -/
theorem backendBranch_shaped (clock : Nat → Nat) (q : Queue) (worker : Frame) {msg : Msg}
    (shaped : Shaped msg) :
    ∃ q', backendBranch clock q (worker :: msg) = some (q', []) ∧ requestOf msg = none ∨
      ∃ socket text, backendBranch clock q (worker :: msg) =
        some (q', [.frontend [socket, [], text]]) ∧ msg = [socket, [], text] ∧ Plain text := by
  rcases shaped with ⟨byte, rfl⟩ | ⟨socket, text, rfl, zeroLed, plain⟩
  · obtain ⟨known, tested⟩ : ∃ known, controlKnown [[byte]] = some known :=
      Option.isSome_iff_exists.mp (isSome_controlKnown.mpr ⟨_, _, rfl, List.cons_ne_nil _ _⟩)
    obtain ⟨q', handled⟩ : ∃ q', backendMessage clock q [worker, [byte]] = some (q', []) :=
      ⟨_, rfl⟩
    refine ⟨q', .inl ⟨?_, rfl⟩⟩
    rw [backendBranch, handled]
    exact congrArg (Option.map fun _ => (q', [])) tested
  · obtain ⟨bytes, rfl⟩ := zeroLed.eq_cons
    exact ⟨_, .inr ⟨0 :: bytes, text, rfl, rfl, plain⟩⟩

/-- The queue gives a request to a worker as it is. -/
theorem queueStep_frontend {clock : Nat → Nat} {s s' : State} {client : Frame} {body : Msg}
    (taken : queueStep clock s (.frontend client body) = some s') :
    ∃ w : Worker, s'.worker = s.worker ∧
      s'.net = s.net.send (.toWorker w.identity) (client :: body) := by
  obtain ⟨⟨⟨items, cursor⟩, at_, tick⟩, turn, worker, net, unanswered⟩ := s
  cases turn with
  | poll => cases taken
  | backend ready request => cases ready <;> cases taken
  | heartbeat => cases taken
  | purge => cases taken
  | frontend request =>
      cases request with
      | false => cases taken
      | true =>
          cases items with
          | nil => cases taken
          | cons w rest =>
              obtain ⟨-, same⟩ := Option.ite_none_left_eq_some.mp taken
              obtain rfl := Option.some.inj same
              exact ⟨w, rfl, rfl⟩

/-- Heartbeats on their way carry nothing. -/
theorem backed_beats {front : Front Name} {hands served : List Sent} [DecidableEq Name]
    (workers : List Worker) {net : Net Chan Msg}
    (backed : Backed front (hands ++ net.filterMap taskOf) (net.filterMap answerOf) served) :
    Backed front
        (hands ++ (deliver net
          (workers.map fun w => .backend [w.identity, pppHeartbeat])).filterMap taskOf)
        ((deliver net
          (workers.map fun w => .backend [w.identity, pppHeartbeat])).filterMap answerOf) served ∧
      ∀ packet ∈ deliver net (workers.map fun w => .backend [w.identity, pppHeartbeat]),
        packet ∈ net ∨ Control packet.2 := by
  induction workers generalizing net with
  | nil => exact ⟨backed, fun _ mem => .inl mem⟩
  | cons w workers ih =>
      let sent := net.send (.toWorker w.identity) [pppHeartbeat]
      have carried : Backed front (hands ++ sent.filterMap taskOf) (sent.filterMap answerOf)
          served := backed.sendSilent rfl rfl
      obtain ⟨backed, packets⟩ := ih carried
      refine ⟨backed, fun packet mem => ?_⟩
      rcases packets packet mem with mem | control
      · rcases Net.mem_send.mp mem with mem | rfl
        · exact .inl mem
        · exact .inr ⟨2, rfl⟩
      · exact .inr control

section Queue

variable [DecidableEq Name] {clock : Nat → Nat} {s s' : Service Name} {names : List Frame}

theorem Relaying.backend {worker : Frame} (before : Relaying s names)
    (taken : serviceStep clock s (.backend worker) = some s') : Relaying s' names := by
  obtain ⟨⟨msg, net⟩, received, taken⟩ := Option.bind_eq_some_iff.mp taken
  obtain ⟨⟨q', out⟩, read, taken⟩ := Option.bind_eq_some_iff.mp taken
  obtain ⟨back, did, rfl⟩ := Option.map_eq_some_iff.mp taken
  obtain ⟨workers, network⟩ : back.worker = s.back.worker ∧ back.net = net := by
    rcases queueStep_cases did with ⟨_, _, net', same, received', -, -, workers, network⟩ |
      ⟨_, _, _, _, same, _⟩ | ⟨other, _⟩
    · obtain rfl := QueueStep.backend.inj same
      obtain ⟨-, rfl⟩ := Prod.mk.inj (Option.some.inj (received.symm.trans received'))
      exact ⟨workers, network⟩
    · cases same
    · exact absurd rfl (other worker)
  have shaped : ∀ packet ∈ net, Shaped packet.2 :=
    fun packet mem => before.shaped packet (Net.mem_of_mem_recv received mem)
  have held : back.held names = (names.flatMap fun name => heldBy (s.back.worker name)) ++
      back.net.filterMap taskOf := by rw [State.held, workers]
  obtain ⟨_, ⟨read', -⟩ | ⟨socket, text, read', rfl, plain⟩⟩ :=
    backendBranch_shaped clock s.back.queue worker (before.shaped _ (Net.mem_of_recv received))
  · obtain ⟨rfl, rfl⟩ := Prod.mk.inj (Option.some.inj (read'.symm.trans read))
    refine ⟨?_, network ▸ shaped, workers ▸ before.inHand, before.once, workers ▸ before.named⟩
    rw [held, State.returned, network]
    exact before.backed.drop (Net.recv_sublist received)
  · obtain ⟨rfl, rfl⟩ := Prod.mk.inj (Option.some.inj (read'.symm.trans read))
    refine ⟨?_, network ▸ shaped, workers ▸ before.inHand, before.once, workers ▸ before.named⟩
    rw [held, State.returned, network]
    exact before.backed.giveAnswer received rfl plain

theorem Relaying.frontend {socket : Frame} (before : Relaying s names)
    (taken : serviceStep clock s (.frontend socket) = some s') : Relaying s' names := by
  obtain ⟨⟨msg, front⟩, given, taken⟩ := Option.bind_eq_some_iff.mp taken
  obtain ⟨back, did, rfl⟩ := Option.map_eq_some_iff.mp taken
  obtain ⟨text, rfl, zeroLed, plain, backed⟩ := before.backed.take given
  obtain ⟨w, workers, network⟩ := queueStep_frontend did
  refine ⟨?_, ?_, workers ▸ before.inHand, before.once, workers ▸ before.named⟩
  · rw [State.held, State.returned, workers, network]
    exact backed.sendTask rfl rfl
  · rw [network]
    intro packet mem
    rcases Net.mem_send.mp mem with mem | rfl
    · exact before.shaped packet mem
    · exact .inr ⟨socket, text, rfl, zeroLed, plain⟩

/-- The other parts of a turn send heartbeats at most. -/
theorem Relaying.turn {step : QueueStep} (before : Relaying s names)
    (taken : serviceStep clock s (.queue step) = some s') : Relaying s' names := by
  obtain ⟨blind, taken⟩ := Option.ite_none_left_eq_some.mp taken
  obtain ⟨back, did, rfl⟩ := Option.map_eq_some_iff.mp taken
  rcases queueStep_cases did with ⟨worker, _, _, rfl, _⟩ | ⟨client, body, _, _, rfl, _⟩ |
    ⟨_, _, _, workers, beaten, network⟩
  · exact absurd rfl blind
  · exact absurd rfl blind
  · obtain ⟨backed, packets⟩ := backed_beats beaten before.backed
    refine ⟨?_, ?_, workers ▸ before.inHand, before.once, workers ▸ before.named⟩
    · rw [State.held, State.returned, workers, network]
      exact backed
    · rw [network]
      intro packet mem
      rcases packets packet mem with mem | control
      · exact before.shaped packet mem
      · exact .inl control

end Queue

/-! ### The list has a worker when a request is taken -/

/-- The frontend is polled only with a worker in the list, and one stays in it until the
request is taken. -/
def Polled (s : State) : Prop :=
  ∀ ready, s.turn = .backend ready true ∨ s.turn = .frontend true → s.queue.workers.items ≠ []

theorem Polled.worker {s s' : State} {identity : Frame} {step : WorkerStep} (before : Polled s)
    (taken : workerStep s identity step = some s') : Polled s' := by
  have same : s'.turn = s.turn := by
    have kept : ∀ (s : State) arrived out, (s.update identity arrived out).turn = s.turn := by
      rintro s arrived ⟨w, action⟩
      cases action <;> rfl
    rcases workerStep_cases taken with ⟨_, _, rfl⟩ | ⟨_, _, _, _, _, _, _, rfl⟩ |
      ⟨_, _, _, _, rfl⟩ | ⟨_, _, _, _, rfl⟩ | ⟨_, _, _, _, _, rfl⟩
    all_goals exact kept _ _ _
  intro ready turn
  rw [(workerStep_queue taken).1]
  exact before ready (same ▸ turn)

theorem Polled.queue {clock : Nat → Nat} {s s' : State} {step : QueueStep} (before : Polled s)
    (taken : queueStep clock s step = some s') : Polled s' := by
  intro ready turn
  unfold queueStep at taken
  split at taken
  · -- the poll looks at the list
    rename_i backend frontend _
    obtain rfl := Option.some.inj taken
    rcases turn with turn | turn
    · obtain ⟨-, asked⟩ := Turn.backend.inj turn
      have size : s.queue.workers.size ≠ 0 := bne_iff_ne.mp (Bool.and_eq_true_iff.mp asked).2
      exact List.ne_nil_of_length_pos (Nat.pos_of_ne_zero size)
    · cases turn
  · -- the worker that was heard from is listed
    obtain ⟨⟨msg, net⟩, -, taken⟩ := Option.bind_eq_some_iff.mp taken
    obtain ⟨⟨q', out⟩, read, taken⟩ := Option.bind_eq_some_iff.mp taken
    obtain rfl := Option.some.inj taken
    have handled := backendMessage_of_branch read
    unfold backendMessage at handled
    split at handled
    · cases handled
    · obtain ⟨rfl, -⟩ := Prod.mk.inj (Option.some.inj handled)
      simp [sWorkerReady_eq]
  · rename_i request polled
    obtain rfl := Option.some.inj taken
    rcases turn with turn | turn
    · cases turn
    · obtain rfl := Turn.frontend.inj turn
      exact before false (.inl polled)
  · obtain ⟨⟨q', out⟩, -, taken⟩ := Option.bind_eq_some_iff.mp taken
    obtain ⟨w, -, taken⟩ := Option.bind_eq_some_iff.mp taken
    obtain ⟨-, same⟩ := Option.ite_none_left_eq_some.mp taken
    obtain rfl := Option.some.inj same
    rcases turn with turn | turn <;> cases turn
  · obtain rfl := Option.some.inj taken
    rcases turn with turn | turn <;> cases turn
  · obtain rfl := Option.some.inj taken
    rcases turn with turn | turn <;> cases turn
  · obtain rfl := Option.some.inj taken
    rcases turn with turn | turn <;> cases turn
  · cases taken

/-! ### No part of a turn is undefined -/

theorem queueStep_backend_defined {clock : Nat → Nat} {s : State} {worker : Frame} {msg : Msg}
    {net : Net Chan Msg} {q' : Queue} {out : List Output} {request : Bool}
    (turn : s.turn = .backend true request)
    (received : Net.recv (.toQueue worker) s.net = some (msg, net))
    (read : backendBranch clock s.queue (worker :: msg) = some (q', out)) :
    ∃ s', queueStep clock s (.backend worker) = some s' := by
  obtain ⟨queue, _, workers, net, unanswered⟩ := s
  obtain rfl := turn
  simp only [queueStep, received, read, Option.bind_eq_bind, Option.bind_some]
  exact ⟨_, rfl⟩

theorem queueStep_frontend_defined (clock : Nat → Nat) (client frame : Frame) (body : Msg)
    {s : State} (turn : s.turn = .frontend true) (listed : s.queue.workers.items ≠ []) :
    ∃ s', queueStep clock s (.frontend client (frame :: body)) = some s' := by
  obtain ⟨⟨⟨items, cursor⟩, at_, tick⟩, _, workers, net, unanswered⟩ := s
  obtain rfl := turn
  obtain ⟨w, rest, rfl⟩ := List.exists_cons_of_ne_nil listed
  exact ⟨_, rfl⟩

/-! ### The system -/

section System

variable [DecidableEq Name] {clock : Nat → Nat} {s s' : Service Name} {names : List Frame}

theorem Relaying.step {l : ServiceStep Name} (before : Relaying s names)
    (taken : (paranoidPirate clock Name).step s l = some s') : ∃ names, Relaying s' names := by
  cases l with
  | front step =>
      obtain ⟨front, moved, rfl⟩ := Option.map_eq_some_iff.mp taken
      exact ⟨names, before.backed.front moved, before.shaped, before.inHand, before.once,
        before.named⟩
  | worker identity step =>
      obtain ⟨back, did, rfl⟩ := Option.map_eq_some_iff.mp taken
      exact before.worker did
  | backend worker => exact ⟨names, before.backend taken⟩
  | frontend socket => exact ⟨names, before.frontend taken⟩
  | queue step => exact ⟨names, before.turn taken⟩
  | lose packet =>
      obtain rfl := Option.some.inj taken
      have rest := List.eraseIdx_sublist s.back.net packet
      exact ⟨names, before.backed.drop rest, fun sent mem => before.shaped sent (rest.subset mem),
        before.inHand, before.once, before.named⟩

theorem Polled.step {l : ServiceStep Name} (before : Polled s.back)
    (taken : (paranoidPirate clock Name).step s l = some s') : Polled s'.back := by
  cases l with
  | front step =>
      obtain ⟨front, -, rfl⟩ := Option.map_eq_some_iff.mp taken
      exact before
  | worker identity step =>
      obtain ⟨back, did, rfl⟩ := Option.map_eq_some_iff.mp taken
      exact before.worker did
  | backend worker =>
      obtain ⟨_, -, taken⟩ := Option.bind_eq_some_iff.mp taken
      obtain ⟨_, -, taken⟩ := Option.bind_eq_some_iff.mp taken
      obtain ⟨back, did, rfl⟩ := Option.map_eq_some_iff.mp taken
      exact before.queue did
  | frontend socket =>
      obtain ⟨_, -, taken⟩ := Option.bind_eq_some_iff.mp taken
      obtain ⟨back, did, rfl⟩ := Option.map_eq_some_iff.mp taken
      exact before.queue did
  | queue step =>
      obtain ⟨-, taken⟩ := Option.ite_none_left_eq_some.mp taken
      obtain ⟨back, did, rfl⟩ := Option.map_eq_some_iff.mp taken
      exact before.queue did
  | lose packet =>
      obtain rfl := Option.some.inj taken
      exact before

theorem Relaying.start : Relaying (paranoidPirate clock Name).start [] where
  backed := .start
  shaped _ mem := absurd mem List.not_mem_nil
  inHand _ _ _ found := by cases found
  once := List.nodup_nil
  named _ started := absurd rfl started

theorem relaying_of_reachable (reach : Reachable (paranoidPirate clock Name) s) :
    (∃ names, Relaying s names) ∧ Polled s.back := by
  refine reach.invariant (fun s => (∃ names, Relaying s names) ∧ Polled s.back) ?_ ?_
  · refine ⟨⟨[], .start⟩, fun ready turn => ?_⟩
    rcases turn with turn | turn <;> cases turn
  · rintro s l s' ⟨⟨names, before⟩, polled⟩ taken
    exact ⟨before.step taken, polled.step taken⟩

/-- Whatever the order of the steps and whatever is lost, with workers that crash, come back
and are listed while they work: each client gives up in time, gets no reply but the one to
the request it waits for, and has no request answered more than `requestRetries` times or
twice on one socket. The queue can read each message of a worker, and give each request it
polled for to a worker. -/
theorem answered_by_workers (reach : Reachable (paranoidPirate clock Name) s) :
    (∀ name v, s.front.clients.session name = some v →
      Served s.front.clients (s.back.returned ++ s.front.answered) s.served name v) ∧
    AtMostOnce s.front.clients s.served ∧
    (∀ worker packet request, s.back.turn = .backend true request →
      Net.recv (.toQueue worker) s.back.net = some packet →
      ∃ s', (paranoidPirate clock Name).step s (.backend worker) = some s') ∧
    ∀ socket given, s.back.turn = .frontend true → s.front.take socket = some given →
      ∃ s', (paranoidPirate clock Name).step s (.frontend socket) = some s' := by
  obtain ⟨⟨names, relaying⟩, polled⟩ := relaying_of_reachable reach
  refine ⟨relaying.backed.served.1, relaying.backed.served.2, ?_, ?_⟩
  · rintro worker ⟨msg, net⟩ request turn received
    obtain ⟨q', out, read⟩ : ∃ q' out,
        backendBranch clock s.back.queue (worker :: msg) = some (q', out) := by
      obtain ⟨q', ⟨read, -⟩ | ⟨socket, text, read, -⟩⟩ := backendBranch_shaped clock
        s.back.queue worker (relaying.shaped _ (Net.mem_of_recv received))
      · exact ⟨q', _, read⟩
      · exact ⟨q', _, read⟩
    obtain ⟨back, did⟩ := queueStep_backend_defined turn received read
    refine ⟨{ s with front := forward s.front out, back := back }, ?_⟩
    simp only [paranoidPirate, serviceStep, received, read, Option.bind_eq_bind, Option.bind_some,
      Service.turn, did, Option.map_some]
  · rintro socket ⟨msg, front⟩ turn given
    obtain ⟨text, rfl, -⟩ := relaying.backed.take given
    obtain ⟨back, did⟩ :=
      queueStep_frontend_defined clock socket [] [text] turn (polled false (.inr turn))
    refine ⟨{ s with front := front, back := back }, ?_⟩
    simp only [paranoidPirate, serviceStep, given, Option.bind_eq_bind, Option.bind_some,
      Service.turn, did, Option.map_some]

/-- A worker is listed again by a heartbeat that crosses the request it has been given, and
the second try goes to it as well. -/
def crossedTries : List (ServiceStep Bool) :=
  [.worker [0x41] (.start 0), .queue (.poll true false), .backend [0x41], .queue .noFrontend,
    .queue .heartbeat, .queue .purge, .front (.act true (.start [0, 1])),
    .front (.act true (.send 0x2a)), .queue (.poll false true), .queue .noBackend,
    .frontend [0, 1], .queue .heartbeat, .queue .purge, .worker [0x41] (.timeout 1),
    .worker [0x41] (.beat 2000 2000), .queue (.poll true false), .backend [0x41],
    .queue .noFrontend, .queue .heartbeat, .queue .purge, .front (.act true (.timeout [0, 2])),
    .queue (.poll false true), .queue .noBackend, .frontend [0, 2], .queue .heartbeat,
    .queue .purge, .worker [0x41] (.receive false), .worker [0x41] .reply,
    .worker [0x41] (.beat 2000 2000), .worker [0x41] (.receive false), .worker [0x41] .reply,
    .worker [0x41] (.beat 2000 2000), .queue (.poll true false), .backend [0x41],
    .queue .noFrontend, .queue .heartbeat, .queue .purge, .queue (.poll true false),
    .backend [0x41], .queue .noFrontend, .front (.reply true)]

/-- The worker has served both tries, and the client got the reply to the second. -/
theorem answered_by_workers_crossed : ∃ (s : Service Bool) (v : Session),
    s.front.clients.session true = some v ∧ v.client.phase = .outer ∧
      s.back.returned ++ s.front.answered = [([0, 1], requestText 1 0x2a)] ∧
      s.served = [([0, 2], requestText 1 0x2a), ([0, 1], requestText 1 0x2a)] ∧
      Served s.front.clients (s.back.returned ++ s.front.answered) s.served true v ∧
      AtMostOnce s.front.clients s.served := by
  have ran : ((paranoidPirate (fun _ => 0) Bool).exec (paranoidPirate (fun _ => 0) Bool).start
      crossedTries).map (fun s => (s.back.returned ++ s.front.answered, s.served)) =
      some ([([0, 1], requestText 1 0x2a)],
        [([0, 2], requestText 1 0x2a), ([0, 1], requestText 1 0x2a)]) := by decide
  have left : ((paranoidPirate (fun _ => 0) Bool).exec (paranoidPirate (fun _ => 0) Bool).start
      crossedTries).bind (fun s => (s.front.clients.session true).map (·.client.phase)) =
      some .outer := by decide
  obtain ⟨s, done, seen⟩ := Option.map_eq_some_iff.mp ran
  obtain ⟨replies, served⟩ := Prod.mk.inj seen
  rw [done, Option.bind_some] at left
  obtain ⟨v, found, phase⟩ := Option.map_eq_some_iff.mp left
  obtain ⟨each, once, -⟩ := answered_by_workers (Reachable.start.exec done)
  exact ⟨s, v, found, phase, replies, served, each true v found, once⟩

end System

end ZmqPractices.Pirate
