import ZmqPractices.SimplePirate.EndToEnd

/-!
Which workers the Simple Pirate queue gives requests to.

A worker that runs has at most one token: its READY or a reply on its way to the queue, its
place in the list, or a request on its way to it or in its hands. One that has crashed had
the token in its hands and took it along. So the workers in the list wait for a request,
although the queue watches none of them, unless one was interrupted as it waited.
-/

namespace ZmqPractices.SimplePirate

open Czmq Lib
open LazyPirate (Sent requestText)
open Peering (reqSend)

variable {Name : Type}

/-! ### Tokens -/

/-- 1 for a worker with a request in its hands. -/
def WorkerPhase.busy : WorkerPhase → Nat
  | .working _ => 1
  | _ => 0

/-- 1 for a worker that has not crashed. -/
def WorkerPhase.alive : WorkerPhase → Nat
  | .crashed => 0
  | _ => 1

/-- A quantity of the worker's phase; 0 for a worker that was not started. -/
def State.worth (s : State Name) (part : WorkerPhase → Nat) (w : Frame) : Nat :=
  (Table.find Worker.identity w s.workers).elim 0 fun v => part v.phase

/-- The tokens of a worker. -/
def tokens (s : State Name) (w : Frame) : Nat :=
  (s.net.on (.toBackend w)).length + s.queue.availableWorkers.items.count w +
    (s.net.on (.toWorker w)).length + s.worth WorkerPhase.busy w

/-- A worker has at most one token, and one that has crashed has none. -/
def OneToken (s : State Name) : Prop := ∀ w, tokens s w ≤ s.worth WorkerPhase.alive w

section Step

variable {s s' : State Name} {identity : Frame}

/-- A worker's phase after a write to this one. -/
theorem worth_setWorker (write : Worker → Worker) {v : Worker}
    (found : Table.find Worker.identity identity s.workers = some v)
    (kept : ∀ v, (write v).identity = v.identity) (part : WorkerPhase → Nat) (w : Frame) :
    (s.setWorker identity write).worth part w =
      if w = identity then part (write v).phase else s.worth part w := by
  split
  · rename_i same
    subst same
    rw [State.worth, State.setWorker, Table.find_update_self kept, found]
    rfl
  · rename_i other
    rw [State.worth, State.setWorker, Table.find_update_ne kept other]
    rfl

/-- A step that leaves the queue and the workers alone and sends them nothing. -/
theorem OneToken.sublist (before : OneToken s) (queue : s'.queue = s.queue)
    (workers : s'.workers = s.workers)
    (backend : ∀ w, (s'.net.on (.toBackend w)).Sublist (s.net.on (.toBackend w)))
    (worker : ∀ w, (s'.net.on (.toWorker w)).Sublist (s.net.on (.toWorker w))) : OneToken s' := by
  intro w
  have said := (backend w).length_le
  have given := (worker w).length_le
  have one := before w
  unfold tokens State.worth at *
  rw [queue, workers]
  omega

theorem OneToken.startWorker (before : OneToken s)
    (missing : Table.find Worker.identity identity s.workers = none) :
    OneToken { s with
      workers := .start identity :: s.workers
      net := s.net.send (.toBackend identity) (reqSend [workerReady]) } := by
  intro w
  have one := before w
  unfold tokens State.worth at *
  by_cases same : w = identity
  · subst same
    rw [missing] at one
    have found : Table.find Worker.identity w (Worker.start w :: s.workers) =
        some (Worker.start w) := by simp [Table.find, Worker.start]
    rw [found, Net.on_send_self, Net.on_send_ne (by simp)]
    simp only [Option.elim_none, Option.elim_some, List.length_append, List.length_singleton] at *
    simp only [Worker.start, WorkerPhase.busy, WorkerPhase.alive]
    omega
  · have found : Table.find Worker.identity w (Worker.start identity :: s.workers) =
        Table.find Worker.identity w s.workers := by
      simp [Table.find, Worker.start, Ne.symm same]
    rw [found, Net.on_send_ne (by simpa using Ne.symm same), Net.on_send_ne (by simp)]
    exact one

theorem OneToken.takeTask {v : Worker} {msg content : Msg} {net : Net Chan Msg} {crash : Bool}
    (before : OneToken s) (found : Table.find Worker.identity identity s.workers = some v)
    (waiting : v.phase = .waiting)
    (received : Net.recv (.toWorker identity) s.net = some (msg, net)) :
    OneToken { s.setWorker identity (.receive content crash) with net := net } := by
  intro w
  have one := before w
  have kept := Worker.identity_receive content crash
  have running := worth_setWorker _ found kept WorkerPhase.alive w
  have working := worth_setWorker _ found kept WorkerPhase.busy w
  have said : s.net.on (.toBackend w) = net.on (.toBackend w) := Net.on_recv_ne (by simp) received
  unfold tokens at *
  rw [said] at one
  show _ + s.queue.availableWorkers.items.count w + _ +
    (s.setWorker identity (.receive content crash)).worth WorkerPhase.busy w ≤
    (s.setWorker identity (.receive content crash)).worth WorkerPhase.alive w
  by_cases same : w = identity
  · subst same
    have given : (s.net.on (.toWorker w)).length = (net.on (.toWorker w)).length + 1 := by
      rw [Net.on_recv_self received, List.length_cons]
    have runs : s.worth WorkerPhase.alive w = 1 := by
      rw [State.worth, found, Option.elim_some, waiting]
      rfl
    rw [running, working, if_pos rfl, if_pos rfl]
    -- the token goes from the connection into the worker's hands, or out of the world
    rcases Worker.receive_cases content crash v with phase | phase
    · rw [phase]
      simp only [WorkerPhase.busy, WorkerPhase.alive]
      omega
    · rw [phase]
      simp only [WorkerPhase.busy, WorkerPhase.alive]
      omega
  · have given : s.net.on (.toWorker w) = net.on (.toWorker w) :=
      Net.on_recv_ne (by simpa using Ne.symm same) received
    rw [given] at one
    rw [running, working, if_neg same, if_neg same]
    exact one

theorem OneToken.answerTask {v : Worker} {msg : Msg} {served : List Sent} (before : OneToken s)
    (found : Table.find Worker.identity identity s.workers = some v)
    (working : v.phase = .working msg) :
    OneToken { s.setWorker identity .reply with
      net := s.net.send (.toBackend identity) (reqSend msg)
      served := served } := by
  intro w
  have one := before w
  have runs := worth_setWorker .reply found (fun _ => rfl) WorkerPhase.alive w
  have works := worth_setWorker .reply found (fun _ => rfl) WorkerPhase.busy w
  unfold tokens at *
  show ((s.net.send (.toBackend identity) (reqSend msg)).on (.toBackend w)).length +
      s.queue.availableWorkers.items.count w +
    ((s.net.send (.toBackend identity) (reqSend msg)).on (.toWorker w)).length +
      (s.setWorker identity .reply).worth WorkerPhase.busy w ≤
    (s.setWorker identity .reply).worth WorkerPhase.alive w
  have given : (s.net.send (.toBackend identity) (reqSend msg)).on (.toWorker w) =
      s.net.on (.toWorker w) := Net.on_send_ne (by simp) ..
  rw [given, runs, works]
  by_cases same : w = identity
  · subst same
    have held : s.worth WorkerPhase.busy w = 1 := by
      rw [State.worth, found, Option.elim_some, working]
      rfl
    have run : s.worth WorkerPhase.alive w = 1 := by
      rw [State.worth, found, Option.elim_some, working]
      rfl
    rw [if_pos rfl, if_pos rfl, Net.on_send_self, List.length_append, List.length_singleton]
    simp only [Worker.reply, WorkerPhase.busy, WorkerPhase.alive]
    omega
  · rw [if_neg same, if_neg same, Net.on_send_ne (by simpa using Ne.symm same)]
    exact one

theorem OneToken.interrupt {v : Worker} (before : OneToken s)
    (found : Table.find Worker.identity identity s.workers = some v)
    (waiting : v.phase = .waiting) : OneToken (s.setWorker identity .interrupt) := by
  intro w
  have one := before w
  have runs := worth_setWorker .interrupt found (fun _ => rfl) WorkerPhase.alive w
  have works := worth_setWorker .interrupt found (fun _ => rfl) WorkerPhase.busy w
  unfold tokens at *
  show (s.net.on (.toBackend w)).length + s.queue.availableWorkers.items.count w +
    (s.net.on (.toWorker w)).length + (s.setWorker identity .interrupt).worth WorkerPhase.busy w ≤
      (s.setWorker identity .interrupt).worth WorkerPhase.alive w
  rw [runs, works]
  by_cases same : w = identity
  · subst same
    have run : s.worth WorkerPhase.alive w = 1 := by
      rw [State.worth, found, Option.elim_some, waiting]
      rfl
    rw [if_pos rfl, if_pos rfl]
    simp only [Worker.interrupt, WorkerPhase.busy, WorkerPhase.alive]
    omega
  · rw [if_neg same, if_neg same]
    exact one

theorem OneToken.worker {step : WorkerStep} (before : OneToken s)
    (taken : workerStep s identity step = some s') : OneToken s' := by
  rcases workerStep_cases taken with ⟨missing, rfl⟩ |
    ⟨v, msg, net, crash, found, waiting, received, rfl⟩ | ⟨v, msg, found, working, rfl⟩ |
    ⟨v, found, waiting, rfl⟩
  · exact before.startWorker missing
  · split
    · exact before.takeTask found waiting received
    · refine before.sublist rfl rfl (fun w => ?_) fun w => ?_
      · exact (Net.recv_sublist received).filterMap _
      · exact (Net.recv_sublist received).filterMap _
  · exact before.answerTask found working
  · exact before.interrupt found waiting

/-- What the queue sends when it has heard from a worker goes to a client. -/
theorem backend_send {q queue : Queue} {msg : Msg} {out : Option Output}
    (done : turn q (.backend (identity :: msg)) = some (queue, out)) (s : State Name) :
    (s.send out).queue = s.queue ∧ (s.send out).workers = s.workers ∧ (s.send out).net = s.net := by
  obtain ⟨content, unwrapped⟩ := zmsgUnwrap_cons identity msg
  simp only [turn, backendMessage, unwrapped] at done
  obtain ⟨ready, -, same⟩ := Option.map_eq_some_iff.mp done
  obtain ⟨-, rfl⟩ := Prod.mk.inj same
  cases ready with
  | true => exact ⟨rfl, rfl, rfl⟩
  | false => cases content <;> exact ⟨rfl, rfl, rfl⟩

/-- The queue lists the worker it has heard from: the token goes from the connection into
the list. -/
theorem OneToken.backend [DecidableEq Name] (before : OneToken s)
    (taken : step s (.backend identity) = some s') : OneToken s' := by
  obtain ⟨msg, net, queue, out, received, done, rfl⟩ := backend_cases taken
  have listed : queue.availableWorkers.items = identity :: s.queue.availableWorkers.items := by
    obtain ⟨content, unwrapped⟩ := zmsgUnwrap_cons identity msg
    cases turn_moved done with
    | heard identity' _ content' _ unwrapped' =>
        obtain rfl := Option.some.inj (Prod.mk.inj (unwrapped.symm.trans unwrapped')).1
        rfl
  obtain ⟨sameQueue, sameWorkers, sameNet⟩ :=
    backend_send done { s with queue := queue, net := net }
  intro w
  have one := before w
  have given : s.net.on (.toWorker w) = net.on (.toWorker w) := Net.on_recv_ne (by simp) received
  unfold tokens State.worth at *
  rw [sameQueue, sameWorkers, sameNet, listed]
  rw [given] at one
  by_cases same : w = identity
  · subst same
    rw [Net.on_recv_self received, List.length_cons] at one
    rw [List.count_cons_self]
    dsimp only
    omega
  · rw [Net.on_recv_ne (by simpa using Ne.symm same) received] at one
    rw [List.count_cons_of_ne (Ne.symm same)]
    exact one

/-- The queue gives a request to the worker in front: the token goes out of the list. -/
theorem OneToken.frontend [DecidableEq Name] {socket : Frame} (before : OneToken s)
    (taken : step s (.frontend socket) = some s') : OneToken s' := by
  obtain ⟨msg, front, worker, workers, -, listed, rfl⟩ := frontend_cases taken
  intro w
  have one := before w
  unfold tokens State.worth at *
  rw [listed] at one
  have said : (s.net.send (.toWorker worker) ([] :: socket :: msg)).on (.toBackend w) =
      s.net.on (.toBackend w) := Net.on_send_ne Chan.noConfusion ..
  rw [said]
  by_cases same : worker = w
  · subst same
    rw [List.count_cons_self] at one
    rw [Net.on_send_self, List.length_append, List.length_singleton]
    dsimp only
    omega
  · rw [List.count_cons_of_ne same] at one
    rw [Net.on_send_ne (by simpa using same)]
    exact one

/-- What a worker with a token in the list or on its way to it does: it waits. -/
theorem OneToken.waiting (one : OneToken s) {w : Frame}
    (token : 0 < s.queue.availableWorkers.items.count w + (s.net.on (.toWorker w)).length) :
    s.queue.availableWorkers.items.count w + (s.net.on (.toWorker w)).length = 1 ∧
      s.net.on (.toBackend w) = [] ∧
      ∃ v, Table.find Worker.identity w s.workers = some v ∧
        (v.phase = .waiting ∨ v.phase = .interrupted) := by
  have one := one w
  unfold tokens State.worth at one
  cases found : Table.find Worker.identity w s.workers with
  | none =>
      rw [found] at one
      simp only [Option.elim_none] at one
      omega
  | some v =>
      rw [found] at one
      simp only [Option.elim_some] at one
      cases phase : v.phase with
      | waiting =>
          rw [phase] at one
          simp only [WorkerPhase.busy, WorkerPhase.alive] at one
          exact ⟨by omega, List.length_eq_zero_iff.mp (by omega), v, rfl, .inl phase⟩
      | interrupted =>
          rw [phase] at one
          simp only [WorkerPhase.busy, WorkerPhase.alive] at one
          exact ⟨by omega, List.length_eq_zero_iff.mp (by omega), v, rfl, .inr phase⟩
      | working msg =>
          rw [phase] at one
          simp only [WorkerPhase.busy, WorkerPhase.alive] at one
          omega
      | crashed =>
          rw [phase] at one
          simp only [WorkerPhase.busy, WorkerPhase.alive] at one
          omega

end Step

/-! ### The system -/

section System

variable [DecidableEq Name] {s s' : State Name}

theorem OneToken.step {l : Label Name} (before : OneToken s)
    (taken : (simplePirate Name).step s l = some s') : OneToken s' := by
  cases l with
  | front step =>
      obtain ⟨front, -, rfl⟩ := Option.map_eq_some_iff.mp taken
      exact before
  | worker identity step => exact before.worker taken
  | backend worker => exact before.backend taken
  | frontend socket => exact before.frontend taken
  | lose packet =>
      obtain rfl := Option.some.inj taken
      have fewer := List.eraseIdx_sublist s.net packet
      exact before.sublist rfl rfl (fun _ => fewer.filterMap _) fun _ => fewer.filterMap _

theorem oneToken_of_reachable (reach : Reachable (simplePirate Name) s) : OneToken s :=
  reach.invariant OneToken (fun _ => le_refl 0) fun _ _ _ before taken => before.step taken

/-- A worker in the list, or with a request on its way to it, waits for one, unless it was
interrupted as it waited. It is in the list once, or one request is on its way, and nothing
of its own is on the way to the queue. -/
theorem waiting_workers (reach : Reachable (simplePirate Name) s) {worker : Frame}
    (chosen : worker ∈ s.queue.availableWorkers.items ∨
      ∃ msg, (Chan.toWorker worker, msg) ∈ s.net) :
    s.queue.availableWorkers.items.count worker + (s.net.on (.toWorker worker)).length = 1 ∧
      s.net.on (.toBackend worker) = [] ∧
      ∃ w, Table.find Worker.identity worker s.workers = some w ∧
        (w.phase = .waiting ∨ w.phase = .interrupted) := by
  have one := oneToken_of_reachable reach
  rcases chosen with listed | ⟨msg, given⟩
  · have counted := List.count_pos_iff.mpr listed
    exact one.waiting (by omega)
  · have inside : msg ∈ s.net.on (.toWorker worker) :=
      List.mem_filterMap.mpr ⟨_, given, if_pos rfl⟩
    have length := List.length_pos_of_mem inside
    exact one.waiting (by omega)

/-- Two workers; the first has answered one request and the second has the next. -/
def twoWorkers : List (Label Bool) :=
  [.worker [0x41] .start, .worker [0x42] .start, .backend [0x41],
    .front (.act true (.start [0, 1])), .front (.act true (.send 0x2a)), .frontend [0, 1],
    .worker [0x41] (.receive false), .worker [0x41] .reply, .backend [0x41], .backend [0x42],
    .front (.reply true), .front (.act true (.send 7)), .frontend [0, 1]]

/-- The worker that was heard last was taken, and the other one is in the list. -/
theorem waiting_workers_two : ∃ s : State Bool,
    s.queue.availableWorkers.items = [[0x41]] ∧ s.served = [([0, 1], requestText 1 0x2a)] ∧
      s.queue.availableWorkers.items.count [0x41] + (s.net.on (.toWorker [0x41])).length = 1 ∧
      s.net.on (.toBackend [0x41]) = [] ∧
      ∃ w, Table.find Worker.identity [0x41] s.workers = some w ∧
        (w.phase = .waiting ∨ w.phase = .interrupted) := by
  have ran : ((simplePirate Bool).exec (simplePirate Bool).start twoWorkers).map (fun s =>
      (s.queue.availableWorkers.items, s.served)) =
      some ([[0x41]], [([0, 1], requestText 1 0x2a)]) := by decide
  obtain ⟨s, done, seen⟩ := Option.map_eq_some_iff.mp ran
  obtain ⟨listed, served⟩ := Prod.mk.inj seen
  exact ⟨s, listed, served,
    waiting_workers (Reachable.start.exec done) (.inl (listed ▸ List.mem_cons_self))⟩

end System

end ZmqPractices.SimplePirate
