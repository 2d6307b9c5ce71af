import ZmqPractices.Pirate.OneRequest

/-!
Where an unanswered request is.

A dispatched request is in the worker's channel, in its hands, or in the channel
back as a reply; a worker that crashes, reconnects or does not understand it loses
it. `inFlight_le_unanswered` bounds the requests that are somewhere by the entries
of `unanswered`, so a run with at most one entry per worker has at most one
request at, towards or from each worker.
-/

namespace ZmqPractices.Pirate

open Czmq Lib

/-- A message with more than one frame: towards a worker a request, from it a
reply. Control messages have one. -/
def isTask (msg : Msg) : Bool := msg.length ≠ 1

/-- 1 while a worker has a request in hand. -/
def inHand : Option PPWorker → Nat
  | some ⟨.replying _, _, _, _, _⟩ => 1
  | _ => 0

/-- The requests and replies of a worker that have not been lost. -/
def inFlight (s : State) (w : Frame) : Nat :=
  (s.net.on (.toWorker w)).countP isTask + inHand (s.worker w) +
    (s.net.on (.toQueue w)).countP isTask

/-- What the workers have sent and hold: control messages of one non-empty frame,
and requests of three frames. -/
structure Accounted (s : State) : Prop where
  held : ∀ w p msg, s.worker w = some p → p.phase = .replying msg → msg.length = 3
  sent : ∀ w, ∀ msg ∈ s.net.on (.toQueue w), (∃ byte, msg = [[byte]]) ∨ msg.length = 3
  bound : ∀ w, inFlight s w ≤ s.unanswered.count w

theorem inHand_eq_zero {p : PPWorker} (phase : ∀ msg, p.phase ≠ .replying msg) :
    inHand (some p) = 0 := by
  obtain ⟨phase', _, _, _, _⟩ := p
  cases phase' with
  | replying msg => exact absurd rfl (phase msg)
  | _ => rfl

theorem inHand_le_one (p : Option PPWorker) : inHand p ≤ 1 := by
  unfold inHand
  split <;> omega

/-- What a worker sends leaves the channels towards the workers alone. -/
@[simp] theorem on_toWorker_send (net : Net Chan Msg) (v w : Frame) (msg : Msg) :
    (net.send (.toQueue v) msg).on (.toWorker w) = net.on (.toWorker w) :=
  Net.on_send_ne (by simp) net msg

theorem on_trim_sublist (c c' : Chan) (n : Nat) (net : Net Chan Msg) :
    ((Net.trim c n net).on c').Sublist (net.on c') :=
  (Net.trim_sublist c n net).filterMap _

/-- Heartbeats change neither the tasks towards the workers nor what they sent. -/
theorem deliver_heartbeats (workers : List Worker) (net : Net Chan Msg) (w : Frame) :
    ((deliver net (workers.map fun v => .backend [v.identity, pppHeartbeat])).on
        (.toWorker w)).countP isTask = (net.on (.toWorker w)).countP isTask ∧
      (deliver net (workers.map fun v => .backend [v.identity, pppHeartbeat])).on (.toQueue w) =
        net.on (.toQueue w) := by
  induction workers generalizing net with
  | nil => exact ⟨rfl, rfl⟩
  | cons v workers ih =>
      obtain ⟨tasks, sent⟩ := ih (net.send (.toWorker v.identity) [pppHeartbeat])
      rw [List.map_cons, deliver, tasks, sent]
      refine ⟨?_, Net.on_send_ne (by simp) _ _⟩
      by_cases same : v.identity = w
      · rw [same, Net.on_send_self, List.countP_append]
        rfl
      · rw [Net.on_send_ne (by simpa using same)]

section Steps

variable {s : State} {identity : Frame}

/-- A step of a worker accounts for its requests when the worker comes out with no
more tasks than it had, of the shapes its loop makes. -/
theorem Accounted.update (before : Accounted s) {s' : State} {p : PPWorker}
    (workers : s'.worker = Function.update s.worker identity (some p))
    (unanswered : s'.unanswered = s.unanswered)
    (others : ∀ v, v ≠ identity → (s'.net.on (.toWorker v)).Sublist (s.net.on (.toWorker v)) ∧
      (s'.net.on (.toQueue v)).Sublist (s.net.on (.toQueue v)))
    (held : ∀ msg, p.phase = .replying msg → msg.length = 3)
    (sent : ∀ msg ∈ s'.net.on (.toQueue identity),
      msg ∈ s.net.on (.toQueue identity) ∨ (∃ byte, msg = [[byte]]) ∨ msg.length = 3)
    (tasks : inFlight s' identity ≤ inFlight s identity) : Accounted s' := by
  constructor
  · intro w q msg found phase
    by_cases same : w = identity
    · rw [same, workers, Function.update_self] at found
      obtain rfl := Option.some.inj found
      exact held msg phase
    · rw [workers, Function.update_of_ne same] at found
      exact before.held w q msg found phase
  · intro w msg mem
    by_cases same : w = identity
    · rw [same] at mem
      rcases sent msg mem with old | new
      · exact before.sent identity msg old
      · exact new
    · exact before.sent w msg ((others w same).2.subset mem)
  · intro w
    rw [unanswered]
    refine le_trans ?_ (before.bound w)
    by_cases same : w = identity
    · rw [same]
      exact tasks
    · have toWorker := (others w same).1.countP_le (p := isTask)
      have toQueue := (others w same).2.countP_le (p := isTask)
      have hand : s'.worker w = s.worker w := by rw [workers, Function.update_of_ne same]
      simp only [inFlight, hand]
      omega

/-- Reconnecting only loses tasks. -/
theorem Accounted.connect (before : Accounted s) {p : PPWorker}
    (phase : ∀ msg, p.phase ≠ .replying msg) (arrived : Nat) :
    Accounted (s.update identity arrived (p, .connect)) := by
  have trimmed : ∀ c, ((Net.trim (.toQueue identity) arrived
      (Net.trim (.toWorker identity) 0 s.net)).on c).Sublist (s.net.on c) := fun c =>
    (on_trim_sublist _ c _ _).trans (on_trim_sublist _ c _ _)
  refine before.update rfl rfl (fun v other => ⟨?_, ?_⟩) (fun msg eq => absurd eq (phase msg))
    (fun msg mem => ?_) ?_
  · rw [State.update, State.act, on_toWorker_send]
    exact trimmed _
  · rw [State.update, State.act, Net.on_send_ne (by simpa using other.symm)]
    exact trimmed _
  · rw [State.update, State.act, Net.on_send_self, List.mem_append] at mem
    rcases mem with mem | mem
    · exact .inl ((trimmed _).subset mem)
    · exact .inr (.inl ⟨1, List.mem_singleton.mp mem⟩)
  · have toWorker := (trimmed (.toWorker identity)).countP_le (p := isTask)
    have toQueue := (trimmed (.toQueue identity)).countP_le (p := isTask)
    have control : [[pppReady]].countP isTask = 0 := rfl
    simp only [inFlight, State.update, State.act, Function.update_self, inHand_eq_zero phase,
      Net.on_send_self, List.countP_append, on_toWorker_send, control]
    omega

/-- A step that leaves the socket alone and takes nothing in hand. -/
theorem Accounted.quiet (before : Accounted s) {p : PPWorker}
    (phase : ∀ msg, p.phase ≠ .replying msg) :
    Accounted (s.update identity 0 (p, .none)) := by
  refine before.update rfl rfl (fun v _ => ⟨.refl _, .refl _⟩)
    (fun msg eq => absurd eq (phase msg)) (fun msg mem => .inl mem) ?_
  simp only [inFlight, State.update, State.act, Function.update_self, inHand_eq_zero phase]
  omega

/-- Sending a control message, or the request in hand. -/
theorem Accounted.send (before : Accounted s) {p : PPWorker} {msg : Msg}
    (phase : ∀ msg, p.phase ≠ .replying msg)
    (shape : (∃ byte, msg = [[byte]]) ∨ msg.length = 3 ∧ inHand (s.worker identity) = 1) :
    Accounted (s.update identity 0 (p, .send msg)) := by
  refine before.update rfl rfl (fun v other => ⟨?_, ?_⟩) (fun msg eq => absurd eq (phase msg))
    (fun m mem => ?_) ?_
  · rw [State.update, State.act, on_toWorker_send]
  · rw [State.update, State.act, Net.on_send_ne (by simpa using other.symm)]
  · rw [State.update, State.act, Net.on_send_self, List.mem_append] at mem
    rcases mem with mem | mem
    · exact .inl mem
    · obtain rfl := List.mem_singleton.mp mem
      exact .inr (shape.imp id And.left)
  · have room : [msg].countP isTask ≤ inHand (s.worker identity) := by
      rcases shape with ⟨byte, rfl⟩ | ⟨_, hand⟩
      · exact Nat.zero_le _
      · exact hand ▸ List.countP_le_length
    simp only [inFlight, State.update, State.act, Function.update_self, inHand_eq_zero phase,
      Net.on_send_self, List.countP_append, on_toWorker_send]
    omega

/-- Receiving takes at most one task in hand, and it was in the channel. -/
theorem Accounted.receive (before : Accounted s) {w : PPWorker} {msg : Msg}
    {net : Net Chan Msg} {crash : Bool} (found : s.worker identity = some w)
    (polling : w.phase = .polling)
    (received : Net.recv (.toWorker identity) s.net = some (msg, net)) :
    Accounted ({ s with net := net }.update identity 0 (w.receive msg crash, .none)) := by
  have idle : inHand (s.worker identity) = 0 := by
    rw [found]
    exact inHand_eq_zero fun msg => by simp [polling]
  have elsewhere : ∀ c, Chan.toWorker identity ≠ c → s.net.on c = net.on c := fun c other =>
    Net.on_recv_ne other received
  refine before.update rfl rfl (fun v other => ⟨?_, ?_⟩) (fun held eq => ?_) (fun m mem => ?_) ?_
  · rw [elsewhere (.toWorker v) (by simpa using other.symm)]
    exact .refl _
  · rw [elsewhere (.toQueue v) (by simp)]
    exact .refl _
  · obtain ⟨rfl, length⟩ := receive_replying eq
    exact length
  · rw [elsewhere (.toQueue identity) (by simp)]
    exact .inl mem
  · have task : inHand (some (w.receive msg crash)) ≤ [msg].countP isTask := by
      by_cases replying : ∃ held, (w.receive msg crash).phase = .replying held
      · obtain ⟨held, eq⟩ := replying
        have length := (receive_replying eq).2
        have : isTask msg = true := by simp [isTask, length]
        simpa [this] using inHand_le_one (some (w.receive msg crash))
      · rw [inHand_eq_zero fun held eq => replying ⟨held, eq⟩]
        exact Nat.zero_le _
    have taken : (s.net.on (.toWorker identity)).countP isTask =
        [msg].countP isTask + (net.on (.toWorker identity)).countP isTask := by
      rw [Net.on_recv_self received, ← List.countP_append]
      rfl
    have kept := elsewhere (.toQueue identity) (by simp)
    simp only [inFlight, State.update, State.act, Function.update_self, taken, kept, idle]
    omega

/-- Every step of a worker accounts for its requests. -/
theorem Accounted.worker (before : Accounted s) {s' : State} {step : WorkerStep}
    (taken : workerStep s identity step = some s') : Accounted s' := by
  rcases workerStep_cases taken with ⟨now, _, rfl⟩ |
    ⟨w, msg, net, crash, found, polling, received, rfl⟩ |
    ⟨w, arrived, _, _, rfl⟩ | ⟨w, msg, found, phase, rfl⟩ | ⟨w, now, later, _, _, rfl⟩
  · exact before.connect (by simp) 0
  · exact before.receive found polling received
  · by_cases silent : w.liveness - 1 = 0
    · rw [PPWorker.timeout, if_pos silent]
      exact before.connect (by simp) arrived
    · rw [PPWorker.timeout, if_neg silent]
      exact before.quiet (by simp)
  · refine before.send (by simp) (.inr ⟨before.held identity w msg found phase, ?_⟩)
    obtain ⟨phase', _, _, _, _⟩ := w
    obtain rfl : phase' = .replying msg := phase
    rw [found]
    rfl
  · by_cases due : w.heartbeatAt < now
    · rw [PPWorker.beat, if_pos due]
      exact before.send (by simp) (.inl ⟨2, rfl⟩)
    · rw [PPWorker.beat, if_neg due]
      exact before.quiet (by simp)

/-- Reading a message of a worker: a task that is read takes its entry with it. -/
theorem Accounted.hear (before : Accounted s) {s' : State} {worker : Frame} {msg : Msg}
    (received : Net.recv (.toQueue worker) s.net = some (msg, s'.net))
    (unanswered : s'.unanswered =
      (if isControl (worker :: msg) then s.unanswered else s.unanswered.erase worker))
    (workers : s'.worker = s.worker) : Accounted s' := by
  have toWorker : ∀ v, s.net.on (.toWorker v) = s'.net.on (.toWorker v) := fun v =>
    Net.on_recv_ne (by simp) received
  have first : s.net.on (.toQueue worker) = msg :: s'.net.on (.toQueue worker) :=
    Net.on_recv_self received
  have others : ∀ v, v ≠ worker → s.net.on (.toQueue v) = s'.net.on (.toQueue v) :=
    fun v other => Net.on_recv_ne (by simpa using other.symm) received
  refine ⟨workers ▸ before.held, fun v m mem => ?_, fun v => ?_⟩
  · by_cases same : v = worker
    · subst same
      exact before.sent v m (first ▸ List.mem_cons_of_mem _ mem)
    · exact before.sent v m (others v same ▸ mem)
  · have bound := before.bound v
    rw [unanswered]
    by_cases same : v = worker
    · subst same
      rw [inFlight, toWorker, first, List.countP_cons] at bound
      by_cases control : isControl (v :: msg) = true
      · rw [if_pos control, inFlight, workers]
        omega
      · have task : isTask msg = true := by
          rcases before.sent v msg (first ▸ List.mem_cons_self) with ⟨byte, rfl⟩ | length
          · exact absurd rfl control
          · simp [isTask, length]
        rw [if_neg control, List.count_erase_self, inFlight, workers]
        rw [if_pos task] at bound
        omega
    · rw [inFlight, toWorker, others v same] at bound
      rw [inFlight, workers]
      split
      · exact bound
      · rw [List.count_erase_of_ne same]
        exact bound

/-- Sending a request to a worker adds an entry for it. -/
theorem Accounted.dispatch (before : Accounted s) {s' : State} {worker : Frame} {msg : Msg}
    (unanswered : s'.unanswered = worker :: s.unanswered) (workers : s'.worker = s.worker)
    (network : s'.net = s.net.send (.toWorker worker) msg) : Accounted s' := by
  have toQueue : ∀ v, s'.net.on (.toQueue v) = s.net.on (.toQueue v) := fun v => by
    rw [network, Net.on_send_ne (by simp)]
  refine ⟨workers ▸ before.held, fun v m mem => before.sent v m (toQueue v ▸ mem), fun v => ?_⟩
  have bound := before.bound v
  rw [unanswered, inFlight, workers, toQueue]
  rw [inFlight] at bound
  by_cases same : worker = v
  · have : [msg].countP isTask ≤ 1 := List.countP_le_length
    rw [network, same, Net.on_send_self, List.countP_append, List.count_cons_self]
    omega
  · rw [network, Net.on_send_ne (by simpa using same), List.count_cons_of_ne same]
    exact bound

/-- Every step of the queue accounts for the requests: it reads at most one reply
for each entry it erases, and adds an entry for each request it sends. -/
theorem Accounted.queue (before : Accounted s) {clock : Nat → Nat} {s' : State} {step : QueueStep}
    (taken : queueStep clock s step = some s') : Accounted s' := by
  rcases queueStep_cases taken with ⟨worker, msg, net, _, received, _, unanswered, workers, rfl⟩ |
    ⟨client, body, w, rest, _, _, _, unanswered, workers, content, network⟩ |
    ⟨_, _, unanswered, workers, beaten, network⟩
  · exact before.hear received unanswered workers
  · exact before.dispatch unanswered workers network
  · have tasks := fun v => deliver_heartbeats beaten s.net v
    rw [← network] at tasks
    refine ⟨workers ▸ before.held, fun v m mem => ?_, fun v => ?_⟩
    · exact before.sent v m ((tasks v).2 ▸ mem)
    · rw [unanswered, inFlight, workers, (tasks v).1, (tasks v).2]
      exact before.bound v

end Steps

/-- In every reachable state, `unanswered` counts every request that is in a
worker's channel, in its hands or on its way back. -/
theorem inFlight_le_unanswered {clock : Nat → Nat} {s : State} (reach : Reachable (pirate clock) s)
    (w : Frame) : inFlight s w ≤ s.unanswered.count w := by
  suffices Accounted s from this.bound w
  refine reach.invariant Accounted ⟨by simp [pirate], by simp [pirate], fun w => ?_⟩ ?_
  · simp [inFlight, pirate, inHand]
  · intro s l s' before taken
    cases l with
    | worker identity step => exact before.worker taken
    | queue step => exact before.queue taken

/-- So in a run without crossings no worker ever has more than one request at,
towards or from it, and a listed worker has none. -/
theorem inFlight_of_noCrossing {clock : Nat → Nat} {past : List (State × Label)} {s : State}
    (run : Run (pirate clock) past s) (noCrossing : EachStep NoCrossing past) (w : Frame) :
    inFlight s w ≤ 1 ∧ ∀ v ∈ s.queue.workers.items, inFlight s v.identity = 0 := by
  have good : Always OneRequest past s :=
    run.exact Distinct OneRequest NoCrossing oneRequest_start
      (fun _ _ _ distinct before taken =>
        ⟨before.step distinct taken, fun _ => distinct.step taken⟩) |>.mpr noCrossing
  have counted := inFlight_le_unanswered run.reachable
  refine ⟨(counted w).trans (good.1.one w), fun v mem => ?_⟩
  have := counted v.identity
  rw [List.count_eq_zero.mpr (good.1.listed v mem)] at this
  exact Nat.eq_zero_of_le_zero this

end ZmqPractices.Pirate
