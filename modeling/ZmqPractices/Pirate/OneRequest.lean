import ZmqPractices.Pirate.System
import ZmqPractices.Pirate.WorkerList

/-!
At most one request per worker, and where it fails.

The queue takes any message of a worker as a sign that it is ready, a heartbeat
included. A worker beats while it has no request in hand, but a request may be on
its way to it at that moment: the heartbeat crosses the request, the worker is
listed again, and the next request goes to it as well (`heartbeat_crosses_request`).

`one_request_iff` says that this is the only way: a run keeps every worker at one
unanswered request, and unanswered workers off the list, exactly when no READY or
HEARTBEAT is read from a worker whose request is still unanswered.
-/

namespace ZmqPractices.Pirate

open Czmq Lib

/-- No worker has two unanswered requests, and the workers in the list have none. -/
structure OneRequest (s : State) : Prop where
  one : ∀ w, s.unanswered.count w ≤ 1
  listed : ∀ w ∈ s.queue.workers.items, w.identity ∉ s.unanswered

/-- The step does not read a control message from a worker whose request is still
unanswered. -/
def NoCrossing (s : State) : Label → Prop
  | .queue (.backend worker) =>
      ∀ msg net, Net.recv (.toQueue worker) s.net = some (msg, net) →
        isControl (worker :: msg) = true → worker ∉ s.unanswered
  | _ => True

/-- The list has at most one entry for each id string, which is the string of the
entry's identity. -/
structure Distinct (s : State) : Prop where
  own : ∀ w ∈ s.queue.workers.items, w.idString = zframeStrdup w.identity
  once : (s.queue.workers.items.map Worker.idString).Nodup

/-! ### What a step does to the list and to the unanswered requests -/

@[simp] theorem update_queue (s : State) (identity : Frame) (arrived : Nat)
    (out : PPWorker × Action) : (s.update identity arrived out).queue = s.queue := by
  obtain ⟨w, action⟩ := out
  cases action <;> rfl

@[simp] theorem update_unanswered (s : State) (identity : Frame) (arrived : Nat)
    (out : PPWorker × Action) : (s.update identity arrived out).unanswered = s.unanswered := by
  obtain ⟨w, action⟩ := out
  cases action <;> rfl

/-- A worker's step is the update of its variables and of its channels by one of
the functions of its loop. -/
theorem workerStep_cases {s s' : State} {identity : Frame} {step : WorkerStep}
    (taken : workerStep s identity step = some s') :
    (∃ now, s.worker identity = none ∧ s' = s.update identity 0 (PPWorker.start now)) ∨
    (∃ w msg net crash, s.worker identity = some w ∧ w.phase = .polling ∧
      Net.recv (.toWorker identity) s.net = some (msg, net) ∧
      s' = { s with net := net }.update identity 0 (w.receive msg crash, .none)) ∨
    (∃ w arrived, s.worker identity = some w ∧ w.phase = .polling ∧
      s' = s.update identity arrived w.timeout) ∨
    (∃ w msg, s.worker identity = some w ∧ w.phase = .replying msg ∧
      s' = s.update identity 0 (w.reply msg)) ∨
    (∃ w now later, s.worker identity = some w ∧ w.phase = .beating ∧
      s' = s.update identity 0 (w.beat now later)) := by
  unfold workerStep at taken
  split at taken
  · rename_i now found
    exact .inl ⟨now, found, (Option.some.inj taken).symm⟩
  · rename_i w crash found
    split at taken
    · rename_i polling
      obtain ⟨⟨msg, net⟩, received, rfl⟩ := Option.map_eq_some_iff.mp taken
      exact .inr (.inl ⟨w, msg, net, crash, found, polling, received, rfl⟩)
    · simp at taken
  · rename_i w arrived found
    split at taken
    · rename_i polling
      exact .inr (.inr (.inl ⟨w, arrived, found, polling, (Option.some.inj taken).symm⟩))
    · simp at taken
  · rename_i w found
    split at taken
    · rename_i msg phase
      exact .inr (.inr (.inr (.inl ⟨w, msg, found, phase, (Option.some.inj taken).symm⟩)))
    · simp at taken
  · rename_i w now later found
    split at taken
    · rename_i beating
      exact .inr (.inr (.inr (.inr
        ⟨w, now, later, found, beating, (Option.some.inj taken).symm⟩)))
    · simp at taken
  · simp at taken

/-- A worker's step touches neither the queue nor the record of its requests. -/
theorem workerStep_queue {s s' : State} {identity : Frame} {step : WorkerStep}
    (taken : workerStep s identity step = some s') :
    s'.queue = s.queue ∧ s'.unanswered = s.unanswered := by
  rcases workerStep_cases taken with ⟨_, _, rfl⟩ | ⟨_, _, _, _, _, _, _, rfl⟩ |
    ⟨_, _, _, _, rfl⟩ | ⟨_, _, _, _, rfl⟩ | ⟨_, _, _, _, _, rfl⟩
  all_goals exact ⟨by simp, by simp⟩

/-- What a step of the queue does: read a message of a worker, which lists it;
give a request to the head of the list; or leave the requests alone, reduce the
list to a sublist of itself and send at most heartbeats. -/
theorem queueStep_cases {clock : Nat → Nat} {s s' : State} {step : QueueStep}
    (taken : queueStep clock s step = some s') :
    (∃ worker msg net, step = .backend worker ∧
      Net.recv (.toQueue worker) s.net = some (msg, net) ∧
      s'.queue.workers.items =
        s.queue.workers.items.eraseP (·.idString = zframeStrdup worker) ++
          [sWorkerNew (clock s.queue.tick) worker] ∧
      s'.unanswered =
        (if isControl (worker :: msg) then s.unanswered else s.unanswered.erase worker) ∧
      s'.worker = s.worker ∧ s'.net = net) ∨
    (∃ client body w rest, step = .frontend client body ∧
      s.queue.workers.items = w :: rest ∧ s'.queue.workers.items = rest ∧
      s'.unanswered = w.identity :: s.unanswered ∧ s'.worker = s.worker ∧ body ≠ [] ∧
      s'.net = s.net.send (.toWorker w.identity) (client :: body)) ∨
    ((∀ worker, step ≠ .backend worker) ∧
      s'.queue.workers.items.Sublist s.queue.workers.items ∧ s'.unanswered = s.unanswered ∧
      s'.worker = s.worker ∧ ∃ workers : List Worker,
        s'.net = deliver s.net (workers.map fun w => .backend [w.identity, pppHeartbeat])) := by
  unfold queueStep at taken
  split at taken
  · obtain rfl := Option.some.inj taken
    exact .inr (.inr ⟨by simp, .refl _, rfl, rfl, [], rfl⟩)
  · rename_i request worker _
    obtain ⟨⟨msg, net⟩, received, taken⟩ := Option.bind_eq_some_iff.mp taken
    obtain ⟨⟨queue, out⟩, survives, taken⟩ := Option.bind_eq_some_iff.mp taken
    obtain ⟨frames, unwrapped⟩ := zmsgUnwrap_cons worker msg
    have handled := backendMessage_of_branch survives
    simp only [backendMessage, unwrapped, Option.some.injEq, Prod.mk.injEq] at handled
    obtain ⟨rfl, rfl⟩ := handled
    obtain rfl := Option.some.inj taken
    refine .inl ⟨worker, msg, net, rfl, received, by simp [sWorkerReady_eq, sWorkerNew], rfl, rfl,
      ?_⟩
    dsimp only
    split <;> rfl
  · obtain rfl := Option.some.inj taken
    exact .inr (.inr ⟨by simp, .refl _, rfl, rfl, [], rfl⟩)
  · rename_i client body _
    obtain ⟨⟨⟨items, cursor⟩, at_, tick⟩, turn, worker, net, unanswered⟩ := s
    cases items with
    | nil => simp [frontendRequest, sWorkersNext, ZList.pop] at taken
    | cons w rest =>
        simp only [frontendRequest, sWorkersNext_cons, Option.map_some, Option.bind_eq_bind,
          Option.bind_some, List.head?_cons] at taken
        split at taken
        · simp at taken
        · rename_i content
          obtain rfl := Option.some.inj taken
          exact .inr (.inl ⟨client, body, w, rest, rfl, rfl, rfl, rfl, rfl, content, rfl⟩)
  · obtain rfl := Option.some.inj taken
    exact .inr (.inr ⟨by simp, .refl _, rfl, rfl, [], rfl⟩)
  · obtain rfl := Option.some.inj taken
    refine .inr (.inr ⟨by simp, ?_, rfl, rfl, ?_⟩)
    · rw [items_heartbeatRound]
    · rw [out_heartbeatRound]
      split
      · exact ⟨s.queue.workers.items, rfl⟩
      · exact ⟨[], rfl⟩
  · obtain rfl := Option.some.inj taken
    refine .inr (.inr ⟨by simp, ?_, rfl, rfl, [], rfl⟩)
    simp only [purgeWorkers, items_sWorkersPurge]
    exact Lease.purge_sublist _ _ _ _
  · simp at taken

/-! ### The list has each worker once -/

theorem Distinct.step {clock : Nat → Nat} {s s' : State} {l : Label} (distinct : Distinct s)
    (taken : (pirate clock).step s l = some s') : Distinct s' := by
  have of_sublist : s'.queue.workers.items.Sublist s.queue.workers.items → Distinct s' :=
    fun sub => ⟨fun w mem => distinct.own w (sub.subset mem), distinct.once.sublist (sub.map _)⟩
  cases l with
  | worker identity step =>
      apply of_sublist
      rw [(workerStep_queue taken).1]
  | queue step =>
      rcases queueStep_cases taken with ⟨worker, msg, net, _, _, items, _⟩ |
        ⟨client, body, w, rest, _, items, items', _⟩ | ⟨_, sub, _⟩
      · rw [Lease.eraseP_eq_filter distinct.once] at items
        constructor
        · intro w mem
          rw [items] at mem
          rcases List.mem_append.mp mem with mem | mem
          · exact distinct.own w (List.mem_of_mem_filter mem)
          · obtain rfl := List.mem_singleton.mp mem
            rfl
        · rw [items, List.map_append, List.nodup_append]
          refine ⟨distinct.once.sublist (List.filter_sublist.map _), List.nodup_singleton _, ?_⟩
          intro string mem own single
          obtain rfl : own = zframeStrdup worker := List.mem_singleton.mp single
          obtain ⟨w, kept, rfl⟩ := List.mem_map.mp mem
          simpa using (List.mem_filter.mp kept).2
      · apply of_sublist
        rw [items', items]
        exact List.sublist_cons_self w rest
      · exact of_sublist sub

/-! ### When a step keeps every worker at one request -/

theorem OneRequest.of_sublist {s s' : State} (before : OneRequest s)
    (sub : s'.queue.workers.items.Sublist s.queue.workers.items)
    (same : s'.unanswered = s.unanswered) : OneRequest s' :=
  ⟨fun w => same ▸ before.one w, fun w mem => same ▸ before.listed w (sub.subset mem)⟩

/-- Reading a message of a worker lists the worker and answers its request, if the
message is a reply; a control message answers nothing. -/
theorem OneRequest.hear {clock : Nat → Nat} {s s' : State} {worker : Frame} {msg : Msg}
    {net : Net Chan Msg} (before : OneRequest s)
    (received : Net.recv (.toQueue worker) s.net = some (msg, net))
    (items : s'.queue.workers.items =
      s.queue.workers.items.eraseP (·.idString = zframeStrdup worker) ++
        [sWorkerNew (clock s.queue.tick) worker])
    (unanswered : s'.unanswered =
      (if isControl (worker :: msg) then s.unanswered else s.unanswered.erase worker)) :
    OneRequest s' ↔ NoCrossing s (.queue (.backend worker)) := by
  -- Only the sender is new in the list, and only its own requests can be answered here.
  have mem_items : ∀ w ∈ s'.queue.workers.items,
      w ∈ s.queue.workers.items ∨ w.identity = worker := by
    intro w mem
    rw [items] at mem
    rcases List.mem_append.mp mem with mem | mem
    · exact .inl (List.mem_of_mem_eraseP mem)
    · exact .inr (List.mem_singleton.mp mem ▸ rfl)
  have listed : sWorkerNew (clock s.queue.tick) worker ∈ s'.queue.workers.items := by
    rw [items]
    exact List.mem_append_right _ List.mem_cons_self
  by_cases control : isControl (worker :: msg) = true
  · rw [if_pos control] at unanswered
    constructor
    · intro after msg' net' received' _
      exact unanswered ▸ after.listed _ listed
    · intro noCrossing
      have idle := noCrossing msg net received control
      refine ⟨fun w => unanswered ▸ before.one w, fun w mem => ?_⟩
      rw [unanswered]
      rcases mem_items w mem with old | rfl
      · exact before.listed w old
      · exact idle
  · rw [if_neg control] at unanswered
    have allowed : NoCrossing s (.queue (.backend worker)) := by
      intro msg' net' received' control'
      obtain ⟨rfl, rfl⟩ : msg = msg' ∧ net = net' := by simpa [received] using received'
      exact absurd control' control
    apply iff_of_true _ allowed
    constructor
    · intro w
      rw [unanswered]
      exact (List.erase_sublist.count_le w).trans (before.one w)
    · intro w mem
      rw [unanswered]
      rcases mem_items w mem with old | rfl
      · exact fun held => before.listed w old (List.mem_of_mem_erase held)
      · apply List.count_eq_zero.mp
        rw [List.count_erase_self]
        exact Nat.sub_eq_zero_of_le (before.one w.identity)

/-- The head of the list had no unanswered request, and it is in the list only once. -/
theorem OneRequest.dispatch {s s' : State} {w : Worker} {rest : List Worker}
    (distinct : Distinct s) (before : OneRequest s) (items : s.queue.workers.items = w :: rest)
    (items' : s'.queue.workers.items = rest)
    (unanswered : s'.unanswered = w.identity :: s.unanswered) : OneRequest s' := by
  have head : w.identity ∉ s.unanswered := before.listed w (items ▸ List.mem_cons_self)
  constructor
  · intro v
    rw [unanswered, List.count_cons]
    by_cases same : v = w.identity
    · rw [same, List.count_eq_zero.mpr head]
      simp
    · have : (w.identity == v) = false := by simpa using fun eq => same (Eq.symm eq)
      simpa [this] using before.one v
  · intro v mem
    have mem : v ∈ rest := items' ▸ mem
    have old : v ∈ s.queue.workers.items := items ▸ List.mem_cons_of_mem w mem
    have other : v.identity ≠ w.identity := by
      intro eq
      have string : v.idString = w.idString := by
        rw [distinct.own v old, distinct.own w (items ▸ List.mem_cons_self), eq]
      have once := distinct.once
      rw [items, List.map_cons, List.nodup_cons] at once
      exact once.1 (List.mem_map.mpr ⟨v, mem, string⟩)
    rw [unanswered, List.mem_cons, not_or]
    exact ⟨other, before.listed v old⟩

/-- One step keeps every worker at one request exactly when it does not read a
control message from a worker with an unanswered request. -/
theorem OneRequest.step {clock : Nat → Nat} {s s' : State} {l : Label} (distinct : Distinct s)
    (before : OneRequest s) (taken : (pirate clock).step s l = some s') :
    OneRequest s' ↔ NoCrossing s l := by
  cases l with
  | worker identity step =>
      obtain ⟨queue, same⟩ := workerStep_queue taken
      apply iff_of_true _ trivial
      exact before.of_sublist (by rw [queue]) same
  | queue step =>
      rcases queueStep_cases taken with ⟨worker, msg, net, rfl, received, items, unanswered, _⟩ |
        ⟨client, body, w, rest, rfl, items, items', unanswered, _⟩ | ⟨notBackend, sub, same, _⟩
      · exact before.hear received items unanswered
      · exact iff_of_true (before.dispatch distinct items items' unanswered) trivial
      · apply iff_of_true (before.of_sublist sub same)
        cases step with
        | backend worker => exact absurd rfl (notBackend worker)
        | _ => trivial

theorem oneRequest_start {clock : Nat → Nat} :
    Distinct (pirate clock).start ∧ OneRequest (pirate clock).start :=
  ⟨⟨by simp [pirate, Queue.start, ZList.new], by simp [pirate, Queue.start, ZList.new]⟩,
    ⟨by simp [pirate], by simp [pirate]⟩⟩

/-- **At most one request per worker.** In every run of one queue and any number
of workers, every worker has at most one unanswered request and no listed worker
has any, in every state, exactly when the queue never reads a READY or HEARTBEAT
from a worker whose request is still unanswered. -/
theorem one_request_iff (clock : Nat → Nat) {past : List (State × Label)} {s : State}
    (run : Run (pirate clock) past s) : Always OneRequest past s ↔ EachStep NoCrossing past := by
  apply run.exact Distinct OneRequest NoCrossing oneRequest_start
  intro s l s' distinct before taken
  exact ⟨before.step distinct taken, fun _ => distinct.step taken⟩

/-- A run in which one worker is listed and given a request. -/
theorem one_request_iff_dispatched :
    ∃ past s, Run (pirate fun _ => 0) past s ∧ s.unanswered = [[0x41]] ∧
      (Always OneRequest past s ↔ EachStep NoCrossing past) := by
  have ran : (((pirate fun _ => 0).exec (pirate fun _ => 0).start
      [.worker [0x41] (.start 0), .queue (.poll true false), .queue (.backend [0x41]),
        .queue .noFrontend, .queue .heartbeat, .queue .purge, .queue (.poll false true),
        .queue .noBackend, .queue (.frontend [0x43] [[], [0x44]])]).map State.unanswered) =
      some [[0x41]] := by decide
  obtain ⟨s, done, seen⟩ := Option.map_eq_some_iff.mp ran
  obtain ⟨past, run⟩ := Reachable.start.exec done
  exact ⟨past, s, run, seen, one_request_iff _ run⟩

/-! ### A heartbeat that crosses a request -/

/-- A worker announces itself; a request goes out to it; its heartbeat, sent before
it has polled the request, is read before the reply; a second request follows. -/
def heartbeatCrossesRequest (worker client : Frame) (body : Msg) : List Label :=
  [.worker worker (.start 0),
    .queue (.poll true false), .queue (.backend worker), .queue .noFrontend,
    .queue .heartbeat, .queue .purge,
    .queue (.poll false true), .queue .noBackend, .queue (.frontend client body),
    .worker worker (.timeout 0), .worker worker (.beat 1001 1001),
    .queue .heartbeat, .queue .purge,
    .queue (.poll true false), .queue (.backend worker), .queue .noFrontend,
    .queue .heartbeat, .queue .purge,
    .queue (.poll false true), .queue .noBackend, .queue (.frontend client body)]

/-- After that run the worker has both requests in front of it and answered
neither. -/
theorem heartbeat_crosses_request :
    ∃ s, Reachable (pirate fun _ => 0) s ∧
      s.net.on (.toWorker [0x41]) = [[[0x43], [], [0x44]], [[0x43], [], [0x44]]] ∧
      s.unanswered.count [0x41] = 2 ∧ ¬ OneRequest s := by
  have ran : (((pirate fun _ => 0).exec (pirate fun _ => 0).start
      (heartbeatCrossesRequest [0x41] [0x43] [[], [0x44]])).map
        fun s => (s.net.on (.toWorker [0x41]), s.unanswered)) =
      some ([[[0x43], [], [0x44]], [[0x43], [], [0x44]]], [[0x41], [0x41]]) := by decide
  obtain ⟨s, done, seen⟩ := Option.map_eq_some_iff.mp ran
  simp only [Prod.mk.injEq] at seen
  refine ⟨s, Reachable.start.exec done, seen.1, ?_, fun oneRequest => ?_⟩
  · rw [seen.2]
    rfl
  · have := oneRequest.one [0x41]
    rw [seen.2] at this
    exact absurd this (by decide)

end ZmqPractices.Pirate
