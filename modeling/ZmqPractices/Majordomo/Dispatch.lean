import ZmqPractices.Majordomo.Consistent

/-!
Dispatching is first in, first out, loses nothing and stops only where it must.

`sServiceDispatch_spec` computes `s_service_dispatch` on a broker whose lists fit
together: the purge, then one request for each waiting worker the purge left.
`Consistent.handled` and `Consistent.client` say that every message keeps the lists
together, so this is what happens in every reachable state (`dispatch_spec`).
-/

namespace ZmqPractices.Majordomo

open Czmq Lib

section

variable {h : Helpers} {clock : Nat → Nat} {rm : List Addr → Addr → List Addr} {b b' : Broker}
  {name : Frame}

/-! ### One dispatch -/

theorem service_queueRequest {s : Service} (found : b.service name = some s) (msg : Option Msg) :
    (queueRequest b name msg).service name =
      some { s with requests := s.requests ++ msg.toList } := by
  cases msg with
  | none => simpa [queueRequest] using found
  | some msg => exact service_setService_self found fun _ => rfl

theorem Clean.queueRequest (clean : Clean rm b) (name : Frame) (msg : Option Msg) :
    Clean rm (queueRequest b name msg) := by
  cases msg with
  | none => exact clean
  | some msg =>
      have queues : (Majordomo.queueRequest b name (some msg)).queues = b.queues :=
        queues_setService_same (fun _ => rfl) fun _ => rfl
      exact ⟨clean.broker, queues ▸ clean.queues⟩

/-- A purge leaves each service with its requests. -/
theorem Dropped.service {gone : List Addr} (dropped : Dropped gone b b') {s : Service}
    (found : b.service name = some s) :
    ∃ left, b'.service name = some left ∧ left.requests = s.requests ∧
      left.waiting = s.waiting.filter (· ∉ gone) := by
  obtain ⟨workerNum, services⟩ := dropped.services
  refine ⟨{ s with waiting := s.waiting.filter (· ∉ gone), workerNum := workerNum s }, ?_, rfl, rfl⟩
  have mapped : Table.find Service.name name (b.services.map fun s =>
      { s with waiting := s.waiting.filter (· ∉ gone), workerNum := workerNum s }) =
      (b.service name).map fun s =>
        { s with waiting := s.waiting.filter (· ∉ gone), workerNum := workerNum s } :=
    Table.find_map fun _ => rfl
  rw [Broker.service, services, mapped, found, Option.map_some]

theorem map_fst_zip_append_drop {α β : Type*} (xs : List α) (ys : List β) :
    (xs.zip ys).map Prod.fst ++ xs.drop ys.length = xs := by
  induction xs generalizing ys with
  | nil => simp
  | cons x xs ih => cases ys <;> simp [ih]

theorem map_snd_zip_append_drop {α β : Type*} (xs : List α) (ys : List β) :
    (xs.zip ys).map Prod.snd ++ ys.drop xs.length = ys := by
  induction xs generalizing ys with
  | nil => simp
  | cons x xs ih => cases ys <;> simp [ih]

/-- What one call of `s_service_dispatch` does: it queues the request and purges
(`purged`); it then sends each worker that still waits at the service one of the
requests, in the order of both lists (`sent`). -/
structure Dispatch (h : Helpers) (clock : Nat → Nat) (b : Broker) (service : Service)
    (msg : Option Msg) (purged b' : Broker) (sent : List (Addr × Msg)) : Prop where
  ok : sServiceDispatch h clock b service.name msg = .ok (b', sent)
  purge : sBrokerPurge h clock (queueRequest b service.name msg) = .ok purged
  consistent : Consistent b'
  dropped : ∃ gone, Dropped gone (queueRequest b service.name msg) purged
  alive : ∀ a ∈ purged.waiting.head?,
    ∃ w, purged.deref a = some w ∧ clock (purged.tick - 1) < w.expiry
  sent_eq : ∃ left, purged.service service.name = some left ∧
    left.requests = service.requests ++ msg.toList ∧ sent = left.waiting.zip left.requests ∧
    b'.services = (purged.setService service.name ({ · with
      waiting := left.waiting.drop left.requests.length
      requests := left.requests.drop left.waiting.length })).services
  workers : b'.workers = purged.workers
  allocated : b'.allocated = b.allocated
  tick : b.tick ≤ b'.tick ∧ b'.tick = purged.tick
  sublist : b'.waiting.Sublist purged.waiting
  perm : purged.waiting.Perm (sent.map Prod.fst ++ b'.waiting)

/-- A dispatch for a service of a broker whose lists fit together does not fail. -/
theorem sServiceDispatch_spec (helpers : h.Queues rm) (clock : Nat → Nat)
    (consistent : Consistent b) (clean : Clean rm b) {service : Service}
    (mem : service ∈ b.services) (msg : Option Msg) :
    ∃ purged b' sent, Dispatch h clock b service msg purged b' sent := by
  have queued := consistent.queueRequest service.name msg
  obtain ⟨purged, gone, purge, dropped, later, alive⟩ :=
    sBrokerPurge_spec helpers clock queued (clean.queueRequest service.name msg)
  obtain ⟨left, found, requests, waiting⟩ :=
    dropped.service (service_queueRequest (consistent.service_of_mem mem) msg)
  obtain ⟨b', ok, consistent', services, workers, allocated, tick, sub, perm⟩ :=
    dispatchLoop_spec (queued.dropped dropped) found (Nat.lt_succ_self _)
  have sent : (left.waiting.zip left.requests).map Prod.fst =
      left.waiting.take left.requests.length := by
    apply (List.append_left_inj (left.waiting.drop left.requests.length)).mp
    rw [map_fst_zip_append_drop, List.take_append_drop]
  have start : (queueRequest b service.name msg).allocated = b.allocated ∧
      (queueRequest b service.name msg).tick = b.tick := by
    cases msg <;> exact ⟨rfl, rfl⟩
  refine ⟨purged, b', left.waiting.zip left.requests, ?_, purge, consistent', ⟨gone, dropped⟩,
    alive, ⟨left, found, requests, rfl, services⟩, workers, ?_, ⟨?_, tick⟩, sub, ?_⟩
  · simp only [sServiceDispatch, purge]
    change dispatchLoop _ (((purged.service service.name).elim 0 _) + 1) purged = _
    rw [found]
    exact ok
  · rw [allocated, dropped.allocated, start.1]
  · rw [tick, ← start.2]
    exact later
  · rw [sent]
    exact perm

/-- A dispatch leaves the requests of the other services alone. -/
theorem Dispatch.others {service other : Service} {msg : Option Msg} {purged : Broker}
    {sent : List (Addr × Msg)} (dispatch : Dispatch h clock b service msg purged b' sent)
    (found : b.service other.name = some other) (different : other.name ≠ service.name) :
    ∃ other' ∈ b'.services, other'.name = other.name ∧ other'.requests = other.requests := by
  have queued : (queueRequest b service.name msg).service other.name = some other := by
    cases msg with
    | none => exact found
    | some msg =>
        rw [← found]
        exact service_setService_ne different fun _ => rfl
  obtain ⟨gone, dropped⟩ := dispatch.dropped
  obtain ⟨other', kept, requests, -⟩ := dropped.service queued
  obtain ⟨left, -, -, -, services⟩ := dispatch.sent_eq
  have last : b'.service other.name = some other' := by
    rw [Broker.service, services, ← kept]
    exact service_setService_ne different fun _ => rfl
  exact ⟨other', Table.mem_of_find last, Table.key_of_find last, requests⟩

/-! ### Every message keeps the lists together -/

theorem Clean.insertWorker (clean : Clean rm b) (identity : Frame) :
    Clean rm (b.insertWorker identity) := ⟨clean.broker, clean.queues⟩

theorem Clean.requireService (clean : Clean rm b) (name : Frame) :
    Clean rm (b.requireService name) := by
  unfold Broker.requireService
  split
  · exact clean
  · refine ⟨clean.broker, fun p mem => ?_⟩
    rw [Broker.queues, List.map_append] at mem
    rcases List.mem_append.mp mem with old | single
    · exact clean.queues p old
    · obtain rfl : p = (name, []) := by simpa using single
      exact clean.broker.sublist (List.nil_sublist _)

/-- The record of a new worker once it is attached. -/
theorem deref_registered (b : Broker) (sender name : Frame) :
    (((b.insertWorker sender).requireService name).attach b.allocated name).deref b.allocated =
      some ⟨b.allocated, zframeStrhex sender, sender, some name, 0⟩ := by
  rw [deref_attach_self, Broker.deref, workers_requireService]
  simp [Broker.insertWorker, Table.find]

/-- A new worker is attached and waits at its service. -/
theorem Consistent.register (helpers : h.Queues rm) (consistent : Consistent b)
    (sender name : Frame)
    (now : Nat) :
    Consistent (h.sWorkerWaiting
      (((b.insertWorker sender).requireService name).attach b.allocated name).read
        b.allocated now) := by
  let required := (b.insertWorker sender).requireService name
  have idle : required.serviceOf b.allocated = none := by
    rw [serviceOf_requireService, consistent.serviceOf_insertWorker, consistent.serviceOf_allocated]
  have attached : Consistent (required.attach b.allocated name) :=
    ((consistent.insertWorker sender).requireService name).attach idle
      (mem_names_requireService _ name)
  have pointed : (required.attach b.allocated name).serviceOf b.allocated = some name := by
    rw [Broker.serviceOf, deref_registered]
    rfl
  exact attached.read.enqueue helpers pointed now

/-- A worker message keeps the lists together. -/
theorem Consistent.handled (helpers : h.Queues rm) {sender command : Frame}
    (consistent : Consistent b) (clean : Clean rm b)
    (handled : Handled h clock b sender command b') : Consistent b' := by
  cases handled with
  | forget w command disconnect =>
      exact consistent.dropped (dropped_delete helpers consistent clean _ _)
  | refuse command disconnect =>
      have inserted := consistent.insertWorker sender
      exact inserted.dropped (dropped_delete helpers inserted (clean.insertWorker sender) _ _)
  | register b₁ name missing attached =>
      subst attached
      exact consistent.register helpers sender name _
  | answer w w' name found pointed service =>
      exact consistent.read.enqueue helpers (serviceOf_eq_some.mpr ⟨w', pointed, service⟩) _
  | refresh w found =>
      exact consistent.frame (fresh_setWorker (fun _ => rfl) consistent.fresh)
        (fun _ => serviceOf_setWorker_same (fun _ => rfl) fun _ => rfl) rfl rfl
  | ignore => exact consistent
  | leave => exact consistent.insertWorker sender

/-- A client message is answered by the broker itself, or dispatched. -/
theorem client_cases (helpers : h.Queues rm) {sender : Frame} {msg : Msg} {out : List Output}
    (consistent : Consistent b) (clean : Clean rm b)
    (ok : sBrokerClientMsg h clock b sender msg = .ok (b', out)) :
    ∃ name, (b' = b.requireService name ∧ out.filterMap Output.worker? = []) ∨
      ∃ service purged sent, service ∈ (b.requireService name).services ∧ ∃ request,
        Dispatch h clock (b.requireService name) service (some request) purged b' sent ∧
        out.filterMap Output.worker? = sent.map Prod.fst := by
  obtain ⟨frame, body, rfl, _, ⟨_, rfl, reply, rfl⟩ | ⟨_, sent, dispatched, rfl⟩⟩ :=
    sBrokerClientMsg_cases ok
  · exact ⟨zframeStrdup frame, .inl ⟨rfl, rfl⟩⟩
  · obtain ⟨service, found⟩ := service_requireService b (zframeStrdup frame)
    have name : service.name = zframeStrdup frame := Table.key_of_find found
    have mem := Table.mem_of_find found
    obtain ⟨purged, b₁, sent', dispatch⟩ := sServiceDispatch_spec helpers clock
      (consistent.requireService _) (clean.requireService _) mem (some (zmsgWrap body sender))
    obtain ⟨rfl, rfl⟩ : b₁ = b' ∧ sent' = sent := by
      simpa [name, dispatched] using dispatch.ok.symm
    refine ⟨zframeStrdup frame, .inr ⟨service, purged, sent', mem, _, dispatch, ?_⟩⟩
    rw [List.filterMap_map]
    exact congrFun (List.filterMap_eq_map (f := Prod.fst)) sent'

theorem Consistent.client (helpers : h.Queues rm) {sender : Frame} {msg : Msg} {out : List Output}
    (consistent : Consistent b) (clean : Clean rm b)
    (ok : sBrokerClientMsg h clock b sender msg = .ok (b', out)) : Consistent b' := by
  obtain ⟨name, ⟨rfl, _⟩ | ⟨_, _, _, _, _, dispatch, _⟩⟩ := client_cases helpers consistent clean ok
  · exact consistent.requireService name
  · exact dispatch.consistent

theorem consistent_start : Consistent sBrokerNew where
  fresh _ mem := by cases mem
  names := List.nodup_nil
  attached _ mem := by cases mem
  known _ _ pointed := by cases pointed
  agree := .refl _

end

/-- Where `s_worker_delete` leaves no occurrence of a worker behind, every list is clean. -/
theorem clean_removeAll (b : Broker) : Clean Helpers.removeAll b :=
  ⟨removesAll_removeAll _, fun _ _ => removesAll_removeAll _⟩

theorem consistent_of_reachable {h : Helpers} (helpers : h.Queues Helpers.removeAll)
    {clock : Nat → Nat} {s : State} (reach : Reachable (majordomo h clock) s) :
    Consistent s.broker := by
  apply reach.invariant (fun s => Consistent s.broker) consistent_start
  intro s event s' consistent taken
  cases event with
  | worker sender msg =>
      obtain ⟨out, ok, _⟩ := majordomo_step_worker taken
      obtain ⟨command, rest, rfl, handled⟩ := handled_of_sBrokerWorkerMsg helpers.toRegisters ok
      exact consistent.handled helpers (clean_removeAll _) handled
  | client sender msg =>
      obtain ⟨out, ok, _⟩ := majordomo_step_client taken
      exact consistent.client helpers (clean_removeAll _) ok

theorem Consistent.waiting_perm {b : Broker} (consistent : Consistent b) :
    b.waiting.Perm (b.services.flatMap Service.waiting) := by
  have agree := consistent.agree
  rwa [Broker.queues, List.flatMap_map] at agree

/-- **Dispatch.** In every reachable state the broker's waiting list is, as a
multiset, the waiting lists of its services together. There, and right after
`s_service_require`, a dispatch for any service and any optional new request does
not fail, and with `left` the service after the purge and `after` at the end:

* it sends exactly the pairs of the workers left waiting and the queued requests
  followed by the new one, in order;
* the requests sent and the ones still queued are, in order, the ones there were,
  and likewise the workers left waiting by the purge;
* no worker waits or no request is queued afterwards, the requests of the other
  services are as before, and the two levels of waiting lists still agree. -/
theorem dispatch_fifo_lossless_maximal {h : Helpers} (helpers : h.Queues Helpers.removeAll)
    (clock : Nat → Nat) {s : State} (reach : Reachable (majordomo h clock) s) :
    s.broker.waiting.Perm (s.broker.services.flatMap Service.waiting) ∧
      ∀ b, (b = s.broker ∨
          ∃ frame name, sServiceRequire s.broker (some frame) = .ok (b, name)) →
        ∀ service ∈ b.services, ∀ msg : Option Msg,
          ∃ purged left b' sent after,
            sBrokerPurge h clock (queueRequest b service.name msg) = .ok purged ∧
            purged.service service.name = some left ∧
            sServiceDispatch h clock b service.name msg = .ok (b', sent) ∧
            b'.service service.name = some after ∧
            sent = left.waiting.zip (service.requests ++ msg.toList) ∧
            sent.map Prod.snd ++ after.requests = service.requests ++ msg.toList ∧
            sent.map Prod.fst ++ after.waiting = left.waiting ∧
            (after.waiting = [] ∨ after.requests = []) ∧
            (∀ other ∈ b.services, other.name ≠ service.name →
              ∃ other' ∈ b'.services, other'.name = other.name ∧
                other'.requests = other.requests) ∧
            b'.waiting.Perm (b'.services.flatMap Service.waiting) := by
  have reached := consistent_of_reachable helpers reach
  refine ⟨reached.waiting_perm, ?_⟩
  intro b stage service mem msg
  have consistent : Consistent b := by
    rcases stage with rfl | ⟨frame, name, required⟩
    · exact reached
    · obtain ⟨rfl, -⟩ := Prod.mk.inj (Except.ok.inj required)
      exact reached.requireService _
  obtain ⟨purged, b', sent, dispatch⟩ :=
    sServiceDispatch_spec helpers clock consistent (clean_removeAll b) mem msg
  obtain ⟨left, found, requests, rfl, services⟩ := dispatch.sent_eq
  have after : b'.service service.name = some { left with
      waiting := left.waiting.drop left.requests.length
      requests := left.requests.drop left.waiting.length } := by
    rw [Broker.service, services]
    exact service_setService_self found fun _ => rfl
  refine ⟨purged, left, b', _, _, dispatch.purge, found, dispatch.ok, after, ?_, ?_, ?_, ?_, ?_,
    dispatch.consistent.waiting_perm⟩
  · rw [requests]
  · rw [← requests]
    exact map_snd_zip_append_drop _ _
  · exact map_fst_zip_append_drop _ _
  · rcases Nat.le_total left.waiting.length left.requests.length with le | le
    · exact .inl (List.drop_eq_nil_of_le le)
    · exact .inr (List.drop_eq_nil_of_le le)
  · intro other listed different
    exact dispatch.others (consistent.service_of_mem listed) different

/-- Of three workers one has left; a request goes to the one of the others that registered
first. -/
theorem dispatch_after_disconnect :
    ∃ s, Reachable (majordomo (Helpers.plain Helpers.removeAll) id) s ∧
      s.broker.waiting = [1, 2] ∧
      s.broker.waiting.Perm (s.broker.services.flatMap Service.waiting) ∧
      ∃ service ∈ s.broker.services, ∃ b',
        sServiceDispatch (Helpers.plain Helpers.removeAll) id s.broker service.name
          (some [[0x71]]) = .ok (b', [(1, [[0x71]])]) ∧
        b'.waiting.Perm (b'.services.flatMap Service.waiting) := by
  have ran : ((majordomo (Helpers.plain Helpers.removeAll) id).exec
      (majordomo (Helpers.plain Helpers.removeAll) id).start
      [.worker [0x41] [mdpwReady, [0x73]], .worker [0x42] [mdpwReady, [0x73]],
        .worker [0x43] [mdpwReady, [0x73]], .worker [0x41] [mdpwDisconnect]]).map
      (fun s => (s.broker.waiting, (s.broker.service [0x73]).isSome,
        decide ((sServiceDispatch (Helpers.plain Helpers.removeAll) id s.broker [0x73]
          (some [[0x71]])).toOption.map Prod.snd = some [(1, [[0x71]])]))) =
      some ([1, 2], true, true) := by decide
  obtain ⟨s, done, seen⟩ := Option.map_eq_some_iff.mp ran
  simp only [Prod.mk.injEq, decide_eq_true_eq] at seen
  obtain ⟨waiting, known, picked⟩ := seen
  have reach := Reachable.start.exec done
  obtain ⟨service, found⟩ := Option.isSome_iff_exists.mp known
  have name : service.name = [0x73] := Table.key_of_find found
  have mem := Table.mem_of_find found
  obtain ⟨together, dispatches⟩ := dispatch_fifo_lossless_maximal (Helpers.plain_queues _) id reach
  obtain ⟨-, -, b', sent, -, -, -, dispatched, -, -, -, -, -, -, perm⟩ :=
    dispatches s.broker (.inl rfl) service mem (some [[0x71]])
  obtain rfl : sent = [(1, [[0x71]])] := by
    rw [name] at dispatched
    simpa [dispatched, Except.toOption] using picked
  exact ⟨s, reach, waiting, together, service, mem, b', dispatched, perm⟩

end ZmqPractices.Majordomo
