import ZmqPractices.Lib.Fifo
import ZmqPractices.Majordomo.Dispatch

/-!
The requests of a service over whole runs of the broker (`mdbroker.c`).

A client's request is queued for the service it names, and each call of
`s_service_dispatch` sends requests from the front of the queue to workers of that service.
Worker messages move no request. So over a run the workers of a service have been sent, in
order, what clients have asked of it, up to what is still queued.
-/

namespace ZmqPractices.Majordomo

open Czmq Lib

/-! ### Requests -/

/-- The requests that a service has queued; a service that does not exist has none. -/
def Broker.requests (b : Broker) (name : Frame) : List Msg :=
  (b.service name).elim [] Service.requests

/-- What the broker sends for an event. -/
def outputs (h : Helpers) (clock : Nat → Nat) (s : State) : Event → List Output
  | .worker sender msg =>
      match sBrokerWorkerMsg h clock s.broker sender msg with
      | .ok (_, out) => out
      | .error _ => []
  | .client sender msg =>
      match sBrokerClientMsg h clock s.broker sender msg with
      | .ok (_, out) => out
      | .error _ => []

/-- The request for this service that the event brings, with its client's envelope. -/
def asked (name : Frame) : Event → List Msg
  | .client sender (frame :: body) =>
      if ¬ startsWith frame mmi ∧ zframeStrdup frame = name then [zmsgWrap body sender] else []
  | _ => []

/-- The requests that the broker sends to workers of this service. -/
def handed (name : Frame) (b : Broker) (out : List Output) : List Msg :=
  out.filterMap fun output =>
    match output with
    | .request worker msg => if b.serviceOf worker = some name then some msg else none
    | .reply _ => none

/-- Those that it sends for an event. -/
def assigned (h : Helpers) (clock : Nat → Nat) (name : Frame) (s : State) (event : Event) :
    List Msg :=
  handed name s.broker (outputs h clock s event)

section

variable {h : Helpers} {clock : Nat → Nat} {rm : List Addr → Addr → List Addr} {b b' : Broker}
  {name : Frame}

/-! ### What leaves the queues alone -/

/-- An operation that writes to no queue of requests. -/
theorem requests_of_map {f : Service → Service} (services : b'.services = b.services.map f)
    (kept : ∀ s, (f s).name = s.name) (same : ∀ s, (f s).requests = s.requests) :
    b'.requests name = b.requests name := by
  have found : b'.service name = (b.service name).map f := by
    rw [Broker.service, services]
    exact Table.find_map kept
  rw [Broker.requests, Broker.requests, found]
  cases b.service name with
  | none => rfl
  | some s => exact same s

theorem requests_setService {write : Service → Service} (service : Frame)
    (kept : ∀ s, (write s).name = s.name) (same : ∀ s, (write s).requests = s.requests) :
    (b.setService service write).requests name = b.requests name := by
  refine requests_of_map (f := fun s => if s.name = service then write s else s) rfl ?_ ?_
  · intro s
    split
    · exact kept s
    · rfl
  · intro s
    split
    · exact same s
    · rfl

/-- A new service has no requests. -/
@[simp] theorem requests_requireService (service : Frame) :
    (b.requireService service).requests name = b.requests name := by
  unfold Broker.requireService
  split
  · rfl
  · rename_i missing
    have missing := Option.not_isSome_iff_eq_none.mp missing
    have found : Broker.service { b with services := b.services ++ [⟨service, [], [], 0⟩] } name =
        (b.service name).or (if service = name then some ⟨service, [], [], 0⟩ else none) := by
      simp [Broker.service, Table.find, List.find?_append, List.find?_singleton]
    rw [Broker.requests, Broker.requests, found]
    by_cases here : service = name
    · subst here
      rw [missing, if_pos rfl]
      rfl
    · rw [if_neg here, Option.or_none]

theorem requests_deleted (helpers : h.Queues rm) (worker : Addr) (disconnect : Bool) :
    (h.sWorkerDelete b worker disconnect).requests name = b.requests name := by
  obtain ⟨workerNum, services⟩ := helpers.delete_services b worker disconnect
  exact requests_of_map services (fun _ => rfl) fun _ => rfl

theorem requests_waiting (helpers : h.Queues rm) (worker : Addr) (now : Nat) :
    (h.sWorkerWaiting b worker now).requests name = b.requests name := by
  refine requests_of_map (helpers.waiting_services b worker now) ?_ ?_
  · intro s
    split
    · rfl
    · rfl
  · intro s
    split
    · rfl
    · rfl

/-- No worker message moves a request. -/
theorem requests_handled (helpers : h.Queues rm) {sender command : Frame}
    (handled : Handled h clock b sender command b') : b'.requests name = b.requests name := by
  cases handled with
  | forget w command disconnect => exact requests_deleted helpers _ _
  | refuse command disconnect => exact requests_deleted helpers _ _
  | register b₁ service missing attached =>
      rw [requests_waiting helpers, attached]
      have counted : (((b.insertWorker sender).requireService service).attach b.allocated
          service).requests name = ((b.insertWorker sender).requireService service).requests name :=
        requests_setService service (fun _ => rfl) fun _ => rfl
      exact counted.trans (requests_requireService service)
  | answer => exact requests_waiting helpers _ _
  | refresh => rfl
  | ignore => rfl
  | leave => rfl

/-- A worker message is answered to clients only. -/
theorem handed_worker {sender : Frame} {msg : Msg} {out : List Output}
    (ok : sBrokerWorkerMsg h clock b sender msg = .ok (b', out)) (name : Frame) :
    handed name b out = [] := by
  have replies : out = [] ∨ ∃ reply, out = [.reply reply] := by
    simp only [sBrokerWorkerMsg] at ok
    split at ok
    · cases ok
    split at ok
    · -- READY
      split at ok
      · exact .inl (Prod.mk.inj (Except.ok.inj ok)).2.symm
      split at ok
      · exact .inl (Prod.mk.inj (Except.ok.inj ok)).2.symm
      · obtain ⟨_, -, done⟩ := bind_eq_ok.mp ok
        exact .inl (Prod.mk.inj (Except.ok.inj done)).2.symm
    split at ok
    · -- REPLY
      split at ok
      · split at ok
        · cases ok
        · split at ok
          · cases ok
          · cases ok
          · exact .inr ⟨_, (Prod.mk.inj (Except.ok.inj ok)).2.symm⟩
      · exact .inl (Prod.mk.inj (Except.ok.inj ok)).2.symm
    split at ok
    · -- HEARTBEAT
      split at ok
      · exact .inl (Prod.mk.inj (Except.ok.inj ok)).2.symm
      · exact .inl (Prod.mk.inj (Except.ok.inj ok)).2.symm
    split at ok
    · exact .inl (Prod.mk.inj (Except.ok.inj ok)).2.symm
    · exact .inl (Prod.mk.inj (Except.ok.inj ok)).2.symm
  rcases replies with rfl | ⟨reply, rfl⟩
  · rfl
  · rfl

/-! ### What a client's request does -/

/-- What is sent to workers of one service, where all of it is. -/
theorem handed_self {sent : List (Addr × Msg)}
    (attached : ∀ p ∈ sent, b.serviceOf p.1 = some name) :
    handed name b (sent.map fun (worker, msg) => .request worker msg) = sent.map Prod.snd := by
  induction sent with
  | nil => rfl
  | cons p sent ih =>
      have here := attached p List.mem_cons_self
      have rest := ih fun q mem => attached q (List.mem_cons_of_mem _ mem)
      rw [List.map_cons, handed, List.filterMap_cons_some (b := p.2), ← handed, rest,
        List.map_cons]
      exact if_pos here

theorem handed_other {service : Frame} {sent : List (Addr × Msg)}
    (attached : ∀ p ∈ sent, b.serviceOf p.1 = some service) (other : service ≠ name) :
    handed name b (sent.map fun (worker, msg) => .request worker msg) = [] := by
  rw [handed, List.filterMap_eq_nil_iff]
  intro output mem
  obtain ⟨p, listed, rfl⟩ := List.mem_map.mp mem
  exact if_neg fun here => other (Option.some.inj ((attached p listed).symm.trans here))

variable {service : Service} {request : Msg} {purged : Broker} {sent : List (Addr × Msg)}

/-- A dispatch sends to workers that were attached to the service before it. -/
theorem Dispatch.attached (dispatch : Dispatch h clock b service (some request) purged b' sent)
    (consistent : Consistent b) : ∀ p ∈ sent, b.serviceOf p.1 = some service.name := by
  obtain ⟨gone, dropped⟩ := dispatch.dropped
  obtain ⟨left, found, -, rfl, -⟩ := dispatch.sent_eq
  intro p mem
  have queued := consistent.queueRequest service.name (some request)
  have pointed := (queued.dropped dropped).attached _ (mem_queues_of_service found) p.1
    (List.of_mem_zip mem).1
  rw [dropped.serviceOf] at pointed
  split at pointed
  · exact pointed
  · cases pointed

/-- A dispatch queues its request and takes what it sends off the front of the queue. -/
theorem Dispatch.requests_self
    (dispatch : Dispatch h clock b service (some request) purged b' sent) :
    service.requests ++ [request] = sent.map Prod.snd ++ b'.requests service.name := by
  obtain ⟨left, found, requests, rfl, services⟩ := dispatch.sent_eq
  have written : b'.service service.name = some { left with
      waiting := left.waiting.drop left.requests.length
      requests := left.requests.drop left.waiting.length } := by
    rw [Broker.service, services]
    exact service_setService_self found fun _ => rfl
  have after : b'.requests service.name = left.requests.drop left.waiting.length := by
    rw [Broker.requests, written]
    rfl
  rw [after, map_snd_zip_append_drop, requests]
  rfl

theorem Dispatch.requests_other
    (dispatch : Dispatch h clock b service (some request) purged b' sent)
    (other : name ≠ service.name) : b'.requests name = b.requests name := by
  obtain ⟨gone, dropped⟩ := dispatch.dropped
  obtain ⟨workerNum, dropped⟩ := dropped.services
  obtain ⟨left, -, -, -, services⟩ := dispatch.sent_eq
  have sent : b'.requests name = purged.requests name := by
    rw [Broker.requests, Broker.service, services]
    exact congrArg (Option.elim · [] Service.requests) (service_setService_ne other fun _ => rfl)
  have purge : purged.requests name =
      (queueRequest b service.name (some request)).requests name :=
    requests_of_map dropped (fun _ => rfl) fun _ => rfl
  have queued : (queueRequest b service.name (some request)).requests name = b.requests name :=
    congrArg (Option.elim · [] Service.requests) (service_setService_ne other fun _ => rfl)
  exact sent.trans (purge.trans queued)

/-- A client message puts its request at the end of a queue and takes what is sent off the
front. -/
theorem requests_client (helpers : h.Queues rm) {sender : Frame} {msg : Msg} {out : List Output}
    (consistent : Consistent b) (clean : Clean rm b)
    (ok : sBrokerClientMsg h clock b sender msg = .ok (b', out)) :
    b.requests name ++ asked name (.client sender msg) =
      handed name b out ++ b'.requests name := by
  obtain ⟨frame, body, rfl, -, ⟨internal, rfl, reply, rfl⟩ | ⟨external, sent, dispatched, rfl⟩⟩ :=
    sBrokerClientMsg_cases ok
  · have nothing : asked name (.client sender (frame :: body)) = [] :=
      if_neg fun asks => asks.1 internal
    rw [nothing, List.append_nil, requests_requireService]
    rfl
  · obtain ⟨service, found⟩ := service_requireService b (zframeStrdup frame)
    have named : service.name = zframeStrdup frame := Table.key_of_find found
    obtain ⟨purged, b₁, sent', dispatch⟩ := sServiceDispatch_spec helpers clock
      (consistent.requireService _) (clean.requireService _) (Table.mem_of_find found)
      (some (zmsgWrap body sender))
    obtain ⟨rfl, rfl⟩ : b₁ = b' ∧ sent' = sent := by
      simpa [named, dispatched] using dispatch.ok.symm
    have attached : ∀ p ∈ sent', b.serviceOf p.1 = some service.name := by
      intro p mem
      rw [← serviceOf_requireService b (zframeStrdup frame)]
      exact dispatch.attached (consistent.requireService _) p mem
    rw [← requests_requireService (zframeStrdup frame)]
    by_cases here : service.name = name
    · subst here
      have asks : asked service.name (.client sender (frame :: body)) = [zmsgWrap body sender] :=
        if_pos ⟨external, named.symm⟩
      have before : (b.requireService (zframeStrdup frame)).requests service.name =
          service.requests := by
        rw [Broker.requests, named, found]
        rfl
      rw [asks, before, handed_self attached]
      exact dispatch.requests_self
    · have asks : asked name (.client sender (frame :: body)) = [] :=
        if_neg fun asks => here (named.trans asks.2)
      rw [asks, List.append_nil, handed_other attached here, List.nil_append]
      exact (dispatch.requests_other (Ne.symm here)).symm

end

/-! ### Runs -/

section

variable {h : Helpers} {clock : Nat → Nat}

/-- What one message does to the queue of a service. -/
theorem requests_step (helpers : h.Queues Helpers.removeAll) {s s' : State} {event : Event}
    (name : Frame) (consistent : Consistent s.broker)
    (taken : (majordomo h clock).step s event = some s') :
    Consistent s'.broker ∧ s.broker.requests name ++ asked name event =
      assigned h clock name s event ++ s'.broker.requests name := by
  have clean := clean_removeAll s.broker
  cases event with
  | worker sender msg =>
      obtain ⟨out, ok, -⟩ := majordomo_step_worker taken
      obtain ⟨command, rest, rfl, handled⟩ := handled_of_sBrokerWorkerMsg helpers.toRegisters ok
      refine ⟨consistent.handled helpers clean handled, ?_⟩
      have nothing : assigned h clock name s (.worker sender (command :: rest)) = [] := by
        simp only [assigned, outputs, ok]
        exact handed_worker ok name
      rw [nothing, List.nil_append, requests_handled helpers handled]
      exact List.append_nil _
  | client sender msg =>
      obtain ⟨out, ok, -⟩ := majordomo_step_client taken
      refine ⟨consistent.client helpers clean ok, ?_⟩
      have sent : assigned h clock name s (.client sender msg) = handed name s.broker out := by
        simp only [assigned, outputs, ok]
      rw [sent]
      exact requests_client helpers consistent clean ok

/-- **Requests are handed out in order.** In every run of the broker, for every service: the
requests that its workers have been sent, followed by those that are still queued for it, are
the requests that clients have made of it, in the order they came in. -/
theorem requests_in_order (helpers : h.Queues Helpers.removeAll) (clock : Nat → Nat)
    {past : List (State × Event)} {s : State} (run : Run (majordomo h clock) past s)
    (name : Frame) :
    collected (fun _ event => asked name event) past =
      collected (assigned h clock name) past ++ s.broker.requests name :=
  (run.fifo (fun s => Consistent s.broker) (fun s => s.broker.requests name)
    (fun _ event => asked name event) (assigned h clock name) ⟨consistent_start, rfl⟩
    fun _ _ _ consistent taken => requests_step helpers name consistent taken).2

end

/-- Two clients ask for a service, the first before it has a worker: the worker is sent the
first request, and the second is queued. -/
theorem requests_in_order_two :
    let broker := majordomo (Helpers.plain Helpers.removeAll) id
    ∃ past s, Run broker past s ∧ s.broker.requests [0x73] = [[[0x44], [], [0x79]]] ∧
      collected (fun _ event => asked [0x73] event) past =
        collected (assigned (Helpers.plain Helpers.removeAll) id [0x73]) past ++
          s.broker.requests [0x73] := by
  intro broker
  have ran : (broker.record [] broker.start
      [.client [0x43] [[0x73], [0x78]], .worker [0x41] [mdpwReady, [0x73]],
        .client [0x44] [[0x73], [0x79]]]).map (fun r => r.2.broker.requests [0x73]) =
      some [[[0x44], [], [0x79]]] := by decide
  obtain ⟨⟨past, s⟩, done, queued⟩ := Option.map_eq_some_iff.mp ran
  have run := Run.record .start done
  exact ⟨past, s, run, queued, requests_in_order (Helpers.plain_queues _) id run [0x73]⟩

end ZmqPractices.Majordomo
