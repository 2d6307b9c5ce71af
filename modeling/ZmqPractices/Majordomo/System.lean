import ZmqPractices.Majordomo.Broker

/-!
The broker as a system of messages, and what is assumed of the functions on
workers that the sources leave undefined.

`Registers` is what they do to the table of workers; `Queues rm` adds what they do
to the two levels of waiting lists, where `rm` is how `s_worker_delete` removes a
worker from a list. What happens to `worker_num` and what is sent is left open.

`Handled` lists what one worker message can do. The results about runs are proved
by its cases.
-/

namespace ZmqPractices.Majordomo

open Czmq Lib

namespace Helpers

/-- `s_worker_require` looks the identity up and otherwise inserts a zeroed
`worker_t`; `s_worker_delete` removes the worker from the table, which frees it;
`s_worker_waiting` sets its expiry. -/
structure Registers (h : Helpers) : Prop where
  require_known {b : Broker} {identity : Frame} {w : Worker} :
    b.lookup (zframeStrhex identity) = some w → h.sWorkerRequire b identity = (b, w.addr)
  require_new {b : Broker} {identity : Frame} :
    b.lookup (zframeStrhex identity) = none →
      h.sWorkerRequire b identity = (b.insertWorker identity, b.allocated)
  delete_workers (b : Broker) (worker : Addr) (disconnect : Bool) :
    (h.sWorkerDelete b worker disconnect).workers = b.workers.filter (·.addr ≠ worker)
  waiting_workers (b : Broker) (worker : Addr) (now : Nat) :
    (h.sWorkerWaiting b worker now).workers =
      (b.setWorker worker ({ · with expiry := now + heartbeatExpiry })).workers

/-- `s_worker_delete` takes the worker out of the broker's and its service's
waiting lists by `rm`; `s_worker_waiting` appends it to both. -/
structure Queues (h : Helpers) (rm : List Addr → Addr → List Addr) : Prop extends
    Registers h where
  delete_waiting (b : Broker) (worker : Addr) (disconnect : Bool) :
    (h.sWorkerDelete b worker disconnect).waiting = rm b.waiting worker
  delete_services (b : Broker) (worker : Addr) (disconnect : Bool) :
    ∃ workerNum : Service → Nat, (h.sWorkerDelete b worker disconnect).services =
      b.services.map fun s =>
        { s with
          waiting :=
            if b.serviceOf worker = some s.name then rm s.waiting worker
            else s.waiting
          workerNum := workerNum s }
  delete_allocated (b : Broker) (worker : Addr) (disconnect : Bool) :
    (h.sWorkerDelete b worker disconnect).allocated = b.allocated
  delete_tick (b : Broker) (worker : Addr) (disconnect : Bool) :
    (h.sWorkerDelete b worker disconnect).tick = b.tick
  waiting_waiting (b : Broker) (worker : Addr) (now : Nat) :
    (h.sWorkerWaiting b worker now).waiting = b.waiting ++ [worker]
  waiting_services (b : Broker) (worker : Addr) (now : Nat) :
    (h.sWorkerWaiting b worker now).services =
      b.services.map fun s =>
        if b.serviceOf worker = some s.name then
          { s with waiting := s.waiting ++ [worker] }
        else s
  waiting_allocated (b : Broker) (worker : Addr) (now : Nat) :
    (h.sWorkerWaiting b worker now).allocated = b.allocated
  waiting_tick (b : Broker) (worker : Addr) (now : Nat) :
    (h.sWorkerWaiting b worker now).tick = b.tick

/-- Remove a worker from a list altogether. -/
def removeAll (waiting : List Addr) (worker : Addr) : List Addr :=
  waiting.filter (· ≠ worker)

/-- The plain functions that do what is assumed and nothing else. -/
def plain (rm : List Addr → Addr → List Addr) : Helpers where
  sWorkerRequire b identity :=
    match b.lookup (zframeStrhex identity) with
    | some w => (b, w.addr)
    | none => (b.insertWorker identity, b.allocated)
  sWorkerDelete b worker _ :=
    { b with
      workers := b.workers.filter (·.addr ≠ worker)
      waiting := rm b.waiting worker
      services := b.services.map fun s =>
        { s with
          waiting :=
            if b.serviceOf worker = some s.name then rm s.waiting worker
            else s.waiting } }
  sWorkerWaiting b worker now :=
    { b.setWorker worker ({ · with expiry := now + heartbeatExpiry }) with
      waiting := b.waiting ++ [worker]
      services := b.services.map fun s =>
        if b.serviceOf worker = some s.name then
          { s with waiting := s.waiting ++ [worker] }
        else s }

theorem plain_queues (rm : List Addr → Addr → List Addr) : (plain rm).Queues rm where
  require_known found := by simp only [plain, found]
  require_new missing := by simp only [plain, missing]
  delete_workers _ _ _ := rfl
  waiting_workers _ _ _ := rfl
  delete_waiting _ _ _ := rfl
  delete_services _ _ _ := ⟨Service.workerNum, rfl⟩
  delete_allocated _ _ _ := rfl
  delete_tick _ _ _ := rfl
  waiting_waiting _ _ _ := rfl
  waiting_services _ _ _ := rfl
  waiting_allocated _ _ _ := rfl
  waiting_tick _ _ _ := rfl

end Helpers

/-! ### The system -/

/-- What the broker receives, from a worker or from a client. -/
inductive Event where
  | worker (sender : Frame) (msg : Msg)
  | client (sender : Frame) (msg : Msg)
deriving DecidableEq, Repr

/-- The broker, and the workers that have been sent a request they have not
answered, one entry per request. No function of the broker reads the second. -/
structure State where
  broker : Broker
  outstanding : List Addr
deriving DecidableEq, Repr

/-- The worker whose request this message answers: a REPLY from a registered sender. -/
def answered (b : Broker) (sender : Frame) (msg : Msg) : Option Addr :=
  if msg.head? = some mdpwReply then (b.lookup (zframeStrhex sender)).map Worker.addr else none

/-- The worker a request is sent to. -/
def Output.worker? : Output → Option Addr
  | .request worker _ => some worker
  | .reply _ => none

def handle (h : Helpers) (clock : Nat → Nat) (s : State) : Event → Except Fault State
  | .worker sender msg => do
      let (b, _) ← sBrokerWorkerMsg h clock s.broker sender msg
      let outstanding := (answered s.broker sender msg).elim s.outstanding s.outstanding.erase
      return ⟨b, outstanding⟩
  | .client sender msg => do
      let (b, out) ← sBrokerClientMsg h clock s.broker sender msg
      return ⟨b, out.filterMap Output.worker? ++ s.outstanding⟩

/-- The broker as a system; a message on which the code fails ends the run. -/
def majordomo (h : Helpers) (clock : Nat → Nat) : System State Event where
  start := ⟨sBrokerNew, []⟩
  step s event :=
    match handle h clock s event with
    | .ok s' => some s'
    | .error _ => none

theorem bind_eq_ok {ε α β : Type} {x : Except ε α} {f : α → Except ε β} {r : β} :
    x >>= f = .ok r ↔ ∃ a, x = .ok a ∧ f a = .ok r := by
  cases x with
  | error e =>
      constructor
      · intro failed
        cases failed
      · rintro ⟨_, failed, _⟩
        cases failed
  | ok a => exact ⟨fun ok => ⟨a, rfl, ok⟩, fun ⟨_, same, ok⟩ => Except.ok.inj same ▸ ok⟩

theorem majordomo_step {h : Helpers} {clock : Nat → Nat} {s s' : State} {event : Event}
    (taken : (majordomo h clock).step s event = some s') : handle h clock s event = .ok s' := by
  simp only [majordomo] at taken
  split at taken
  · rename_i ok
    exact ok.trans (congrArg _ (Option.some.inj taken))
  · cases taken

/-- A step on a worker message is the message handled without failure. -/
theorem majordomo_step_worker {h : Helpers} {clock : Nat → Nat} {s s' : State} {sender : Frame}
    {msg : Msg} (taken : (majordomo h clock).step s (.worker sender msg) = some s') :
    ∃ out, sBrokerWorkerMsg h clock s.broker sender msg = .ok (s'.broker, out) ∧
      s'.outstanding =
        (answered s.broker sender msg).elim s.outstanding s.outstanding.erase := by
  obtain ⟨result, ok, done⟩ := bind_eq_ok.mp (majordomo_step taken)
  obtain rfl := Except.ok.inj done
  exact ⟨result.2, ok, rfl⟩

/-- A step on a client message is the message handled without failure; the
requests it sends are outstanding from then on. -/
theorem majordomo_step_client {h : Helpers} {clock : Nat → Nat} {s s' : State} {sender : Frame}
    {msg : Msg} (taken : (majordomo h clock).step s (.client sender msg) = some s') :
    ∃ out, sBrokerClientMsg h clock s.broker sender msg = .ok (s'.broker, out) ∧
      s'.outstanding = out.filterMap Output.worker? ++ s.outstanding := by
  obtain ⟨result, ok, done⟩ := bind_eq_ok.mp (majordomo_step taken)
  obtain rfl := Except.ok.inj done
  exact ⟨result.2, ok, rfl⟩

/-! ### What one worker message can do -/

/-- The commands a worker can send. -/
def workerCommands : List Frame := [mdpwReady, mdpwReply, mdpwHeartbeat, mdpwDisconnect]

/-- The new service pointer and count of a worker that registers. -/
def Broker.attach (b : Broker) (worker : Addr) (name : Frame) : Broker :=
  (b.setWorker worker ({ · with service := some name })).setService name
    fun s => { s with workerNum := s.workerNum + 1 }

/-- The effects of a worker message by its command and whether its sender is
registered. -/
inductive Handled (h : Helpers) (clock : Nat → Nat) (b : Broker) (sender : Frame) :
    Frame → Broker → Prop where
  /-- READY or DISCONNECT from a registered worker. -/
  | forget (w : Worker) (command : Frame) (disconnect : Bool)
      (found : b.lookup (zframeStrhex sender) = some w)
      (which : command = mdpwReady ∨ command = mdpwDisconnect) :
      Handled h clock b sender command (h.sWorkerDelete b w.addr disconnect)
  /-- Anything but an acceptable READY from a sender that is not registered. -/
  | refuse (command : Frame) (disconnect : Bool)
      (missing : b.lookup (zframeStrhex sender) = none) (known : command ∈ workerCommands) :
      Handled h clock b sender command
        (h.sWorkerDelete (b.insertWorker sender) b.allocated disconnect)
  /-- READY from a sender that is not registered. -/
  | register (b' : Broker) (name : Frame)
      (missing : b.lookup (zframeStrhex sender) = none)
      (attached : b' = ((b.insertWorker sender).requireService name).attach b.allocated name) :
      Handled h clock b sender mdpwReady (h.sWorkerWaiting b'.read b.allocated (clock b'.tick))
  /-- REPLY from a registered worker. -/
  | answer (w w' : Worker) (name : Frame) (found : b.lookup (zframeStrhex sender) = some w)
      (pointed : b.deref w.addr = some w') (service : w'.service = some name) :
      Handled h clock b sender mdpwReply (h.sWorkerWaiting b.read w.addr (clock b.tick))
  /-- HEARTBEAT from a registered worker. -/
  | refresh (w : Worker) (found : b.lookup (zframeStrhex sender) = some w) :
      Handled h clock b sender mdpwHeartbeat
        (b.read.setWorker w.addr ({ · with expiry := clock b.tick + heartbeatExpiry }))
  /-- Any other command from a registered worker. -/
  | ignore (w : Worker) (command : Frame) (found : b.lookup (zframeStrhex sender) = some w)
      (unknown : command ∉ workerCommands) : Handled h clock b sender command b
  /-- Any other command from a sender that is not registered. -/
  | leave (command : Frame) (missing : b.lookup (zframeStrhex sender) = none)
      (unknown : command ∉ workerCommands) :
      Handled h clock b sender command (b.insertWorker sender)

@[simp] theorem workers_requireService (b : Broker) (name : Frame) :
    (b.requireService name).workers = b.workers := by
  unfold Broker.requireService
  split <;> rfl

theorem requireService_same (b : Broker) (name : Frame) :
    (b.requireService name).waiting = b.waiting ∧ (b.requireService name).tick = b.tick ∧
      (b.requireService name).allocated = b.allocated := by
  unfold Broker.requireService
  split <;> exact ⟨rfl, rfl, rfl⟩

section

variable {h : Helpers} {clock : Nat → Nat} {b b' : Broker} {sender command : Frame} {rest : Msg}
  {out : List Output}

/-- The broker after a READY that attaches a new worker to a service. -/
def registered (h : Helpers) (clock : Nat → Nat) (b : Broker) (sender name : Frame) : Broker :=
  let b' := ((b.insertWorker sender).requireService name).attach b.allocated name
  h.sWorkerWaiting b'.read b.allocated (clock b'.tick)

/-- A first READY is refused for the identity of its sender; otherwise its service frame
names the service. -/
theorem ready_cases (registers : h.Registers) (missing : b.lookup (zframeStrhex sender) = none)
    (ok : sBrokerWorkerMsg h clock b sender (mdpwReady :: rest) = .ok (b', out)) :
    (startsWith sender mmi = true ∧
      b' = h.sWorkerDelete (b.insertWorker sender) b.allocated true) ∨
    (startsWith sender mmi = false ∧ ∃ frame, rest.head? = some frame ∧
      b' = registered h clock b sender (zframeStrdup frame)) := by
  simp only [sBrokerWorkerMsg, zmsgPop_cons, missing, registers.require_new missing,
    Option.isSome_none, Bool.false_eq_true, if_false] at ok
  rw [if_pos (zframeStreq_iff.mpr rfl)] at ok
  split at ok
  · rename_i reserved
    exact .inl ⟨reserved, (Prod.mk.inj (Except.ok.inj ok)).1.symm⟩
  · rename_i other
    cases rest with
    | nil => cases ok
    | cons frame rest =>
        exact .inr ⟨Bool.eq_false_iff.mpr other, frame, rfl,
          (Prod.mk.inj (Except.ok.inj ok)).1.symm⟩

/-- A message of a registered worker. -/
theorem handled_found (registers : h.Registers) {w : Worker}
    (found : b.lookup (zframeStrhex sender) = some w)
    (ok : sBrokerWorkerMsg h clock b sender (command :: rest) = .ok (b', out)) :
    Handled h clock b sender command b' := by
  simp only [sBrokerWorkerMsg, zmsgPop_cons, zframeStreq_iff, found,
    registers.require_known found, Option.isSome_some, if_true] at ok
  split at ok
  · rename_i ready
    obtain rfl := (Prod.mk.inj (Except.ok.inj ok)).1
    exact .forget w command true found (.inl ready)
  split at ok
  · rename_i reply
    split at ok
    · cases ok
    rename_i w' pointed
    split at ok
    · cases ok
    · cases ok
    rename_i name client service _
    obtain rfl := (Prod.mk.inj (Except.ok.inj ok)).1
    exact reply ▸ .answer w w' name found pointed service
  split at ok
  · rename_i heartbeat
    obtain rfl := (Prod.mk.inj (Except.ok.inj ok)).1
    exact heartbeat ▸ .refresh w found
  split at ok
  · rename_i disconnect
    obtain rfl := (Prod.mk.inj (Except.ok.inj ok)).1
    exact .forget w command false found (.inr disconnect)
  · obtain rfl := (Prod.mk.inj (Except.ok.inj ok)).1
    exact .ignore w command found (by simp [workerCommands, *])

/-- A message of a sender that is not registered. -/
theorem handled_missing (registers : h.Registers)
    (missing : b.lookup (zframeStrhex sender) = none)
    (ok : sBrokerWorkerMsg h clock b sender (command :: rest) = .ok (b', out)) :
    Handled h clock b sender command b' := by
  by_cases ready : command = mdpwReady
  · subst ready
    rcases ready_cases registers missing ok with ⟨-, rfl⟩ | ⟨-, frame, -, rfl⟩
    · exact .refuse mdpwReady true missing (by decide)
    · exact .register _ (zframeStrdup frame) missing rfl
  simp only [sBrokerWorkerMsg, zmsgPop_cons, zframeStreq_iff, missing,
    registers.require_new missing, Option.isSome_none, Bool.false_eq_true, if_false, ready] at ok
  split at ok
  · rename_i reply
    obtain rfl := (Prod.mk.inj (Except.ok.inj ok)).1
    exact .refuse command true missing (by simp [workerCommands, reply])
  split at ok
  · rename_i heartbeat
    obtain rfl := (Prod.mk.inj (Except.ok.inj ok)).1
    exact .refuse command true missing (by simp [workerCommands, heartbeat])
  split at ok
  · rename_i disconnect
    obtain rfl := (Prod.mk.inj (Except.ok.inj ok)).1
    exact .refuse command false missing (by simp [workerCommands, disconnect])
  · obtain rfl := (Prod.mk.inj (Except.ok.inj ok)).1
    exact .leave command missing (by simp [workerCommands, *])

/-- A worker message that does not fail has one of the listed effects. -/
theorem handled_of_sBrokerWorkerMsg (registers : h.Registers) {msg : Msg}
    (ok : sBrokerWorkerMsg h clock b sender msg = .ok (b', out)) :
    ∃ command rest, msg = command :: rest ∧ Handled h clock b sender command b' := by
  cases msg with
  | nil => cases ok
  | cons command rest =>
      refine ⟨command, rest, rfl, ?_⟩
      cases found : b.lookup (zframeStrhex sender) with
      | some w => exact handled_found registers found ok
      | none => exact handled_missing registers found ok

end

/-- A client message that does not fail is answered by the broker itself or queued
for its service and dispatched. -/
theorem sBrokerClientMsg_cases {h : Helpers} {clock : Nat → Nat} {b b' : Broker} {sender : Frame}
    {msg : Msg} {out : List Output} (ok : sBrokerClientMsg h clock b sender msg = .ok (b', out)) :
    ∃ frame body, msg = frame :: body ∧ body ≠ [] ∧
      ((startsWith frame mmi ∧ b' = b.requireService (zframeStrdup frame) ∧
          ∃ reply, out = [.reply reply]) ∨
        (¬ startsWith frame mmi ∧ ∃ sent,
          sServiceDispatch h clock (b.requireService (zframeStrdup frame)) (zframeStrdup frame)
            (some (zmsgWrap body sender)) = .ok (b', sent) ∧
          out = sent.map fun (worker, msg) => .request worker msg)) := by
  match msg with
  | [] => cases ok
  | [_] => cases ok
  | frame :: part :: body =>
      refine ⟨frame, part :: body, rfl, List.cons_ne_nil _ _, ?_⟩
      obtain ⟨⟨b₁, service⟩, required, ok⟩ := bind_eq_ok.mp ok
      obtain ⟨rfl, rfl⟩ := Prod.mk.inj (Except.ok.inj required)
      simp only at ok
      split at ok
      · rename_i internal
        split at ok
        · cases ok
        · obtain ⟨rfl, rfl⟩ := Prod.mk.inj (Except.ok.inj ok)
          exact .inl ⟨internal, rfl, _, rfl⟩
      · rename_i external
        obtain ⟨⟨b₂, sent⟩, dispatched, done⟩ := bind_eq_ok.mp ok
        obtain ⟨rfl, rfl⟩ := Prod.mk.inj (Except.ok.inj done)
        exact .inr ⟨external, sent, dispatched, rfl⟩

end ZmqPractices.Majordomo
