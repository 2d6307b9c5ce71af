import ZmqPractices.Majordomo.System

/-!
Every registered worker has a service, and where that fails.

`s_broker_worker_msg` inserts a worker for any sender before it looks at the
command. Each command it knows then attaches the worker to a service or deletes it
again, but the branch for unknown commands does neither: the worker stays with a
NULL service, and the next REPLY of the same sender reads through it
(`unknown_command_then_reply`). `attached_iff` says that this is the only way.
-/

namespace ZmqPractices.Majordomo

open Czmq Lib

/-- Every worker in the table has a service, and no worker message makes the broker
read through a NULL pointer. -/
structure Attached (h : Helpers) (clock : Nat → Nat) (s : State) : Prop where
  service : ∀ w ∈ s.broker.workers, w.service ≠ none
  defined : ∀ sender msg, sBrokerWorkerMsg h clock s.broker sender msg ≠ .error .nullPointer

/-- A worker message with an unknown command comes from a registered sender. -/
def KnownCommand (s : State) : Event → Prop
  | .worker sender msg =>
      ∀ command, msg.head? = some command → command ∉ workerCommands →
        (s.broker.lookup (zframeStrhex sender)).isSome
  | .client _ _ => True

/-- The workers in the table all have a service. -/
def Served (b : Broker) : Prop := ∀ w ∈ b.workers, w.service ≠ none

section

variable {h : Helpers} {clock : Nat → Nat} {b b' : Broker}

/-! ### What happens to the services of the workers -/

/-- A property of the service pointers of all workers in the table. -/
def Services (P : Option Frame → Prop) (b : Broker) : Prop := ∀ w ∈ b.workers, P w.service

variable {P : Option Frame → Prop}

/-- Writing fields of a worker other than its service changes no service. -/
theorem Services.setWorker (all : Services P b) (worker : Addr) {write : Worker → Worker}
    (kept : ∀ w, (write w).service = w.service) : Services P (b.setWorker worker write) := by
  intro w mem
  obtain ⟨v, old, rfl⟩ := List.mem_map.mp mem
  split
  · rw [kept]
    exact all v old
  · exact all v old

theorem Services.delete (registers : h.Registers) (all : Services P b) (worker : Addr)
    (disconnect : Bool) : Services P (h.sWorkerDelete b worker disconnect) := by
  intro w mem
  rw [registers.delete_workers] at mem
  exact all w (List.mem_of_mem_filter mem)

theorem Services.waiting (registers : h.Registers) (all : Services P b) (worker : Addr)
    (now : Nat) : Services P (h.sWorkerWaiting b worker now) := by
  intro w mem
  rw [registers.waiting_workers] at mem
  exact (all.setWorker worker fun _ => rfl : Services P (b.setWorker worker
    ({ · with expiry := now + heartbeatExpiry }))) w mem

/-- The worker that was made for a sender is deleted again. -/
theorem Services.refused (registers : h.Registers) (all : Services P b) (sender : Frame)
    (disconnect : Bool) :
    Services P (h.sWorkerDelete (b.insertWorker sender) b.allocated disconnect) := by
  intro w mem
  rw [registers.delete_workers] at mem
  obtain ⟨mem, other⟩ := List.mem_filter.mp mem
  rcases List.mem_cons.mp mem with rfl | old
  · simp at other
  · exact all w old

/-- Attaching the worker that was made for a sender gives it a service, and others none. -/
theorem Services.attached (all : Services P b) {name : Frame} (service : P (some name))
    (sender : Frame) :
    Services P (((b.insertWorker sender).requireService name).attach b.allocated name) := by
  intro w mem
  obtain ⟨v, old, rfl⟩ := List.mem_map.mp mem
  split
  · exact service
  · rename_i other
    rw [workers_requireService] at old
    rcases List.mem_cons.mp old with rfl | old
    · exact absurd rfl other
    · exact all v old

/-- The purge only deletes. -/
theorem Services.purgeLoop (registers : h.Registers) {fuel : Nat} {head : Option Addr}
    (all : Services P b) (ok : purgeLoop h clock fuel head b = .ok b') : Services P b' := by
  induction fuel generalizing head b with
  | zero => cases ok
  | succ fuel ih =>
      cases head with
      | none =>
          obtain rfl := Except.ok.inj ok
          exact all
      | some worker =>
          simp only [Majordomo.purgeLoop] at ok
          split at ok
          · cases ok
          split at ok
          · exact ih (all.delete (b := b.read) registers worker false) ok
          · obtain rfl := Except.ok.inj ok
            exact all

/-- Dispatching leaves the table of workers alone. -/
theorem dispatchLoop_workers {name : Frame} {fuel : Nat} {sent : List (Addr × Msg)}
    (ok : dispatchLoop name fuel b = .ok (b', sent)) : b'.workers = b.workers := by
  induction fuel generalizing b sent with
  | zero => cases ok
  | succ fuel ih =>
      simp only [dispatchLoop] at ok
      split at ok
      · cases ok
      split at ok
      · split at ok
        · cases ok
        · obtain ⟨⟨b₁, sent₁⟩, rest, done⟩ := bind_eq_ok.mp ok
          obtain rfl := (Prod.mk.inj (Except.ok.inj done)).1
          exact (ih rest).trans rfl
      · exact (Prod.mk.inj (Except.ok.inj ok)).1 ▸ rfl

/-- A client message deletes expired workers and changes no other. -/
theorem Services.client (registers : h.Registers) {sender : Frame} {msg : Msg} {out : List Output}
    (all : Services P b) (ok : sBrokerClientMsg h clock b sender msg = .ok (b', out)) :
    Services P b' := by
  obtain ⟨frame, body, rfl, _, ⟨_, rfl, _⟩ | ⟨_, sent, dispatched, _⟩⟩ := sBrokerClientMsg_cases ok
  · intro w mem
    rw [workers_requireService] at mem
    exact all w mem
  · obtain ⟨purged, purge, dispatch⟩ := bind_eq_ok.mp dispatched
    have queued : Services P (queueRequest (b.requireService (zframeStrdup frame))
        (zframeStrdup frame) (some (zmsgWrap body sender))) := by
      intro w mem
      exact all w (workers_requireService b _ ▸ mem)
    intro w mem
    rw [dispatchLoop_workers dispatch] at mem
    exact queued.purgeLoop registers purge w mem

/-- A worker message that is neither a first READY nor an unknown command of a new sender
attaches nobody. -/
theorem Services.handled (registers : h.Registers) {sender command : Frame} (all : Services P b)
    (handled : Handled h clock b sender command b')
    (known : b.lookup (zframeStrhex sender) = none → command ≠ mdpwReady ∧
      (command ∈ workerCommands ∨ P none)) : Services P b' := by
  have read : Services P b.read := all
  cases handled with
  | forget w command disconnect found which => exact all.delete registers _ _
  | refuse command disconnect missing known => exact all.refused registers _ _
  | register b₁ name missing attached => exact absurd rfl (known missing).1
  | answer w w' name found pointed service => exact read.waiting registers _ _
  | refresh w found => exact read.setWorker _ fun _ => rfl
  | ignore w command found unknown => exact all
  | leave command missing unknown =>
      have unserved := (known missing).2.resolve_left unknown
      exact fun w mem => (List.mem_cons.mp mem).elim (fun new => new ▸ unserved) (all w)

/-! ### Workers without a service -/

/-- A worker message keeps every worker attached unless it is an unknown command
from a sender that is not registered. -/
theorem Served.handled (registers : h.Registers) {sender command : Frame} (served : Served b)
    (handled : Handled h clock b sender command b') :
    Served b' ↔ (command ∉ workerCommands → (b.lookup (zframeStrhex sender)).isSome) := by
  have all : Services (· ≠ none) b := served
  have read : Services (· ≠ none) b.read := served
  change Services (· ≠ none) b' ↔ _
  cases handled with
  | forget w command disconnect found which =>
      exact iff_of_true (all.delete registers _ _) fun _ => found ▸ rfl
  | refuse command disconnect missing known =>
      exact iff_of_true (all.refused registers _ _) fun unknown => absurd known unknown
  | register b₁ name missing attached =>
      subst attached
      have after := all.attached (Option.some_ne_none name) sender
      exact iff_of_true (Services.waiting (b := Broker.read _) registers after _ _) fun unknown =>
        absurd (by decide : mdpwReady ∈ workerCommands) unknown
  | answer w w' name found pointed service =>
      exact iff_of_true (read.waiting registers _ _) fun _ => found ▸ rfl
  | refresh w found => exact iff_of_true (read.setWorker _ fun _ => rfl) fun _ => found ▸ rfl
  | ignore w command found unknown =>
      exact iff_of_true all fun _ => found ▸ rfl
  | leave command missing unknown =>
      apply iff_of_false (fun after => after _ List.mem_cons_self rfl)
      intro registered
      rw [missing] at registered
      exact absurd (registered unknown) (by decide)

/-- Where every worker has a service, no worker message reads through NULL. -/
theorem Served.defined (registers : h.Registers) (served : Served b) (sender : Frame) (msg : Msg) :
    sBrokerWorkerMsg h clock b sender msg ≠ .error .nullPointer := by
  intro failed
  match msg with
  | [] => cases failed
  | command :: rest =>
      simp only [sBrokerWorkerMsg, zmsgPop_cons, zframeStreq_iff] at failed
      cases found : b.lookup (zframeStrhex sender) with
      | none =>
          simp only [found, registers.require_new found, Option.isSome_none, Bool.false_eq_true,
            if_false] at failed
          split at failed
          · split at failed
            · cases failed
            · cases rest with
              | nil => cases failed
              | cons frame rest => cases failed
          -- any other command deletes the worker that was made for the sender, or leaves it
          split at failed
          · cases failed
          split at failed
          · cases failed
          split at failed
          · cases failed
          · cases failed
      | some w =>
          simp only [found, registers.require_known found, Option.isSome_some, if_true] at failed
          obtain ⟨w', pointed⟩ : ∃ w', b.deref w.addr = some w' :=
            Table.find_isSome_of_mem (Table.mem_of_find found)
          obtain ⟨name, service⟩ := Option.ne_none_iff_exists'.mp
            (served w' (Table.mem_of_find pointed))
          simp only [pointed] at failed
          split at failed
          · cases failed
          split at failed
          · split at failed
            · rename_i none_service
              exact absurd (service.symm.trans none_service) (Option.some_ne_none name)
            · cases failed
            · cases failed
          split at failed
          · cases failed
          split at failed
          · cases failed
          · cases failed

end

/-- **Every registered worker has a service**, and the REPLY branch reads a service
name that is there, in every state of a run, exactly when no unknown command comes
from a sender that is not registered. -/
theorem attached_iff {h : Helpers} (registers : h.Registers) (clock : Nat → Nat)
    {past : List (State × Event)} {s : State} (run : Run (majordomo h clock) past s) :
    Always (Attached h clock) past s ↔ EachStep KnownCommand past := by
  refine run.exact (fun _ => True) (Attached h clock) KnownCommand ⟨trivial, ?_⟩ ?_
  · have start : Served (majordomo h clock).start.broker := by simp [Served, majordomo, sBrokerNew]
    exact ⟨start, start.defined registers⟩
  · intro s event s' _ attached taken
    suffices Served s'.broker ↔ KnownCommand s event from
      ⟨⟨fun after => this.mp after.service, fun known =>
        ⟨this.mpr known, (this.mpr known).defined registers⟩⟩, fun _ => trivial⟩
    cases event with
    | worker sender msg =>
        obtain ⟨out, ok, _⟩ := majordomo_step_worker taken
        obtain ⟨command, rest, rfl, handled⟩ := handled_of_sBrokerWorkerMsg registers ok
        rw [Served.handled registers attached.service handled]
        simp [KnownCommand]
    | client sender msg =>
        obtain ⟨out, ok, _⟩ := majordomo_step_client taken
        have all : Services (· ≠ none) s.broker := attached.service
        exact iff_of_true (Services.client registers all ok) trivial

/-- A run in which one worker registers. -/
theorem attached_iff_registered :
    ∃ past s, Run (majordomo (Helpers.plain List.erase) id) past s ∧
      s.broker.workers = [⟨0, [0x34, 0x31], [0x41], some [0x73], 1 + heartbeatExpiry⟩] ∧
      (Always (Attached (Helpers.plain List.erase) id) past s ↔ EachStep KnownCommand past) := by
  have ran : ((majordomo (Helpers.plain List.erase) id).exec
      (majordomo (Helpers.plain List.erase) id).start
      [.worker [0x41] [mdpwReady, [0x73]]]).map (fun s => s.broker.workers) =
        some [⟨0, [0x34, 0x31], [0x41], some [0x73], 1 + heartbeatExpiry⟩] := by decide
  obtain ⟨s, done, seen⟩ := Option.map_eq_some_iff.mp ran
  obtain ⟨past, run⟩ := Reachable.start.exec done
  exact ⟨past, s, run, seen, attached_iff (Helpers.plain_queues _).toRegisters _ run⟩

/-- An unknown command from a new sender, and then a REPLY from it. -/
theorem unknown_command_then_reply :
    ∃ s, Reachable (majordomo (Helpers.plain List.erase) id) s ∧
      (∃ w ∈ s.broker.workers, w.identity = [0x41] ∧ w.service = none) ∧
      sBrokerWorkerMsg (Helpers.plain List.erase) id s.broker [0x41]
        [mdpwReply, [0x43], [], [0x44]] = .error .nullPointer := by
  have ran : ((majordomo (Helpers.plain List.erase) id).exec
      (majordomo (Helpers.plain List.erase) id).start [.worker [0x41] [mdpwRequest]]).map
        (fun s => s.broker) =
      some ⟨[], [⟨0, [0x34, 0x31], [0x41], none, 0⟩], [], 1, 1⟩ := by decide
  obtain ⟨s, done, broker⟩ := Option.map_eq_some_iff.mp ran
  refine ⟨s, Reachable.start.exec done, ?_, ?_⟩
  · rw [broker]
    exact ⟨_, List.mem_cons_self, rfl, rfl⟩
  · rw [broker]
    decide

end ZmqPractices.Majordomo
