import ZmqPractices.Majordomo.Registry

/-!
The reserved service names of the broker (`mdbroker.c`).

Names that start with `mmi.` are answered by the broker itself: the client branch tests the
service frame. The worker branch refuses a READY for a reserved name too, but it tests the
identity of the sender: a worker is attached to `mmi.x`, and a worker whose identity starts
with `mmi.` is refused whatever its service is (`reserved_attached`). `reserved_iff` says that
this is harmless exactly where identities and service names are reserved together.
-/

namespace ZmqPractices.Majordomo

open Czmq Lib

/-- No worker is attached to a service with a reserved name. -/
def Unreserved (s : State) : Prop :=
  ∀ w ∈ s.broker.workers, ∀ name, w.service = some name → startsWith name mmi = false

/-- The service frame of a READY, behind the command, is there and reserved. -/
def AsksReserved (rest : Msg) : Prop :=
  ∃ frame, rest.head? = some frame ∧ startsWith frame mmi = true

/-- A first READY leaves its sender unregistered exactly if its service frame is reserved;
and a client's request for a reserved service is answered by the broker itself, which
sends nothing to a worker and changes no worker. -/
def ReservedHandled (h : Helpers) (clock : Nat → Nat) (s : State) : Event → Prop
  | .worker sender msg =>
      ∀ rest, msg = mdpwReady :: rest → s.broker.lookup (zframeStrhex sender) = none →
        ∀ b' out, sBrokerWorkerMsg h clock s.broker sender msg = .ok (b', out) →
          (b'.lookup (zframeStrhex sender) = none ↔ AsksReserved rest)
  | .client sender msg =>
      ∀ frame, msg.head? = some frame → startsWith frame mmi = true →
        ∀ b' out, sBrokerClientMsg h clock s.broker sender msg = .ok (b', out) →
          b'.workers = s.broker.workers ∧ ∃ reply, out = [.reply reply]

/-- If the message is a first READY, the identity of its sender is reserved exactly if its
service frame is. -/
def NamesAgree (s : State) : Event → Prop
  | .worker sender msg =>
      ∀ rest, msg = mdpwReady :: rest → s.broker.lookup (zframeStrhex sender) = none →
        (startsWith sender mmi = true ↔ AsksReserved rest)
  | .client _ _ => True

/-! ### Names and frames -/

/-- A prefix without NUL bytes is in the frame if it is in the frame's string. -/
theorem startsWith_zframeStrdup {bytes : Frame} (nulFree : NulFree bytes) (frame : Frame) :
    startsWith (zframeStrdup frame) bytes = startsWith frame bytes := by
  rw [Bool.eq_iff_iff]
  simp only [startsWith, List.isPrefixOf_iff_prefix]
  constructor
  · exact fun start => start.trans (List.takeWhile_prefix _)
  · rintro ⟨rest, rfl⟩
    have all : ∀ byte ∈ bytes, byte ≠ 0 := fun byte mem zero => nulFree (zero ▸ mem)
    have kept : zframeStrdup (bytes ++ rest) = bytes ++ zframeStrdup rest :=
      List.takeWhile_append_of_pos (by simpa using all)
    exact ⟨zframeStrdup rest, kept.symm⟩

theorem nulFree_mmi : NulFree mmi := by decide

/-! ### A first READY -/

section

variable {h : Helpers} {clock : Nat → Nat} {b b' : Broker} {sender : Frame}

/-- A refused sender is not registered. -/
theorem lookup_refused (registers : h.Registers)
    (missing : b.lookup (zframeStrhex sender) = none) (disconnect : Bool) :
    (h.sWorkerDelete (b.insertWorker sender) b.allocated disconnect).lookup
      (zframeStrhex sender) = none := by
  refine Table.find_eq_none.mpr fun w mem => ?_
  rw [registers.delete_workers] at mem
  obtain ⟨mem, other⟩ := List.mem_filter.mp mem
  rcases List.mem_cons.mp mem with rfl | old
  · simp at other
  · exact Table.find_eq_none.mp missing w old

/-- The new worker is in the table, with its service. -/
theorem mem_registered (registers : h.Registers) (clock : Nat → Nat) (sender name : Frame) :
    ∃ w ∈ (registered h clock b sender name).workers,
      w.idString = zframeStrhex sender ∧ w.service = some name := by
  refine ⟨⟨b.allocated, zframeStrhex sender, sender, some name,
    clock (((b.insertWorker sender).requireService name).attach b.allocated name).tick +
      heartbeatExpiry⟩, ?_, rfl, rfl⟩
  rw [registered, registers.waiting_workers]
  simp [Broker.attach, Broker.setService, Broker.setWorker, Broker.read, Table.update,
    Broker.insertWorker]

theorem lookup_registered (registers : h.Registers) (clock : Nat → Nat) (sender name : Frame) :
    (registered h clock b sender name).lookup (zframeStrhex sender) ≠ none := by
  obtain ⟨w, mem, same, -⟩ := mem_registered (b := b) registers clock sender name
  exact fun missing => Table.find_eq_none.mp missing w mem same

/-- A registration gives one worker a service, and no other worker another. -/
theorem services_registered (registers : h.Registers) {P : Option Frame → Prop}
    (all : Services P b) {name : Frame} :
    Services P (registered h clock b sender name) ↔ P (some name) := by
  constructor
  · intro after
    obtain ⟨w, mem, -, service⟩ := mem_registered (b := b) registers clock sender name
    exact service ▸ after w mem
  · intro service
    let b' := ((b.insertWorker sender).requireService name).attach b.allocated name
    have attached : Services P b'.read := all.attached service sender
    exact attached.waiting registers b.allocated (clock b'.tick)

end

/-! ### The reserved names of a run -/

section

variable {h : Helpers} {clock : Nat → Nat} {s s' : State} {sender : Frame}

/-- The condition on the service of a worker. -/
def NotReserved (service : Option Frame) : Prop :=
  ∀ name, service = some name → startsWith name mmi = false

theorem unreserved_iff_services : Unreserved s ↔ Services NotReserved s.broker := Iff.rfl

/-- A first READY: who may be attached, who is refused, and when the two agree. -/
theorem reserved_ready (registers : h.Registers) (unreserved : Unreserved s) {rest : Msg}
    {out : List Output} (missing : s.broker.lookup (zframeStrhex sender) = none)
    (ok : sBrokerWorkerMsg h clock s.broker sender (mdpwReady :: rest) = .ok (s'.broker, out)) :
    Unreserved s' ∧ (s'.broker.lookup (zframeStrhex sender) = none ↔ AsksReserved rest) ↔
      (startsWith sender mmi = true ↔ AsksReserved rest) := by
  rw [unreserved_iff_services] at unreserved ⊢
  rcases ready_cases registers missing ok with ⟨reserved, after⟩ | ⟨other, frame, first, after⟩
  · rw [after]
    have gone := lookup_refused registers missing true
    have kept := unreserved.refused registers sender true
    simp [gone, kept, reserved]
  · rw [after, services_registered registers unreserved]
    have there := lookup_registered (b := s.broker) registers clock sender
      (zframeStrdup frame)
    have asks : AsksReserved rest ↔ startsWith frame mmi = true := by simp [AsksReserved, first]
    have attaches : NotReserved (some (zframeStrdup frame)) ↔ startsWith frame mmi = false := by
      simp [NotReserved, startsWith_zframeStrdup nulFree_mmi]
    rw [asks, attaches]
    simp [there, other]

theorem reservedHandled_ready {rest : Msg} {out : List Output}
    (missing : s.broker.lookup (zframeStrhex sender) = none)
    (ok : sBrokerWorkerMsg h clock s.broker sender (mdpwReady :: rest) = .ok (s'.broker, out)) :
    ReservedHandled h clock s (.worker sender (mdpwReady :: rest)) ↔
      (s'.broker.lookup (zframeStrhex sender) = none ↔ AsksReserved rest) := by
  constructor
  · exact fun handled => handled rest rfl missing s'.broker out ok
  · rintro same _ ⟨⟩ _ b' out' ok'
    rw [ok, Except.ok.injEq, Prod.mk.injEq] at ok'
    exact ok'.1 ▸ same

theorem namesAgree_ready {rest : Msg} (missing : s.broker.lookup (zframeStrhex sender) = none) :
    NamesAgree s (.worker sender (mdpwReady :: rest)) ↔
      (startsWith sender mmi = true ↔ AsksReserved rest) := by
  constructor
  · exact fun agree => agree rest rfl missing
  · rintro agree _ ⟨⟩ _
    exact agree

/-- A client's request for a reserved service does not reach a worker. -/
theorem reservedHandled_client (h : Helpers) (clock : Nat → Nat) (s : State) (sender : Frame)
    (msg : Msg) : ReservedHandled h clock s (.client sender msg) := by
  intro frame first reserved b' out ok
  obtain ⟨frame', body, rfl, -, ⟨-, rfl, reply⟩ | ⟨other, -⟩⟩ := sBrokerClientMsg_cases ok
  · exact ⟨workers_requireService _ _, reply⟩
  · exact absurd (Option.some.inj first ▸ reserved) other

/-- What a step does to the reserved names. -/
theorem reserved_step (registers : h.Registers) {event : Event} (unreserved : Unreserved s)
    (taken : (majordomo h clock).step s event = some s') :
    Unreserved s' ∧ ReservedHandled h clock s event ↔ NamesAgree s event := by
  cases event with
  | client sender msg =>
      obtain ⟨out, ok, -⟩ := majordomo_step_client taken
      have after : Services NotReserved s'.broker := Services.client registers unreserved ok
      exact iff_of_true ⟨after, reservedHandled_client h clock s sender msg⟩ trivial
  | worker sender msg =>
      obtain ⟨out, ok, -⟩ := majordomo_step_worker taken
      obtain ⟨command, rest, rfl, handled⟩ := handled_of_sBrokerWorkerMsg registers ok
      by_cases first : command = mdpwReady ∧ s.broker.lookup (zframeStrhex sender) = none
      · obtain ⟨rfl, missing⟩ := first
        rw [reservedHandled_ready missing ok, namesAgree_ready missing]
        exact reserved_ready registers unreserved missing ok
      · -- the rest of the messages attach nobody
        have all : Services NotReserved s.broker := unreserved
        have after : Services NotReserved s'.broker := all.handled registers handled
          fun missing => ⟨fun ready => first ⟨ready, missing⟩, .inr fun _ none => by cases none⟩
        refine iff_of_true ⟨after, ?_⟩ ?_
        · rintro _ ⟨⟩ missing
          exact absurd ⟨rfl, missing⟩ first
        · rintro _ ⟨⟩ missing
          exact absurd ⟨rfl, missing⟩ first

end

/-- **Reserved names.** In every run no worker is ever attached to a reserved service, each
first READY is refused exactly for a reserved service frame, and the broker answers all
clients' requests for reserved services, if and only if in every first READY identity and
service frame are both reserved or both not. -/
theorem reserved_iff {h : Helpers} (registers : h.Registers) (clock : Nat → Nat)
    {past : List (State × Event)} {s : State} (run : Run (majordomo h clock) past s) :
    Always Unreserved past s ∧ EachStep (ReservedHandled h clock) past ↔
      EachStep NamesAgree past := by
  have start : Unreserved (majordomo h clock).start := fun _ mem => absurd mem List.not_mem_nil
  refine run.exact_kept (fun _ => True) Unreserved (fun _ _ => True) (ReservedHandled h clock)
    NamesAgree ⟨trivial, start⟩ ?_ fun _ _ => trivial
  exact fun _ _ _ _ _ unreserved taken =>
    ⟨reserved_step registers unreserved taken, fun _ => trivial⟩

instance (rest : Msg) : Decidable (AsksReserved rest) :=
  decidable_of_iff (rest.head?.any (startsWith · mmi) = true) (by
    cases rest <;> simp [AsksReserved])

instance (s : State) : (event : Event) → Decidable (NamesAgree s event)
  | .client .. => .isTrue trivial
  | .worker sender msg =>
      decidable_of_iff (msg.head? = some mdpwReady → s.broker.lookup (zframeStrhex sender) = none →
          (startsWith sender mmi = true ↔ AsksReserved msg.tail))
        ⟨fun agree rest same => by subst same; exact agree rfl,
          fun agree first => agree msg.tail (List.cons_head?_tail first).symm⟩

/-- `mmi.x`. -/
def mmiX : Frame := mmi ++ [0x78]

/-- A worker registers for a service, one is refused for a reserved service and a reserved
identity, and a client asks for a reserved service. -/
theorem reserved_iff_registered : ∃ past s,
    Run (majordomo (Helpers.plain List.erase) id) past s ∧
      (Always Unreserved past s ∧ EachStep (ReservedHandled (Helpers.plain List.erase) id) past) ∧
      s.broker.workers.map Worker.service = [some [0x73]] := by
  have ran : ((majordomo (Helpers.plain List.erase) id).record []
      (majordomo (Helpers.plain List.erase) id).start
      [.worker [0x41] [mdpwReady, [0x73]], .worker mmiX [mdpwReady, mmiX],
        .client [0x43] [mmiService, [0x73]]]).map
      (fun out => (decide (EachStep NamesAgree out.1), out.2.broker.workers.map Worker.service)) =
        some (true, [some [0x73]]) := by
    decide
  obtain ⟨⟨past, s⟩, done, seen⟩ := Option.map_eq_some_iff.mp ran
  simp only [Prod.mk.injEq, decide_eq_true_eq] at seen
  have run := Run.start.record done
  have registers := (Helpers.plain_queues List.erase).toRegisters
  exact ⟨past, s, run, (reserved_iff registers id run).mpr seen.1, seen.2⟩

/-- A worker registers for `mmi.x`; and a worker with the identity `mmi.x` is refused for
another service. -/
theorem reserved_attached :
    (∃ past s, Run (majordomo (Helpers.plain List.erase) id) past s ∧
      s.broker.workers.map Worker.service = [some mmiX] ∧ ¬ Always Unreserved past s) ∧
    (∃ past s, Run (majordomo (Helpers.plain List.erase) id) past s ∧ s.broker.workers = [] ∧
      ¬ EachStep (ReservedHandled (Helpers.plain List.erase) id) past) := by
  have attached : ((majordomo (Helpers.plain List.erase) id).exec
      (majordomo (Helpers.plain List.erase) id).start
      [.worker [0x41] [mdpwReady, mmiX]]).map (·.broker.workers.map Worker.service) =
        some [some mmiX] := by
    decide
  have refused : sBrokerWorkerMsg (Helpers.plain List.erase) id sBrokerNew mmiX
      [mdpwReady, [0x73]] = .ok ({ sBrokerNew with allocated := 1 }, []) := by
    decide
  obtain ⟨s, done, services⟩ := Option.map_eq_some_iff.mp attached
  obtain ⟨past, run⟩ := Reachable.start.exec done
  refine ⟨⟨past, s, run, services, fun always => ?_⟩, ?_⟩
  · obtain ⟨w, mem, service⟩ : ∃ w ∈ s.broker.workers, w.service = some mmiX :=
      List.mem_map.mp (services ▸ List.mem_singleton_self _)
    exact absurd (always.1 w mem mmiX service) (by decide)
  · have taken : (majordomo (Helpers.plain List.erase) id).step ⟨sBrokerNew, []⟩
        (.worker mmiX [mdpwReady, [0x73]]) = some ⟨{ sBrokerNew with allocated := 1 }, []⟩ := by
      decide
    refine ⟨_, _, Run.start.next taken, rfl, fun handled => ?_⟩
    have agrees := (eachStep_cons.mp handled).1 _ rfl rfl _ _ refused
    exact absurd (agrees.mp (by decide)) (by decide)

end ZmqPractices.Majordomo
