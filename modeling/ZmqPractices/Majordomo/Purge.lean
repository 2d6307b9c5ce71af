import ZmqPractices.Majordomo.Dispatch
import ZmqPractices.Lib.Lease

/-!
When the purge is complete.

`s_broker_purge` stops at the first waiting worker with time left, so it is complete
while the list is ordered by expiry. A worker joins the list at the end with the
latest expiry there is, but a HEARTBEAT gives a waiting worker that expiry where it
stands, and so does a REPLY from a worker that is waiting: the workers behind it can
then expire unseen (`heartbeat_hides_expired`).

`ordered_iff` says that the list stays ordered exactly while this happens to no
worker with less time left behind it; `purge_complete` draws the conclusion for the
purge and for dispatches.
-/

namespace ZmqPractices.Majordomo

open Czmq Lib

/-- `worker->expiry`. -/
def Broker.expiry (b : Broker) (worker : Addr) : Nat := (b.deref worker).elim 0 Worker.expiry

/-- After a purge no waiting worker has expired by its last reading of the clock, and
no dispatch sends a request to a worker that had expired when its purge ended. -/
structure PurgeComplete (h : Helpers) (clock : Nat → Nat) (b : Broker) : Prop where
  purge : ∃ b', sBrokerPurge h clock b = .ok b' ∧
    ∀ a ∈ b'.waiting, ∃ w, b'.deref a = some w ∧ clock (b'.tick - 1) < w.expiry
  dispatch : ∀ frame b₀ name msg b' sent, sServiceRequire b (some frame) = .ok (b₀, name) →
    sServiceDispatch h clock b₀ name msg = .ok (b', sent) →
      ∃ purged, sBrokerPurge h clock (queueRequest b₀ name msg) = .ok purged ∧
        ∀ p ∈ sent, ∃ w, purged.deref p.1 = some w ∧ clock (purged.tick - 1) < w.expiry

/-- The worker whose expiry the message renews: the registered sender of a HEARTBEAT
or a REPLY. -/
def renewed (b : Broker) (sender : Frame) (msg : Msg) : Option Addr :=
  if msg.head? = some mdpwHeartbeat ∨ msg.head? = some mdpwReply then
    (b.lookup (zframeStrhex sender)).map Worker.addr
  else none

/-- No other worker that waits behind this one has less time left than it would be
given now. -/
def InOrder (clock : Nat → Nat) (b : Broker) (worker : Addr) : Prop :=
  ∀ before behind, b.waiting = before ++ worker :: behind →
    ∀ a ∈ behind, a ≠ worker → clock b.tick + heartbeatExpiry ≤ b.expiry a

/-- A message renews the expiry of a waiting worker only when no other worker behind
it has less time left. -/
def RenewsInOrder (clock : Nat → Nat) (s : State) : Event → Prop
  | .worker sender msg =>
      ∀ worker, renewed s.broker sender msg = some worker → InOrder clock s.broker worker
  | .client _ _ => True

/-- The workers behind a worker that waits once. -/
theorem InOrder.of_split {clock : Nat → Nat} {b : Broker} {worker : Addr}
    (before behind : List Addr) (once : b.waiting.Nodup)
    (split : b.waiting = before ++ worker :: behind)
    (later : ∀ a ∈ behind, clock b.tick + heartbeatExpiry ≤ b.expiry a) :
    InOrder clock b worker := by
  intro before' behind' split' a mem _
  rw [split, List.nodup_middle, List.nodup_cons, List.mem_append, not_or] at once
  obtain ⟨-, -, rfl⟩ :=
    (List.append_cons_inj_of_notMem once.1.1 once.1.2).mp (split.symm.trans split')
  exact later a mem

/-- The waiting list is ordered by expiry. -/
def Ordered (b : Broker) : Prop := b.waiting.Pairwise fun a a' => b.expiry a ≤ b.expiry a'

/-- No expiry is later than the last reading allows, and the lists fit together. -/
structure Bounded (clock : Nat → Nat) (b : Broker) : Prop where
  consistent : Consistent b
  read : 0 < b.tick
  bound : ∀ a ∈ b.waiting, b.expiry a ≤ clock (b.tick - 1) + heartbeatExpiry

section

variable {h : Helpers} {clock : Nat → Nat} {b b' : Broker} {worker : Addr}

theorem Bounded.start (clock : Nat → Nat) : Bounded clock sBrokerNew ∧ Ordered sBrokerNew :=
  ⟨⟨consistent_start, Nat.one_pos, fun _ mem => by cases mem⟩, .nil⟩

/-- Where the waiting workers are among the earlier ones and have the same expiry. -/
theorem Bounded.sublist (mono : Monotone clock) (bounded : Bounded clock b)
    (consistent : Consistent b') (sub : b'.waiting.Sublist b.waiting)
    (same : ∀ a ∈ b'.waiting, b'.expiry a = b.expiry a) (later : b.tick ≤ b'.tick) :
    Bounded clock b' ∧ (Ordered b → Ordered b') := by
  refine ⟨⟨consistent, lt_of_lt_of_le bounded.read later, ?_⟩, ?_⟩
  · intro a mem
    rw [same a mem]
    have reading : clock (b.tick - 1) ≤ clock (b'.tick - 1) := mono (Nat.sub_le_sub_right later 1)
    exact (bounded.bound a (sub.subset mem)).trans (Nat.add_le_add_right reading _)
  · intro ordered
    refine (ordered.sublist sub).imp_of_mem fun mem mem' le => ?_
    rwa [same _ mem, same _ mem']

theorem Bounded.dropped {gone : List Addr} (mono : Monotone clock) (bounded : Bounded clock b)
    (dropped : Dropped gone b b') (later : b.tick ≤ b'.tick) :
    Bounded clock b' ∧ (Ordered b → Ordered b') := by
  refine bounded.sublist mono (bounded.consistent.dropped dropped) ?_ ?_ later
  · rw [dropped.waiting]
    exact List.filter_sublist
  · intro a mem
    rw [dropped.waiting] at mem
    rw [Broker.expiry, dropped.deref, if_pos (by simpa using (List.mem_filter.mp mem).2)]
    rfl

/-- Where one worker is given the latest expiry, and perhaps put at the end. -/
theorem Bounded.renew (mono : Monotone clock) (bounded : Bounded clock b)
    (consistent : Consistent b') (tick : b'.tick = b.tick + 1)
    (expiry : ∀ a, b'.expiry a =
      if a = worker then clock b.tick + heartbeatExpiry else b.expiry a)
    (waiting : b'.waiting = b.waiting ∨ b'.waiting = b.waiting ++ [worker]) :
    Bounded clock b' ∧ (Ordered b → (Ordered b' ↔ InOrder clock b worker)) := by
  have latest : ∀ a ∈ b.waiting, b.expiry a ≤ clock b.tick + heartbeatExpiry := by
    intro a mem
    have reading : clock (b.tick - 1) ≤ clock b.tick := mono (Nat.sub_le _ 1)
    exact (bounded.bound a mem).trans (Nat.add_le_add_right reading _)
  have latest' : ∀ a ∈ b'.waiting, b'.expiry a ≤ clock b.tick + heartbeatExpiry := by
    intro a mem
    rw [expiry]
    split
    · exact le_rfl
    · rename_i other
      apply latest
      rcases waiting with same | added
      · exact same ▸ mem
      · rcases List.mem_append.mp (added ▸ mem) with old | new
        · exact old
        · exact absurd (List.mem_singleton.mp new) other
  constructor
  · refine ⟨consistent, by omega, ?_⟩
    rw [tick, Nat.add_sub_cancel]
    exact latest'
  · intro ordered
    unfold Ordered
    simp only [expiry]
    rw [InOrder, ← Lease.sorted_renew ordered latest]
    rcases waiting with same | added
    · rw [same]
    · rw [added, List.pairwise_append]
      constructor
      · rintro ⟨renewed, _⟩
        exact renewed
      · intro renewed
        refine ⟨renewed, List.pairwise_singleton _ _, ?_⟩
        intro a mem last single
        obtain rfl := List.mem_singleton.mp single
        rw [if_pos rfl, ← expiry]
        exact latest' a (added ▸ List.mem_append_left _ mem)

/-! ### What each message does to the expiries -/

theorem expiry_setWorker {w : Worker} (found : b.deref worker = some w) (e : Nat) (a : Addr) :
    (b.setWorker worker ({ · with expiry := e })).expiry a =
      if a = worker then e else b.expiry a := by
  split
  · rename_i here
    have written : (b.setWorker worker ({ · with expiry := e })).deref worker =
        (b.deref worker).map ({ · with expiry := e }) := Table.find_update_self fun _ => rfl
    rw [here, Broker.expiry, written, found]
    rfl
  · rename_i other
    exact congrArg (Option.elim · 0 Worker.expiry) (Table.find_update_ne (fun _ => rfl) other)

theorem expiry_sWorkerWaiting {rm : List Addr → Addr → List Addr} (helpers : h.Queues rm)
    {w : Worker} (found : b.deref worker = some w) (now : Nat) (a : Addr) :
    (h.sWorkerWaiting b worker now).expiry a =
      if a = worker then now + heartbeatExpiry else b.expiry a := by
  rw [← expiry_setWorker found, Broker.expiry, Broker.deref, helpers.waiting_workers]
  rfl

/-- Inserting a worker does not touch the waiting ones. -/
theorem Bounded.insertWorker (mono : Monotone clock) (bounded : Bounded clock b)
    (identity : Frame) :
    Bounded clock (b.insertWorker identity) ∧ (Ordered b → Ordered (b.insertWorker identity)) := by
  apply bounded.sublist mono (bounded.consistent.insertWorker identity) (.refl _) _ le_rfl
  intro a mem
  have other : ¬ b.allocated = a := by
    rintro rfl
    exact bounded.consistent.allocated_not_waiting mem
  simp [Broker.expiry, Broker.deref, Table.find, Broker.insertWorker, other]

theorem Bounded.requireService (mono : Monotone clock) (bounded : Bounded clock b) (name : Frame) :
    Bounded clock (b.requireService name) ∧ (Ordered b → Ordered (b.requireService name)) := by
  obtain ⟨waiting, tick, -⟩ := requireService_same b name
  apply bounded.sublist mono (bounded.consistent.requireService name) _ _ tick.ge
  · rw [waiting]
  · intro a _
    rw [Broker.expiry, Broker.deref, workers_requireService]
    rfl

/-- A new worker joins the end of the list with the latest expiry. -/
theorem Bounded.register (mono : Monotone clock) (helpers : h.Queues Helpers.removeAll)
    (bounded : Bounded clock b) (sender name : Frame)
    (attached : b' = ((b.insertWorker sender).requireService name).attach b.allocated name) :
    Bounded clock (h.sWorkerWaiting b'.read b.allocated (clock b'.tick)) ∧
      (Ordered b → Ordered (h.sWorkerWaiting b'.read b.allocated (clock b'.tick))) := by
  subst attached
  obtain ⟨bounded₁, ordered₁⟩ := bounded.insertWorker mono sender
  obtain ⟨bounded₂, ordered₂⟩ := bounded₁.requireService mono name
  obtain ⟨waiting, -⟩ := requireService_same (b.insertWorker sender) name
  let b₂ := (b.insertWorker sender).requireService name
  have new : b.allocated ∉ b₂.waiting := waiting ▸ bounded.consistent.allocated_not_waiting
  have idle : b₂.serviceOf b.allocated = none := by
    rw [serviceOf_requireService, bounded.consistent.serviceOf_insertWorker,
      bounded.consistent.serviceOf_allocated]
  obtain ⟨bounded₃, ordered₃⟩ : Bounded clock (b₂.attach b.allocated name) ∧
      (Ordered b₂ → Ordered (b₂.attach b.allocated name)) := by
    apply bounded₂.sublist mono
      (bounded₂.consistent.attach idle (mem_names_requireService _ name)) (.refl _) _ le_rfl
    intro a mem
    have other : a ≠ b.allocated := by
      rintro rfl
      exact new mem
    exact congrArg (Option.elim · 0 Worker.expiry) (Table.find_update_ne (fun _ => rfl) other)
  obtain ⟨bounded₄, ordered₄⟩ := bounded₃.renew mono
    (bounded.consistent.register helpers sender name _) (helpers.waiting_tick _ _ _)
    (fun a => expiry_sWorkerWaiting (b := (b₂.attach b.allocated name).read) helpers
      (deref_registered b sender name) _ a)
    (.inr (helpers.waiting_waiting _ _ _))
  refine ⟨bounded₄, fun ordered => ?_⟩
  apply (ordered₄ (ordered₃ (ordered₂ (ordered₁ ordered)))).mpr
  intro before behind split
  refine absurd ?_ new
  exact (show b₂.waiting = _ from split) ▸ List.mem_append_right _ List.mem_cons_self

theorem Bounded.queueRequest (mono : Monotone clock) (bounded : Bounded clock b) (name : Frame)
    (msg : Option Msg) :
    Bounded clock (queueRequest b name msg) ∧ (Ordered b → Ordered (queueRequest b name msg)) := by
  apply bounded.sublist mono (bounded.consistent.queueRequest name msg)
  · cases msg <;> exact .refl _
  · intro a _
    cases msg <;> rfl
  · cases msg <;> exact le_rfl

/-- A worker message keeps the list ordered exactly when it renews in order. -/
theorem Bounded.handled (mono : Monotone clock) (helpers : h.Queues Helpers.removeAll)
    {sender command : Frame} (rest : Msg) (bounded : Bounded clock b)
    (handled : Handled h clock b sender command b') :
    Bounded clock b' ∧ (Ordered b → (Ordered b' ↔
      ∀ worker, renewed b sender (command :: rest) = some worker → InOrder clock b worker)) := by
  have consistent := bounded.consistent.handled helpers (clean_removeAll b) handled
  have quiet : renewed b sender (command :: rest) = none →
      Bounded clock b' ∧ (Ordered b → Ordered b') → Bounded clock b' ∧ (Ordered b → (Ordered b' ↔
        ∀ worker, renewed b sender (command :: rest) = some worker → InOrder clock b worker)) := by
    intro none after
    refine ⟨after.1, fun ordered => iff_of_true (after.2 ordered) fun worker some => ?_⟩
    rw [none] at some
    cases some
  have missing : b.lookup (zframeStrhex sender) = none →
      renewed b sender (command :: rest) = none := by
    intro missing
    simp [renewed, missing]
  cases handled with
  | forget w command disconnect found which =>
      apply quiet
      · rcases which with rfl | rfl <;> rfl
      · apply bounded.dropped mono
        · exact dropped_delete helpers bounded.consistent (clean_removeAll b) _ _
        · exact (helpers.delete_tick _ _ _).ge
  | refuse command disconnect absent known =>
      apply quiet (missing absent)
      obtain ⟨bounded₁, ordered₁⟩ := bounded.insertWorker mono sender
      have after := bounded₁.dropped mono
        (dropped_delete helpers bounded₁.consistent (clean_removeAll _) b.allocated disconnect)
        (helpers.delete_tick _ _ _).ge
      exact ⟨after.1, fun ordered => after.2 (ordered₁ ordered)⟩
  | register b₁ name absent attached =>
      exact quiet (missing absent) (bounded.register mono helpers sender name attached)
  | answer w w' name found pointed service =>
      have waiting : (h.sWorkerWaiting b.read w.addr (clock b.tick)).waiting =
          b.waiting ++ [w.addr] := helpers.waiting_waiting _ _ _
      have renewed : renewed b sender (mdpwReply :: rest) = some w.addr := by
        simp [renewed, found]
      rw [renewed]
      have after := bounded.renew mono consistent (helpers.waiting_tick _ _ _)
        (fun a => expiry_sWorkerWaiting (b := b.read) helpers pointed _ a) (.inr waiting)
      simpa using after
  | refresh w found =>
      obtain ⟨w', pointed⟩ : ∃ w', b.deref w.addr = some w' :=
        Table.find_isSome_of_mem (Table.mem_of_find found)
      have renewed : renewed b sender (mdpwHeartbeat :: rest) = some w.addr := by
        simp [renewed, found]
      rw [renewed]
      have after := bounded.renew mono consistent rfl
        (fun a => expiry_setWorker (b := b.read) pointed _ a) (.inl rfl)
      simpa using after
  | ignore w command found unknown =>
      apply quiet
      · simp only [workerCommands, List.mem_cons, not_or] at unknown
        simp [renewed, unknown]
      · exact ⟨bounded, id⟩
  | leave command absent unknown =>
      exact quiet (missing absent) (bounded.insertWorker mono sender)

/-- A dispatch purges, and then only takes workers off the list. -/
theorem Bounded.dispatch (mono : Monotone clock) {service : Service} {msg : Option Msg}
    {purged : Broker} {sent : List (Addr × Msg)} (bounded : Bounded clock b)
    (dispatch : Dispatch h clock b service msg purged b' sent) :
    Bounded clock purged ∧ Bounded clock b' ∧ (Ordered b → Ordered purged ∧ Ordered b') := by
  obtain ⟨bounded₁, ordered₁⟩ := bounded.queueRequest mono service.name msg
  obtain ⟨gone, dropped⟩ := dispatch.dropped
  have tick : (Majordomo.queueRequest b service.name msg).tick ≤ purged.tick := by
    rw [← dispatch.tick.2]
    cases msg <;> exact dispatch.tick.1
  obtain ⟨bounded₂, ordered₂⟩ := bounded₁.dropped mono dropped tick
  obtain ⟨bounded₃, ordered₃⟩ := bounded₂.sublist mono dispatch.consistent dispatch.sublist
    (fun a _ => by rw [Broker.expiry, Broker.deref, dispatch.workers]; rfl) dispatch.tick.2.ge
  refine ⟨bounded₂, bounded₃, fun ordered => ?_⟩
  have purgedOrdered := ordered₂ (ordered₁ ordered)
  exact ⟨purgedOrdered, ordered₃ purgedOrdered⟩

theorem Bounded.client (mono : Monotone clock) (helpers : h.Queues Helpers.removeAll)
    {sender : Frame} {msg : Msg} {out : List Output} (bounded : Bounded clock b)
    (ok : sBrokerClientMsg h clock b sender msg = .ok (b', out)) :
    Bounded clock b' ∧ (Ordered b → Ordered b') := by
  obtain ⟨name, ⟨rfl, _⟩ | ⟨_, _, _, _, _, dispatch, _⟩⟩ :=
    client_cases helpers bounded.consistent (clean_removeAll b) ok
  · exact bounded.requireService mono name
  · obtain ⟨bounded₁, ordered₁⟩ := bounded.requireService mono name
    obtain ⟨_, bounded₂, ordered₂⟩ := bounded₁.dispatch mono dispatch
    exact ⟨bounded₂, fun ordered => (ordered₂ (ordered₁ ordered)).2⟩

/-! ### The purge on an ordered list -/

/-- On an ordered list, one worker with time left at the front is enough for all. -/
theorem Ordered.alive (ordered : Ordered b) (consistent : Consistent b) {now : Nat}
    (head : ∀ a ∈ b.waiting.head?, ∃ w, b.deref a = some w ∧ now < w.expiry) :
    ∀ a ∈ b.waiting, ∃ w, b.deref a = some w ∧ now < w.expiry := by
  intro a mem
  obtain ⟨w, _, found, _⟩ := consistent.deref_of_waiting mem
  refine ⟨w, found, ?_⟩
  cases waiting : b.waiting with
  | nil =>
      rw [waiting] at mem
      cases mem
  | cons first rest =>
      obtain ⟨v, found', alive⟩ := head first (by rw [waiting]; rfl)
      unfold Ordered at ordered
      rw [waiting, List.pairwise_cons] at ordered
      rcases List.mem_cons.mp (waiting ▸ mem) with rfl | later
      · obtain rfl : w = v := Option.some.inj (found.symm.trans found')
        exact alive
      · have le := ordered.1 a later
        rw [Broker.expiry, Broker.expiry, found, found'] at le
        exact alive.trans_le le

theorem Ordered.purgeComplete (mono : Monotone clock) (helpers : h.Queues Helpers.removeAll)
    (ordered : Ordered b) (bounded : Bounded clock b) : PurgeComplete h clock b := by
  constructor
  · obtain ⟨b', gone, purge, dropped, later, head⟩ :=
      sBrokerPurge_spec helpers clock bounded.consistent (clean_removeAll b)
    obtain ⟨bounded', ordered'⟩ := bounded.dropped mono dropped later
    exact ⟨b', purge, (ordered' ordered).alive bounded'.consistent head⟩
  · intro frame b₀ name msg b' sent required ok
    obtain ⟨rfl, rfl⟩ := Prod.mk.inj (Except.ok.inj required)
    obtain ⟨bounded₁, ordered₁⟩ := bounded.requireService mono (zframeStrdup frame)
    obtain ⟨service, found⟩ := service_requireService b (zframeStrdup frame)
    have name : service.name = zframeStrdup frame := Table.key_of_find found
    obtain ⟨purged, b₁, sent₁, dispatch⟩ := sServiceDispatch_spec helpers clock
      bounded₁.consistent (clean_removeAll _) (Table.mem_of_find found) msg
    obtain ⟨rfl, rfl⟩ : b₁ = b' ∧ sent₁ = sent := by
      simpa [name, ok] using dispatch.ok.symm
    obtain ⟨bounded₂, -, ordered₂⟩ := bounded₁.dispatch mono dispatch
    refine ⟨purged, name ▸ dispatch.purge, fun p mem => ?_⟩
    apply (ordered₂ (ordered₁ ordered)).1.alive bounded₂.consistent dispatch.alive
    exact dispatch.perm.symm.subset (List.mem_append_left _ (List.mem_map_of_mem mem))

end

section

variable {h : Helpers} {clock : Nat → Nat} {past : List (State × Event)} {s : State}

theorem Bounded.step (mono : Monotone clock) (helpers : h.Queues Helpers.removeAll) {s' : State}
    {event : Event} (bounded : Bounded clock s.broker)
    (taken : (majordomo h clock).step s event = some s') :
    Bounded clock s'.broker ∧
      (Ordered s.broker → (Ordered s'.broker ↔ RenewsInOrder clock s event)) := by
  cases event with
  | worker sender msg =>
      obtain ⟨out, ok, _⟩ := majordomo_step_worker taken
      obtain ⟨command, rest, rfl, handled⟩ := handled_of_sBrokerWorkerMsg helpers.toRegisters ok
      exact bounded.handled mono helpers rest handled
  | client sender msg =>
      obtain ⟨out, ok, _⟩ := majordomo_step_client taken
      obtain ⟨bounded', ordered'⟩ := bounded.client mono helpers ok
      exact ⟨bounded', fun ordered => iff_of_true (ordered' ordered) trivial⟩

/-- The waiting list is ordered by expiry throughout a run exactly when every message
of the run renews in order. -/
theorem ordered_iff (mono : Monotone clock) (helpers : h.Queues Helpers.removeAll)
    (run : Run (majordomo h clock) past s) :
    Always (fun s => Ordered s.broker) past s ↔ EachStep (RenewsInOrder clock) past := by
  apply run.exact (fun s => Bounded clock s.broker) (fun s => Ordered s.broker)
    (RenewsInOrder clock) (Bounded.start clock)
  intro s event s' bounded ordered taken
  obtain ⟨bounded', exact⟩ := bounded.step mono helpers taken
  exact ⟨exact ordered, fun _ => bounded'⟩

/-- **The purge is complete.** In a run under a clock that does not go back, if every
HEARTBEAT or REPLY of a waiting worker finds no other worker behind it with less
time left than it is then given, then in every state of the run a purge leaves no
expired worker waiting, and no dispatch sends a request to a worker that had expired
when its purge ran. -/
theorem purge_complete (mono : Monotone clock) (helpers : h.Queues Helpers.removeAll)
    (run : Run (majordomo h clock) past s) (inOrder : EachStep (RenewsInOrder clock) past) :
    Always (fun s => PurgeComplete h clock s.broker) past s := by
  have kept : Always (fun s => Bounded clock s.broker ∧ Ordered s.broker) past s := by
    apply run.guarded_invariant _ (RenewsInOrder clock) (Bounded.start clock) _ inOrder
    rintro s event s' ⟨bounded, ordered⟩ renews taken
    obtain ⟨bounded', exact⟩ := bounded.step mono helpers taken
    exact ⟨bounded', (exact ordered).mpr renews⟩
  apply kept.imp
  rintro s ⟨bounded, ordered⟩
  exact ordered.purgeComplete mono helpers bounded

end

/-- Three workers register at 0, two of them beat at 5000, and then it is 8000. -/
def beatClock (tick : Nat) : Nat := if tick ≤ 3 then 0 else if tick ≤ 5 then 5000 else 8000

theorem beatClock_mono : Monotone beatClock := by
  intro a b le
  unfold beatClock
  split_ifs <;> omega

/-- The last of three waiting workers beats, and then the second, with the last behind it; a
purge at 8000 deletes the first. -/
theorem purge_complete_beating :
    ∃ past s, Run (majordomo (Helpers.plain Helpers.removeAll) beatClock) past s ∧
      past.map Prod.snd = [.worker [0x42] [mdpwHeartbeat], .worker [0x43] [mdpwHeartbeat],
        .worker [0x43] [mdpwReady, [0x63]], .worker [0x42] [mdpwReady, [0x62]],
        .worker [0x41] [mdpwReady, [0x61]]] ∧
      s.broker.waiting = [0, 1, 2] ∧
      (∃ b', sBrokerPurge (Helpers.plain Helpers.removeAll) beatClock s.broker = .ok b' ∧
        b'.waiting = [1, 2] ∧ beatClock (b'.tick - 1) = 8000) ∧
      Always (fun s => PurgeComplete (Helpers.plain Helpers.removeAll) beatClock s.broker)
        past s := by
  let a : Service := ⟨[0x61], [], [0], 1⟩
  let b : Service := ⟨[0x62], [], [1], 1⟩
  let c : Service := ⟨[0x63], [], [2], 1⟩
  let first : Worker := ⟨0, [0x34, 0x31], [0x41], some [0x61], 7500⟩
  let second (expiry : Nat) : Worker := ⟨1, [0x34, 0x32], [0x42], some [0x62], expiry⟩
  let last (expiry : Nat) : Worker := ⟨2, [0x34, 0x33], [0x43], some [0x63], expiry⟩
  let s₁ : State := ⟨⟨[a], [first], [0], 1, 2⟩, []⟩
  let s₂ : State := ⟨⟨[a, b], [second 7500, first], [0, 1], 2, 3⟩, []⟩
  let s₃ : State := ⟨⟨[a, b, c], [last 7500, second 7500, first], [0, 1, 2], 3, 4⟩, []⟩
  let s₄ : State := ⟨⟨[a, b, c], [last 12500, second 7500, first], [0, 1, 2], 3, 5⟩, []⟩
  let s₅ : State := ⟨⟨[a, b, c], [last 12500, second 12500, first], [0, 1, 2], 3, 6⟩, []⟩
  have run := (((((Run.start (T := majordomo (Helpers.plain Helpers.removeAll) beatClock)).next
    (l := .worker [0x41] [mdpwReady, [0x61]]) (show _ = some s₁ by decide)).next
    (l := .worker [0x42] [mdpwReady, [0x62]]) (show _ = some s₂ by decide)).next
    (l := .worker [0x43] [mdpwReady, [0x63]]) (show _ = some s₃ by decide)).next
    (l := .worker [0x43] [mdpwHeartbeat]) (show _ = some s₄ by decide)).next
    (l := .worker [0x42] [mdpwHeartbeat]) (show _ = some s₅ by decide)
  have complete := purge_complete beatClock_mono (Helpers.plain_queues _) run (by
    refine eachStep_cons.mpr ⟨?_, eachStep_cons.mpr ⟨?_, eachStep_cons.mpr ⟨?_,
      eachStep_cons.mpr ⟨?_, eachStep_cons.mpr ⟨?_, eachStep_nil⟩⟩⟩⟩⟩
    · intro worker renews
      obtain rfl : 1 = worker := Option.some.inj renews
      refine InOrder.of_split [0] [2] (by decide) rfl fun a mem => ?_
      obtain rfl := List.mem_singleton.mp mem
      exact le_rfl
    · intro worker renews
      obtain rfl : 2 = worker := Option.some.inj renews
      exact InOrder.of_split [0, 1] [] (by decide) rfl fun a mem => absurd mem List.not_mem_nil
    all_goals
      intro worker renews
      cases renews)
  have purges : (sBrokerPurge (Helpers.plain Helpers.removeAll) beatClock s₅.broker).toOption.map
      (fun b' => (b'.waiting, beatClock (b'.tick - 1))) = some ([1, 2], 8000) := by decide
  obtain ⟨b', purged, -⟩ := complete.1.purge
  rw [purged] at purges
  exact ⟨_, s₅, run, rfl, rfl, ⟨b', purged, Prod.mk.inj (Option.some.inj purges)⟩, complete⟩

/-- Both workers register at 0, the first beats at 5000, and then it is 8000. -/
def lateClock (tick : Nat) : Nat := if tick ≤ 2 then 0 else if tick = 3 then 5000 else 8000

theorem lateClock_mono : Monotone lateClock := by
  intro a b le
  unfold lateClock
  split_ifs <;> omega

/-- The heartbeat of the first worker keeps the second, whose 7500 are over, in the
list after a purge at 8000, and a request for its service goes to it. -/
theorem heartbeat_hides_expired :
    Monotone lateClock ∧
    ∃ s, Reachable (majordomo (Helpers.plain Helpers.removeAll) lateClock) s ∧
      (∃ b', sBrokerPurge (Helpers.plain Helpers.removeAll) lateClock s.broker = .ok b' ∧
        b'.waiting = [0, 1] ∧ b'.expiry 1 = 7500 ∧ lateClock (b'.tick - 1) = 8000) ∧
      ∃ b', sServiceDispatch (Helpers.plain Helpers.removeAll) lateClock s.broker [0x62]
        (some [[0x43], [], [0x44]]) = .ok (b', [(1, [[0x43], [], [0x44]])]) := by
  have ran : ((majordomo (Helpers.plain Helpers.removeAll) lateClock).exec
      (majordomo (Helpers.plain Helpers.removeAll) lateClock).start
      [.worker [0x41] [mdpwReady, [0x61]], .worker [0x42] [mdpwReady, [0x62]],
        .worker [0x41] [mdpwHeartbeat]]).map State.broker =
      some ⟨[⟨[0x61], [], [0], 1⟩, ⟨[0x62], [], [1], 1⟩],
        [⟨1, [0x34, 0x32], [0x42], some [0x62], 7500⟩,
          ⟨0, [0x34, 0x31], [0x41], some [0x61], 12500⟩], [0, 1], 2, 4⟩ := by decide
  obtain ⟨s, done, broker⟩ := Option.map_eq_some_iff.mp ran
  refine ⟨lateClock_mono, s, Reachable.start.exec done, ?_, ?_⟩
  · rw [broker]
    exact ⟨_, rfl, by decide, by decide, by decide⟩
  · rw [broker]
    exact ⟨_, rfl⟩

end ZmqPractices.Majordomo
