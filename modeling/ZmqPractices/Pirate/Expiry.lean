import ZmqPractices.Pirate.WorkerList

/-!
What a request of a client finds at the head of the list of `ppqueue.c`.

The purge ends an iteration, the poll wait begins the next one, and
`s_workers_next` looks at no clock. `Alive cutoff q` says what the purge leaves: a
list in the order of its expiry times, all of them later than `cutoff`. A
dispatch therefore goes to a worker that was alive at the last reading of the
purge before it, and `expired_pick` shows that nothing stronger holds.
-/

namespace ZmqPractices.Pirate

open Czmq Lib

/-- The list is in expiry order, every expiry is later than `cutoff`, and none is
further ahead than a lease that begins at the last clock reading. -/
structure Alive (clock : Nat → Nat) (cutoff : Nat) (q : Queue) : Prop where
  sorted : q.workers.items.Pairwise fun a b => a.expiry ≤ b.expiry
  later : ∀ w ∈ q.workers.items, cutoff < w.expiry
  bounded : ∀ w ∈ q.workers.items, w.expiry ≤ q.lastReading clock + workerLease
  cutoff_le : cutoff ≤ q.lastReading clock

/-- The moments of a turn that the code does not read from its clock: where the
poll begins, where it returns, and where `s_workers_next` picks. -/
structure Moments where
  began : Nat
  woke : Nat
  picked : Nat

/-- The moments lie between the readings around them, and the poll lasts at most
`HEARTBEAT_INTERVAL`. `q₁` is the state the backend part of the turn leaves. -/
structure Moments.Fit (clock : Nat → Nat) (q q₁ : Queue) (m : Moments) : Prop where
  purged : q.lastReading clock ≤ m.began
  polled : m.began ≤ m.woke
  polled_le : m.woke ≤ m.began + heartbeatInterval
  woke_le : m.woke ≤ clock q.tick
  woke_picked : m.woke ≤ m.picked
  heard : q₁.lastReading clock ≤ m.picked
  picked_le : m.picked ≤ clock q₁.tick

/-- The turn reads `request` and sends it to `worker`, which `s_workers_next` picks in the
state `q₁` that the backend part of the turn leaves. Nothing else it sends is a request. -/
def Forwards (clock : Nat → Nat) (q : Queue) (poll : Poll) (request : Msg) (q₁ : Queue)
    (worker : Worker) : Prop :=
  q.workers.size ≠ 0 ∧ poll.frontend = some request ∧
    q₁.workers.items.head? = some worker ∧
    ∃ replies, backendPart clock q poll.backend = some (q₁, replies) ∧
      Sends clock q poll replies [.backend (worker.identity :: request)]

section Parts

variable {clock : Nat → Nat} {cutoff : Nat} {q : Queue}

theorem Alive.start (clock : Nat → Nat) : Alive clock (clock 0) (Queue.start clock) where
  sorted := List.Pairwise.nil
  later := by simp [Queue.start, ZList.new]
  bounded := by simp [Queue.start, ZList.new]
  cutoff_le := le_rfl

/-- A shorter list and a later clock keep the invariant. -/
theorem Alive.sublist (mono : Monotone clock) (alive : Alive clock cutoff q) {q' : Queue}
    (items : q'.workers.items.Sublist q.workers.items) (tick : q.tick ≤ q'.tick) :
    Alive clock cutoff q' := by
  have reading : q.lastReading clock ≤ q'.lastReading clock :=
    mono (Nat.sub_le_sub_right tick 1)
  constructor
  · exact alive.sorted.sublist items
  · exact fun w mem => alive.later w (items.subset mem)
  · exact fun w mem => (alive.bounded w (items.subset mem)).trans
      (Nat.add_le_add_right reading _)
  · exact alive.cutoff_le.trans reading

/-- A message puts its sender at the end, with the longest lease of the list. -/
theorem Alive.after_backendMessage (mono : Monotone clock) (alive : Alive clock cutoff q)
    {msg : Msg} {q' : Queue} {out : List Output}
    (done : backendMessage clock q msg = some (q', out)) :
    Alive clock cutoff q' ∧ 0 < q'.workers.size := by
  have next : q.lastReading clock ≤ clock q.tick := mono (Nat.sub_le _ _)
  have longest : ∀ w ∈ q.workers.items, w.expiry ≤ clock q.tick + workerLease := fun w mem =>
    (alive.bounded w mem).trans (Nat.add_le_add_right next _)
  unfold backendMessage at done
  split at done
  · cases done
  · rename_i identity rest unwrapped
    obtain ⟨rfl, -⟩ := Prod.mk.inj (Option.some.inj done)
    have kept := List.eraseP_sublist
      (p := (·.idString = (sWorkerNew (clock q.tick) identity).idString))
      (l := q.workers.items)
    constructor
    · constructor
      · rw [sWorkerReady_eq, List.pairwise_append]
        refine ⟨alive.sorted.sublist kept, List.pairwise_singleton _ _, ?_⟩
        intro w mem _ self
        obtain rfl := List.mem_singleton.mp self
        exact longest w (kept.subset mem)
      · intro w mem
        rw [sWorkerReady_eq] at mem
        rcases List.mem_append.mp mem with mem | mem
        · exact alive.later w (kept.subset mem)
        · obtain rfl := List.mem_singleton.mp mem
          have := alive.cutoff_le.trans next
          exact this.trans_lt (lt_add_workerLease _)
      · intro w mem
        rw [sWorkerReady_eq] at mem
        rcases List.mem_append.mp mem with mem | mem
        · exact longest w (kept.subset mem)
        · obtain rfl := List.mem_singleton.mp mem
          exact le_rfl
      · exact alive.cutoff_le.trans next
    · simp [sWorkerReady_eq, ZList.size]

theorem Alive.after_backendPart (mono : Monotone clock) (alive : Alive clock cutoff q)
    {msg : Option Msg} {q' : Queue} {out : List Output}
    (done : backendPart clock q msg = some (q', out)) :
    Alive clock cutoff q' ∧ (q.workers.size ≠ 0 → q'.workers.size ≠ 0) := by
  cases msg with
  | none =>
      obtain ⟨rfl, -⟩ := Prod.mk.inj (Option.some.inj done)
      exact ⟨alive, id⟩
  | some msg =>
      obtain ⟨alive', nonempty⟩ :=
        alive.after_backendMessage mono (backendMessage_of_branch done)
      exact ⟨alive', fun _ => Nat.ne_of_gt nonempty⟩

/-- A dispatch takes the head of the list. -/
theorem Alive.after_frontendPart (mono : Monotone clock) (alive : Alive clock cutoff q)
    {request : Option Msg} {q' : Queue} {out : List Output}
    (done : frontendPart q request = some (q', out)) : Alive clock cutoff q' := by
  obtain ⟨⟨items, cursor⟩, at_, tick⟩ := q
  cases request with
  | none =>
      obtain ⟨rfl, -⟩ := Prod.mk.inj (Option.some.inj done)
      exact alive
  | some msg =>
      cases items with
      | nil => cases done
      | cons worker rest =>
          obtain ⟨rfl, -⟩ := Prod.mk.inj (Option.some.inj done)
          exact alive.sublist mono (List.sublist_cons_self worker rest) le_rfl

/-- The purge moves the cutoff to its last clock reading. -/
theorem Alive.after_purgeWorkers (mono : Monotone clock) (alive : Alive clock cutoff q) :
    Alive clock ((purgeWorkers clock q).lastReading clock) (purgeWorkers clock q) := by
  have items : (purgeWorkers clock q).workers.items =
      (Lease.purge clock Worker.expiry q.tick q.workers.items).1 :=
    items_sWorkersPurge clock q.workers q.tick
  have tick : (purgeWorkers clock q).tick =
      (Lease.purge clock Worker.expiry q.tick q.workers.items).2 :=
    tick_sWorkersPurge clock q.workers q.tick
  have tick_le : q.tick ≤ (purgeWorkers clock q).tick :=
    tick ▸ Lease.le_purge_tick clock Worker.expiry q.tick q.workers.items
  have kept := Lease.purge_sublist clock Worker.expiry q.tick q.workers.items
  have shorter : Alive clock cutoff (purgeWorkers clock q) :=
    alive.sublist mono (items ▸ kept) tick_le
  refine ⟨shorter.sorted, ?_, shorter.bounded, le_rfl⟩
  intro w mem
  rw [items, Lease.purge_eq_filter mono alive.sorted, ← tick, List.mem_filter] at mem
  exact of_decide_eq_true mem.2

theorem Alive.after_heartbeatRound (mono : Monotone clock) (alive : Alive clock cutoff q) :
    Alive clock cutoff (heartbeatRound clock q).1 :=
  alive.sublist mono (items_heartbeatRound clock q ▸ .refl _) (tick_heartbeatRound clock q).le

/-- A whole iteration ends with a list that its purge found alive. -/
theorem Alive.after_iterate (mono : Monotone clock) (alive : Alive clock cutoff q) {poll : Poll}
    {q' : Queue} {out : List Output} (done : iterate clock q poll = some (q', out)) :
    Alive clock (q'.lastReading clock) q' := by
  obtain ⟨q₁, replies, q₂, requests, heard, routed, rfl, -⟩ := iterate_parts done
  have alive₁ := (alive.after_backendPart mono heard).1
  have alive₂ := alive₁.after_frontendPart mono routed
  exact (alive₂.after_heartbeatRound mono).after_purgeWorkers mono

/-- A request that the turn reads is forwarded to the head of the list, a worker
the last purge found alive or one heard of since. -/
theorem Alive.forwards (mono : Monotone clock) (alive : Alive clock cutoff q) {poll : Poll}
    {request : Msg} (listed : q.workers.size ≠ 0) (polled : poll.frontend = some request)
    {q' : Queue} {out : List Output} (done : iterate clock q poll = some (q', out)) :
    ∃ q₁ worker, Forwards clock q poll request q₁ worker ∧ cutoff < worker.expiry := by
  obtain ⟨q₁, replies, q₂, requests, heard, routed, -, -⟩ := iterate_parts done
  obtain ⟨alive₁, kept⟩ := alive.after_backendPart mono heard
  have reads : poll.request q = some request := by rw [Poll.request, if_neg listed, polled]
  cases items : q₁.workers.items with
  | nil => exact absurd (congrArg List.length items) (kept listed)
  | cons worker rest =>
      have later := alive₁.later worker (items ▸ List.mem_cons_self)
      have dispatched := reads ▸ frontendPart_head items request
      exact ⟨q₁, worker, ⟨listed, polled, congrArg List.head? items, replies, heard,
        sends_of_parts heard dispatched⟩, later⟩

end Parts

/-- At the end of every turn of a run, the list is what its purge found alive. -/
theorem alive_of_run {clock : Nat → Nat} (mono : Monotone clock) {past : List (Queue × Poll)}
    {q : Queue} (run : Run (mainLoop clock) past q) :
    Always (fun q => Alive clock (q.lastReading clock) q) past q := by
  apply run.invariant
  · exact Alive.start clock
  · intro q poll q' alive taken
    obtain ⟨⟨_, out⟩, done, rfl⟩ := Option.map_eq_some_iff.mp taken
    exact alive.after_iterate mono done

/-- A clock of five turns: the waits are cut short by worker A at 0, twice last the
whole interval, and are cut short by worker B at 2900 and by a request at 3800. -/
def fiveTurns (n : Nat) : Nat :=
  if n < 4 then 0 else if n < 7 then 1000 else if n < 10 then 2000
  else if n < 13 then 2900 else 3800

theorem fiveTurns_mono : Monotone fiveTurns := by
  intro m n le
  unfold fiveTurns
  split_ifs <;> omega

/-- The last purge reads 2900 and A's lease runs to 3000: the request of 3800 is
given to A, while B is there. -/
theorem expired_pick : ∃ (past : List (Queue × Poll)) (q q₁ : Queue) (poll : Poll) (request : Msg)
    (worker : Worker) (m : Moments),
      Monotone fiveTurns ∧ Run (mainLoop fiveTurns) past q ∧
      Forwards fiveTurns q poll request q₁ worker ∧ m.Fit fiveTurns q q₁ ∧
      ¬ m.picked < worker.expiry := by
  have ran : ((mainLoop fiveTurns).exec (mainLoop fiveTurns).start
      [⟨some [[0x41], pppReady], none⟩, ⟨none, none⟩, ⟨none, none⟩,
        ⟨some [[0x42], pppReady], none⟩]).map
        (fun q => (q.workers.items.map fun w => (w.identity, w.expiry), q.tick)) =
      some ([([0x41], 3000), ([0x42], 5900)], 13) := by decide
  obtain ⟨q, done, seen⟩ := Option.map_eq_some_iff.mp ran
  obtain ⟨past, run⟩ := Reachable.start.exec done
  obtain ⟨⟨items, cursor⟩, at_, tick⟩ := q
  obtain ⟨listed, rfl⟩ := Prod.mk.inj seen
  cases items with
  | nil => cases listed
  | cons worker rest =>
      obtain ⟨head, -⟩ := List.cons.inj listed
      obtain ⟨-, expiry⟩ := Prod.mk.inj head
      refine ⟨past, _, _, ⟨none, some [[0x43]]⟩, [[0x43]], worker, ⟨2900, 3800, 3800⟩,
        fiveTurns_mono, run, ⟨?_, rfl, rfl, [], rfl, ?_⟩, ?_, ?_⟩
      · simp [ZList.size]
      · exact sends_of_parts rfl (frontendPart_head rfl [[0x43]])
      · have before : fiveTurns 12 = 2900 := by decide
        have after : fiveTurns 13 = 3800 := by decide
        exact ⟨before.le, by decide, by decide, after.ge, le_rfl, before.trans_le (by decide),
          after.ge⟩
      · change ¬ 3800 < worker.expiry
        rw [expiry]
        decide

/-- **A request goes to a worker that was alive at the last purge.** In every run
of the main loop, with a clock that does not go back and any poll waits up to
`HEARTBEAT_INTERVAL`, each request a turn reads is forwarded, to a worker whose
expiry is later than the last reading of the purge before that turn. Where the
worker is picked after its expiry, it is by less than `HEARTBEAT_INTERVAL` and the
time the turn spends outside the poll wait. -/
theorem forwards_to_alive {clock : Nat → Nat} (mono : Monotone clock) {past : List (Queue × Poll)}
    {q : Queue} (run : Run (mainLoop clock) past q) :
    ∀ turn ∈ past, ∀ request, turn.2.frontend = some request → turn.1.workers.size ≠ 0 →
      ∃ q₁ worker, Forwards clock turn.1 turn.2 request q₁ worker ∧
        turn.1.lastReading clock < worker.expiry ∧
        ∀ m : Moments, m.Fit clock turn.1 q₁ →
          m.picked < worker.expiry + heartbeatInterval +
            (m.began - turn.1.lastReading clock) + (m.picked - m.woke) := by
  rintro ⟨q₀, poll⟩ mem request polled listed
  have alive := (alive_of_run mono run).2 _ mem
  obtain ⟨q', taken⟩ := run.defined mem
  obtain ⟨⟨_, out⟩, done, rfl⟩ := Option.map_eq_some_iff.mp taken
  obtain ⟨q₁, worker, forwards, later⟩ := alive.forwards mono listed polled done
  refine ⟨q₁, worker, forwards, later, ?_⟩
  intro m fit
  have := fit.purged
  have := fit.polled_le
  have := fit.woke_picked
  dsimp only at later ⊢
  omega

/-- The request that follows the first worker's READY. -/
theorem forwards_to_alive_first :
    ∃ (past : List (Queue × Poll)) (q q₁ : Queue) (worker : Worker), Run (mainLoop id) past q ∧
      ∃ turn ∈ past, Forwards id turn.1 turn.2 [[0x43]] q₁ worker ∧
        turn.1.lastReading id < worker.expiry := by
  have ready := (Run.start (T := mainLoop id)).next
    (l := ⟨some [[0x41], pppReady], none⟩) rfl
  have request := ready.next (l := ⟨none, some [[0x43]]⟩) rfl
  obtain ⟨q₁, worker, forwards, later, -⟩ :=
    forwards_to_alive monotone_id request _ List.mem_cons_self [[0x43]] rfl (by decide)
  exact ⟨_, _, q₁, worker, request, _, List.mem_cons_self, forwards, later⟩

end ZmqPractices.Pirate
