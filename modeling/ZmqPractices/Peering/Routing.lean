import ZmqPractices.Peering.Loop

/-!
What the counters of the prototype broker are worth.

`local_capacity` is kept by hand beside the list of available workers and published
when it differs from a snapshot: at the end of every turn it is the length of the
list and the value published last (`advertisement_exact`). `cloud_capacity` is read
from `statefe`, for which a broker without peers has no connection, so every request
the loop reads has somewhere to go (`one_hop`). But nothing counts `cloud_capacity`
down, and the cloud is overcommitted as soon as more clients ask (`overcommits_iff`).
-/

namespace ZmqPractices.Peering

open Czmq Lib

variable {self : Frame} {peers : List Frame} {s s' : Loop} {step : LoopStep} {out : Option Output}
  {past : List (Loop × LoopStep)}

/-! ### The advertisement -/

/-- `local_capacity` counts the list, and the value published last is the one of the
turn's beginning. -/
structure Advertised (s : Loop) : Prop where
  counted : s.broker.localCapacity = s.broker.availableWorkers.size
  announced : s.turn = .poll → s.broker.localCapacity = s.published.headD 0
  snapshot : s.turn ≠ .poll → s.broker.previousCapacity = s.published.headD 0

theorem size_listed (b : Broker) (worker : Frame) :
    (b.listed worker).availableWorkers.size = b.availableWorkers.size + 1 := by
  simp [Broker.listed, ZList.size]

theorem size_taken {b : Broker} {worker : Frame} {workers : List Frame}
    (available : b.availableWorkers.items = worker :: workers) :
    b.availableWorkers.size = (b.taken workers).availableWorkers.size + 1 := by
  simp [Broker.taken, ZList.size, available]

theorem Advertised.start : Advertised (.start self peers) where
  counted := rfl
  announced _ := rfl
  snapshot away := absurd rfl away

/-- Publishing when the capacity differs from the snapshot leaves it published. -/
theorem headD_broadcast {b : Broker} {published : List Int}
    (snapshot : b.previousCapacity = published.headD 0) :
    b.localCapacity = ((broadcast b).toList ++ published).headD 0 := by
  unfold broadcast
  split
  · rfl
  · rename_i same
    rw [Option.toList_none, List.nil_append, ← snapshot]
    exact not_not.mp same

theorem Advertised.move (before : Advertised s) (move : LoopMove s step s' out) :
    Advertised s' := by
  cases move with
  | poll localbe cloudbe statefe at_ =>
      exact ⟨before.counted, Turn.noConfusion, fun _ => before.announced at_⟩
  | localbe worker rest statefe at_ reply =>
      refine ⟨?_, Turn.noConfusion, fun _ => before.snapshot at_⟩
      rw [size_listed, Int.natCast_succ, ← before.counted]
      rfl
  | cloudbe msg statefe at_ reply =>
      exact ⟨before.counted, Turn.noConfusion, fun _ => before.snapshot at_⟩
  | noReply statefe at_ =>
      exact ⟨before.counted, Turn.noConfusion, fun _ => before.snapshot at_⟩
  | statefe capacity at_ connected =>
      exact ⟨before.counted, Turn.noConfusion, fun _ => before.snapshot at_⟩
  | noStatus at_ =>
      exact ⟨before.counted, Turn.noConfusion, fun _ => before.snapshot at_⟩
  | taken rand worker workers at_ polled capacity available =>
      have away : s.turn ≠ .poll := at_ ▸ Turn.noConfusion
      refine ⟨?_, fun poll => absurd poll away, before.snapshot⟩
      have counted := before.counted
      rw [size_taken available, Int.natCast_succ] at counted
      show s.broker.localCapacity - 1 = ((s.broker.taken workers).availableWorkers.size : Int)
      omega
  | forwarded rand peer at_ polled capacity cloud found =>
      exact ⟨before.counted, before.announced, before.snapshot⟩
  | publish at_ =>
      have snapshot := before.snapshot (at_ ▸ Turn.noConfusion)
      exact ⟨before.counted, fun _ => headD_broadcast snapshot, fun away => absurd rfl away⟩

theorem advertised_of_run (run : Run (loop self peers) past s) : Always Advertised past s := by
  apply run.invariant
  · exact .start
  · intro s step s' before taken
    obtain ⟨out, move⟩ := loop_move taken
    exact before.move move

/-- **The advertisement is exact.** Whatever arrives on its sockets, at the end of
every turn of a run `local_capacity` is the number of available workers, is not
negative, and is the value published last, or 0 where nothing has been published. -/
theorem advertisement_exact (run : Run (loop self peers) past s) :
    Always (fun s => s.turn = .poll →
      s.broker.localCapacity = s.broker.availableWorkers.size ∧ 0 ≤ s.broker.localCapacity ∧
        s.broker.localCapacity = s.published.headD 0) past s := by
  apply (advertised_of_run run).imp
  intro s advertised at_
  refine ⟨advertised.counted, ?_, advertised.announced at_⟩
  rw [advertised.counted]
  exact Int.natCast_nonneg _

/-- The turn that takes the READY of a first worker. -/
theorem advertisement_exact_first : ∃ (past : List (Loop × LoopStep)) (s : Loop),
    Run (loop [0x41] []) past s ∧ s.turn = .poll ∧
      s.broker.localCapacity = 1 ∧ s.broker.localCapacity = s.published.headD 0 := by
  have ran : ((loop [0x41] []).exec (loop [0x41] []).start
      [.poll true false false, .localbe [[0, 1], [], workerReady], .noStatus, .publish]).map
        (fun s => (s.turn, s.broker.localCapacity)) = some (.poll, 1) := by decide
  obtain ⟨s, done, seen⟩ := Option.map_eq_some_iff.mp ran
  obtain ⟨past, run⟩ := Reachable.start.exec done
  obtain ⟨turn, capacity⟩ := Prod.mk.inj seen
  exact ⟨past, s, run, turn, capacity, ((advertisement_exact run).1 turn).2.2⟩

/-! ### Where a request goes -/

/-- The number of arguments of `main`: its own name and the peers come after the
name of the program. -/
def Broker.argc (b : Broker) : Nat := b.peers.length + 2

/-- A broker without peers learns of no cloud capacity: it has no connection to read
a status message from. -/
theorem alone_of_reachable (reach : Reachable (loop self peers) s) :
    s.broker.peers = [] → s.broker.cloudCapacity = 0 := by
  apply reach.invariant (fun s => s.broker.peers = [] → s.broker.cloudCapacity = 0)
  · exact fun _ => rfl
  · intro s step s' before taken
    obtain ⟨out, move⟩ := loop_move taken
    cases move with
    | statefe capacity at_ connected => exact fun alone => absurd alone connected
    | _ => exact before

/-- A request from a peer is read only while there is local capacity. -/
theorem secondaryPoll_cloudfe {b : Broker} {localfe cloudfe : Option Msg} {msg : Msg}
    (polled : secondaryPoll b localfe cloudfe = some (.cloudfe, msg)) : b.localCapacity ≠ 0 := by
  unfold secondaryPoll at polled
  split at polled
  · cases polled
  · split at polled
    · assumption
    · cases polled

/-- A request that finds a worker is sent to the one in front of the list, which leaves it. -/
theorem request_taken {rand : Nat} {localfe cloudfe : Option Msg} {socket : Frontend} {msg : Msg}
    {worker : Frame} {workers : List Frame} (at_ : s.turn = .requests)
    (room : s.broker.localCapacity + s.broker.cloudCapacity ≠ 0)
    (polled : secondaryPoll s.broker localfe cloudfe = some (socket, msg))
    (capacity : s.broker.localCapacity ≠ 0)
    (available : s.broker.availableWorkers.items = worker :: workers) :
    ∃ s', s.next (.request rand localfe cloudfe) =
        some (s', some (.localbe (worker :: [] :: msg))) ∧ s'.broker = s.broker.taken workers := by
  refine ⟨(s.requested (s.broker.taken workers, some (.localbe (worker :: [] :: msg)))).1, ?_, rfl⟩
  simp [Loop.next, at_, room, polled, routeRequest, capacity, ZList.pop, available, Loop.requested,
    zmsgWrap, zmsgPush, Broker.taken]

/-- A request that finds no worker is sent to a peer, and the list stays as it is. -/
theorem request_forwarded {rand : Nat} {localfe cloudfe : Option Msg} {socket : Frontend}
    {msg : Msg} {peer : Frame} (at_ : s.turn = .requests)
    (room : s.broker.localCapacity + s.broker.cloudCapacity ≠ 0)
    (polled : secondaryPoll s.broker localfe cloudfe = some (socket, msg))
    (capacity : s.broker.localCapacity = 0) (found : s.broker.peers[rand]? = some peer) :
    ∃ s', s.next (.request rand localfe cloudfe) = some (s', some (.cloudbe (peer :: msg))) ∧
      s'.broker = s.broker := by
  have cloud : s.broker.cloudCapacity ≠ 0 := by simpa [capacity] using room
  refine ⟨(s.requested (s.broker, some (.cloudbe (peer :: msg)))).1, ?_, rfl⟩
  simp [Loop.next, at_, cloud, polled, routeRequest, capacity, found, Loop.requested, zmsgPush]

/-- **Routing is one-hop and well defined.** In every reachable state, with any number of
peers, when the loop reads a request and `randof (n)` is below `n`, it sends it, and

* either there is local capacity and a worker available: the worker in front of the list is
  popped and gets the request;
* or there is no local capacity, the request is from `localfe`, and `argc > 2`: it goes to the
  peer at an index in `[2, argc)`, and nothing is popped. -/
theorem one_hop (reach : Reachable (loop self peers) s) (at_ : s.turn = .requests)
    (room : s.broker.localCapacity + s.broker.cloudCapacity ≠ 0) {localfe cloudfe : Option Msg}
    {socket : Frontend} {msg : Msg}
    (polled : secondaryPoll s.broker localfe cloudfe = some (socket, msg)) {rand : Nat}
    (randof : 0 < s.broker.argc - 2 → rand < s.broker.argc - 2) :
    ∃ s' out, s.next (.request rand localfe cloudfe) = some (s', some out) ∧
      ((s.broker.localCapacity ≠ 0 ∧ ∃ worker workers,
          s.broker.availableWorkers.items = worker :: workers ∧
            s'.broker = s.broker.taken workers ∧ out = .localbe (worker :: [] :: msg)) ∨
        (s.broker.localCapacity = 0 ∧ socket = .localfe ∧
          2 < s.broker.argc ∧ 2 ≤ rand + 2 ∧ rand + 2 < s.broker.argc ∧
            s'.broker = s.broker ∧
              ∃ peer, s.broker.peers[rand]? = some peer ∧ out = .cloudbe (peer :: msg))) := by
  by_cases capacity : s.broker.localCapacity = 0
  · -- without a worker there is cloud capacity, which a peer has announced
    have peered : 0 < s.broker.peers.length := by
      apply List.length_pos_iff.mpr
      intro alone
      exact room (by rw [capacity, alone_of_reachable reach alone]; rfl)
    have in_range : rand < s.broker.peers.length := randof peered
    have found := List.getElem?_eq_getElem in_range
    obtain ⟨s', sent, same⟩ := request_forwarded at_ room polled capacity found
    have client : socket = .localfe := by
      cases socket with
      | localfe => rfl
      | cloudfe => exact absurd capacity (secondaryPoll_cloudfe polled)
    have argc : s.broker.argc = s.broker.peers.length + 2 := rfl
    exact ⟨s', _, sent, .inr ⟨capacity, client, by omega, by omega, by omega, same, _, found, rfl⟩⟩
  · have counted := ((advertised_of_run reach.choose_spec).1).counted
    have nonempty : s.broker.availableWorkers.items ≠ [] := by
      intro empty
      rw [ZList.size, empty] at counted
      exact capacity counted
    obtain ⟨worker, workers, available⟩ := List.exists_cons_of_ne_nil nonempty
    obtain ⟨s', sent, popped⟩ := request_taken at_ room polled capacity available
    exact ⟨s', _, sent, .inl ⟨capacity, worker, workers, available, popped, rfl⟩⟩

/-- Of two client requests, a broker that has one worker, and was told of one elsewhere, gives
the first to its worker and the second to its peer. -/
theorem one_hop_to_peer : ∃ s s₁ s₂, Reachable (loop [0x41] [[0x42]]) s ∧
    s.next (.request 0 (some [[0, 9], [], [0x71]]) none) =
      some (s₁, some (.localbe [[0, 1], [], [0, 9], [], [0x71]])) ∧
    s₁.broker.availableWorkers.items = [] ∧
    s₁.next (.request 0 (some [[0, 9], [], [0x72]]) none) =
      some (s₂, some (.cloudbe [[0x42], [0, 9], [], [0x72]])) ∧ s₂.broker = s₁.broker := by
  have ran : ((loop [0x41] [[0x42]]).exec (loop [0x41] [[0x42]]).start
      [.poll true false true, .localbe [[0, 1], [], workerReady], .statefe 1]).map
        (fun s => (s.turn, s.broker)) =
      some (.requests, ⟨[0x41], [[0x42]], 1, 1, 0, ⟨[[0, 1]], none⟩⟩) := by decide
  obtain ⟨s, done, seen⟩ := Option.map_eq_some_iff.mp ran
  obtain ⟨turn, broker⟩ := Prod.mk.inj seen
  have reach := Reachable.start.exec done
  obtain ⟨s₁, out, sent, ⟨capacity, worker, workers, available, popped, rfl⟩ | ⟨empty, _⟩⟩ :=
    one_hop reach turn (by rw [broker]; decide)
      (show secondaryPoll s.broker (some [[0, 9], [], [0x71]]) none = _ from rfl)
      (show 0 < s.broker.argc - 2 → 0 < s.broker.argc - 2 from id)
  · rw [broker] at available popped
    obtain ⟨rfl, rfl⟩ := List.cons.inj available
    have reach₁ := reach.next (loop_step sent)
    have turn₁ : s₁.turn = .requests := by
      cases next_move sent with
      | taken _ _ _ at_ _ _ _ => exact at_
    obtain ⟨s₂, out, sent', ⟨full, _⟩ | ⟨_, _, _, _, _, same, peer, found, rfl⟩⟩ :=
      one_hop reach₁ turn₁ (by rw [popped]; decide)
        (show secondaryPoll s₁.broker (some [[0, 9], [], [0x72]]) none = _ from rfl)
        (show 0 < s₁.broker.argc - 2 → 0 < s₁.broker.argc - 2 from id)
    · rw [popped] at full
      exact absurd rfl full
    · rw [popped] at found
      obtain rfl := Option.some.inj found
      exact ⟨s, s₁, s₂, reach, sent, by rw [popped]; rfl, sent', same⟩
  · rw [broker] at empty
    exact absurd empty (by decide)

/-! ### The cloud's capacity -/

/-- Since the last status message no more was sent to the cloud than it had room for. -/
def Loop.WithinCloud (s : Loop) : Prop := (s.forwarded : Int) ≤ s.broker.cloudCapacity

instance (s : Loop) : Decidable s.WithinCloud := inferInstanceAs (Decidable (_ ≤ _))

/-- A request that finds no available worker is one of the first `cloud_capacity` of
these since the last status message; and the capacity in a status message is not
negative, as `statebe` never publishes one. -/
def Afforded (s : Loop) : LoopStep → Prop
  | .request _ _ _ => s.broker.localCapacity = 0 → (s.unserved : Int) < s.broker.cloudCapacity
  | .statefe capacity => 0 ≤ capacity
  | _ => True

/-- Every request that found no worker went to the cloud, and nothing else did. -/
theorem forwarded_eq_unserved (before : s.forwarded = s.unserved) (move : LoopMove s step s' out) :
    s'.forwarded = s'.unserved := by
  cases move with
  | statefe capacity at_ connected => rfl
  | forwarded rand peer at_ polled capacity cloud found => exact congrArg (· + 1) before
  | _ => exact before

/-- One step keeps within the cloud's capacity exactly when it can be afforded. -/
theorem withinCloud_move (counted : s.forwarded = s.unserved) (within : s.WithinCloud)
    (move : LoopMove s step s' out) : s'.WithinCloud ↔ Afforded s step := by
  cases move with
  | statefe capacity at_ connected => exact Iff.rfl
  | taken rand worker workers at_ polled capacity available =>
      exact ⟨fun _ empty => absurd empty capacity, fun _ => within⟩
  | forwarded rand peer at_ polled capacity cloud found =>
      have next : ((s.forwarded + 1 : Nat) : Int) ≤ s.broker.cloudCapacity ↔
          (s.unserved : Int) < s.broker.cloudCapacity := by
        rw [counted]
        omega
      exact next.trans ⟨fun room _ => room, fun room => room capacity⟩
  | _ => exact ⟨fun _ => trivial, fun _ => within⟩

/-- **The cloud is overcommitted exactly by the requests it has no room for.** In a run
of the loop, the number of requests sent on `cloudbe` since the last status message
never exceeds the capacity that message set, if and only if every client request read
with no worker available comes while fewer such requests than that have been read
since. -/
theorem overcommits_iff (run : Run (loop self peers) past s) :
    Always Loop.WithinCloud past s ↔ EachStep Afforded past := by
  apply run.exact (fun s => s.forwarded = s.unserved) Loop.WithinCloud Afforded
  · exact ⟨rfl, Int.le_refl 0⟩
  · intro s step s' counted within taken
    obtain ⟨out, move⟩ := loop_move taken
    exact ⟨withinCloud_move counted within move, fun _ => forwarded_eq_unserved counted move⟩

/-- A run that stays within the one place the cloud has. -/
theorem overcommits_iff_one : ∃ (past : List (Loop × LoopStep)) (s : Loop),
    Run (loop [0x41] [[0x42]]) past s ∧ s.forwarded = 1 ∧
      (Always Loop.WithinCloud past s ↔ EachStep Afforded past) := by
  have ran : ((loop [0x41] [[0x42]]).exec (loop [0x41] [[0x42]]).start
      [.poll false false true, .noReply, .statefe 1, .request 0 (some [[0, 9], [], [0x71]]) none,
        .publish]).map (fun s => s.forwarded) = some 1 := by decide
  obtain ⟨s, done, seen⟩ := Option.map_eq_some_iff.mp ran
  obtain ⟨past, run⟩ := Reachable.start.exec done
  exact ⟨past, s, run, seen, overcommits_iff run⟩

/-- With one place in the cloud and its own worker busy, a broker sends the cloud two
requests before it reads the next status message. -/
theorem cloud_overcommitted : ∃ (past : List (Loop × LoopStep)) (s : Loop),
    Run (loop [0x41] [[0x42]]) past s ∧ s.broker.cloudCapacity = 1 ∧ s.forwarded = 2 ∧
      (∃ s', (loop [0x41] [[0x42]]).step s (.statefe 0) = some s') ∧ ¬ s.WithinCloud := by
  have ran : ((loop [0x41] [[0x42]]).exec (loop [0x41] [[0x42]]).start
      [.poll true false false, .localbe [[0, 1], [], workerReady], .noStatus, .publish,
        .poll false false true, .noReply, .statefe 1,
        .request 0 (some [[0, 9], [], [0x71]]) none, .request 0 (some [[0, 9], [], [0x72]]) none,
        .request 0 (some [[0, 9], [], [0x73]]) none, .publish,
        .poll false false true, .noReply]) =
      some ⟨⟨[0x41], [[0x42]], 0, 1, 0, .new⟩, .status true, [0, 1], 2, 2⟩ := by decide
  obtain ⟨past, run⟩ := Reachable.start.exec ran
  exact ⟨past, _, run, rfl, rfl, ⟨_, rfl⟩, by decide⟩

end ZmqPractices.Peering
