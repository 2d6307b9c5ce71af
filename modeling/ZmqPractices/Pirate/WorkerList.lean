import ZmqPractices.Pirate.Queue
import ZmqPractices.Lib.Transition

/-!
The worker list of `ppqueue.c` is the list of live leases.

`history` says, from what the polls of a run found and what its turns have sent, which
worker was heard from when and which was given a request. `Listed cutoff history q` says
that the list holds exactly the workers whose last message came after their last dispatch
and whose lease runs past `cutoff`, least recently heard first. Each part of an iteration
keeps it: a message with the same cutoff, a dispatch because the head is taken, the purge
by moving the cutoff to its last clock reading. `worker_list_spec` collects what this says
about every turn of the main loop.
-/

namespace ZmqPractices.Pirate

open Czmq Lib
open Lease (newest times live)

/-- The record `s_worker_new` makes for a worker heard at a time. -/
def record (p : Frame × Nat) : Worker := sWorkerNew p.2 p.1

@[simp] theorem record_identity (p : Frame × Nat) : (record p).identity = p.1 := rfl
@[simp] theorem record_expiry (p : Frame × Nat) : (record p).expiry = p.2 + workerLease := rfl
@[simp] theorem record_idString (p : Frame × Nat) : (record p).idString = zframeStrdup p.1 := rfl

/-- The last clock reading the queue took. -/
def Queue.lastReading (clock : Nat → Nat) (q : Queue) : Nat := clock (q.tick - 1)

/-! ### What a turn has done -/

/-- Who is sent a request: the worker whose identity frame the first message on the backend
begins with, if the rest of that message is the request. -/
def dispatchedTo (request : Msg) : List Output → Option Frame
  | .frontend _ :: out => dispatchedTo request out
  | .backend (worker :: msg) :: _ => if msg = request then some worker else none
  | _ => none

/-- The worker that a turn hears, at the reading of the clock that comes next. -/
def heardIn (clock : Nat → Nat) (q : Queue) (poll : Poll) : List (Lease.Event Frame) :=
  match poll.backend with
  | some (worker :: _) => [.heard worker (clock q.tick)]
  | _ => []

/-- The worker that a turn sends the request it reads. -/
def takenIn (clock : Nat → Nat) (q : Queue) (poll : Poll) : List (Lease.Event Frame) :=
  match poll.request q, iterate clock q poll with
  | some request, some (_, out) => ((dispatchedTo request out).map .taken).toList
  | _, _ => []

/-- The messages and dispatches of the turns, newest first. -/
def history (clock : Nat → Nat) (past : List (Queue × Poll)) : List (Lease.Event Frame) :=
  past.flatMap fun turn => takenIn clock turn.1 turn.2 ++ heardIn clock turn.1 turn.2

/-- The turn passes these replies on, then sends these requests to workers, and last
heartbeats. -/
def Sends (clock : Nat → Nat) (q : Queue) (poll : Poll) (replies requests : List Output) : Prop :=
  ∃ q' heartbeats, iterate clock q poll = some (q', replies ++ requests ++ heartbeats) ∧
    (∀ o ∈ replies, ∃ reply, o = .frontend reply) ∧
    ∀ o ∈ heartbeats, ∃ worker, o = .backend [worker, pppHeartbeat]

/-- The list is the list of live leases at `cutoff`, and the history is one the
clock allows: times in order, none after the last reading, identities that are
their own strings. -/
structure Listed (clock : Nat → Nat) (cutoff : Nat) (history : List (Lease.Event Frame))
    (q : Queue) : Prop where
  items : q.workers.items = (live workerLease cutoff history).map record
  cutoff_le : cutoff ≤ q.lastReading clock
  timed : (times history).Pairwise (· ≥ ·)
  times_le : ∀ t ∈ times history, t ≤ q.lastReading clock
  nulFree : ∀ e ∈ history, NulFree e.key
  read : 0 < q.tick

/-- What a ROUTER socket can deliver from workers that name themselves as
`ppworker` does: an identity frame without NUL bytes, then any frames. -/
def FromWorker (msg : Msg) : Prop :=
  ∃ identity content, msg = identity :: content ∧ NulFree identity

/-- Every backend message of a poll is one a worker can have sent. -/
def Poll.FromWorkers (poll : Poll) : Prop :=
  ∀ msg, poll.backend = some msg → FromWorker msg

section Parts

variable {clock : Nat → Nat} {cutoff : Nat} {events : List (Lease.Event Frame)} {q q' : Queue}
  {poll : Poll} {out : List Output}

/-- The parts of a turn, and what they send. -/
theorem sends_of_parts {q₁ q₂ : Queue} {replies requests : List Output}
    (heard : backendPart clock q poll.backend = some (q₁, replies))
    (routed : frontendPart q₁ (poll.request q) = some (q₂, requests)) :
    Sends clock q poll replies requests := by
  refine ⟨purgeWorkers clock (heartbeatRound clock q₂).1, (heartbeatRound clock q₂).2,
    by simp [iterate, heard, routed], backendPart_replies heard, fun o mem => ?_⟩
  rw [out_heartbeatRound] at mem
  split at mem
  · obtain ⟨worker, -, rfl⟩ := List.mem_map.mp mem
    exact ⟨worker.identity, rfl⟩
  · cases mem

/-- The backend part is through with every message of a worker but two empty frames. -/
theorem backendPart_defined (sent : poll.FromWorkers) :
    (backendPart clock q poll.backend).isSome ↔
      ∀ identity, poll.backend ≠ some [identity, [], []] := by
  cases found : poll.backend with
  | none => simp [backendPart]
  | some msg =>
      obtain ⟨identity, content, rfl, -⟩ := sent msg found
      cases content with
      | nil =>
          refine iff_of_true ?_ (by simp)
          simp [backendPart, backendBranch, backendMessage, zmsgUnwrap, zmsgPop, zmsgSize]
      | cons frame frames =>
          rw [backendPart, paranoid_survives_iff, not_iff_comm]
          simp

theorem Listed.start (clock : Nat → Nat) : Listed clock (clock 0) [] (Queue.start clock) where
  items := rfl
  cutoff_le := le_rfl
  timed := List.Pairwise.nil
  times_le := by simp
  nulFree := by simp
  read := Nat.one_pos

/-- Keys of live leases are NUL-free when those of the history are. -/
theorem Listed.nulFree_live (listed : Listed clock cutoff events q) {p : Frame × Nat}
    (mem : p ∈ live workerLease cutoff events) : NulFree p.1 :=
  listed.nulFree _ (List.mem_of_find?_eq_some (Lease.mem_live.mp mem).1)

/-- Removing the first record with an id string is removing the lease of the
identity: identities are their own strings and each is listed once. -/
theorem eraseP_records {leases : List (Frame × Nat)} (nodup : (leases.map Prod.fst).Nodup)
    (nulFree : ∀ p ∈ leases, NulFree p.1) {identity : Frame} (own : NulFree identity) :
    (leases.map record).eraseP (·.idString = zframeStrdup identity) =
      (leases.filter (·.1 ≠ identity)).map record := by
  have strings : ∀ p ∈ leases, (record p).idString = p.1 := fun p mem =>
    zframeStrdup_of_nulFree (nulFree p mem)
  have keys : (leases.map record).map Worker.idString = leases.map Prod.fst := by
    rw [List.map_map]
    exact List.map_congr_left strings
  have once : ((leases.map record).map Worker.idString).Nodup := keys ▸ nodup
  rw [Lease.eraseP_eq_filter once, List.filter_map, zframeStrdup_of_nulFree own]
  refine congrArg (List.map record) (List.filter_congr fun p mem => ?_)
  simp only [Function.comp_apply, strings p mem]

/-- A backend message moves its sender to the end of the list with a new lease. -/
theorem Listed.after_backendMessage (mono : Monotone clock) (listed : Listed clock cutoff events q)
    {identity : Frame} {content : Msg} (own : NulFree identity)
    (done : backendMessage clock q (identity :: content) = some (q', out)) :
    Listed clock cutoff (.heard identity (clock q.tick) :: events) q' ∧ 0 < q'.workers.size := by
  have next : clock (q.tick - 1) ≤ clock q.tick := mono (Nat.sub_le _ _)
  have fresh : cutoff < clock q.tick + workerLease := by
    have := listed.cutoff_le.trans next
    exact this.trans_lt (lt_add_workerLease _)
  obtain ⟨frames, unwrapped⟩ := zmsgUnwrap_cons identity content
  simp only [backendMessage, unwrapped, Option.some.injEq, Prod.mk.injEq] at done
  obtain ⟨rfl, -⟩ := done
  constructor
  · refine ⟨?_, ?_, ?_, ?_, ?_, Nat.succ_pos _⟩
    · simp only [sWorkerReady_eq, listed.items, Lease.live_heard fresh, List.map_append]
      have erased := eraseP_records (Lease.live_keys_nodup workerLease cutoff events)
        (fun p mem => listed.nulFree_live mem) own
      exact congrArg (· ++ [record (identity, clock q.tick)]) erased
    · exact listed.cutoff_le.trans next
    · have : ∀ t ∈ times events, t ≤ clock q.tick := fun t mem =>
        (listed.times_le t mem).trans next
      exact List.pairwise_cons.mpr ⟨this, listed.timed⟩
    · intro t mem
      rcases List.mem_cons.mp mem with rfl | mem
      · exact le_rfl
      · exact (listed.times_le t mem).trans next
    · intro e mem
      rcases List.mem_cons.mp mem with rfl | mem
      · exact own
      · exact listed.nulFree e mem
  · simp [sWorkerReady_eq]

/-- The worker that is given a request is the one whose lease heads the live ones. -/
theorem Listed.after_request (listed : Listed clock cutoff events q) {key : Frame} {time : Nat}
    {leases : List (Frame × Nat)} (head : live workerLease cutoff events = (key, time) :: leases)
    {rest : List Worker} (items : q.workers.items = record (key, time) :: rest) :
    Listed clock cutoff (.taken key :: events) { q with workers := ⟨rest, none⟩ } := by
  obtain rfl : rest = leases.map record := by simpa [head, items] using listed.items
  refine ⟨?_, listed.cutoff_le, listed.timed, listed.times_le, ?_, listed.read⟩
  · exact congrArg (List.map record) (Lease.live_taken_head head).symm
  · intro e mem
    rcases List.mem_cons.mp mem with rfl | mem
    · have listedHead : (key, time) ∈ live workerLease cutoff events := by
        rw [head]
        exact List.mem_cons_self
      exact listed.nulFree_live listedHead
    · exact listed.nulFree e mem

/-- Reading the clock more often changes nothing. -/
theorem Listed.later (mono : Monotone clock) (listed : Listed clock cutoff events q)
    (items : q'.workers.items = q.workers.items) (tick : q.tick ≤ q'.tick) :
    Listed clock cutoff events q' := by
  have reading : q.lastReading clock ≤ q'.lastReading clock :=
    mono (Nat.sub_le_sub_right tick 1)
  refine ⟨?_, listed.cutoff_le.trans reading, listed.timed, ?_, listed.nulFree,
    listed.read.trans_le tick⟩
  · rw [items, listed.items]
  · exact fun t mem => (listed.times_le t mem).trans reading

theorem Listed.after_heartbeatRound (mono : Monotone clock)
    (listed : Listed clock cutoff events q) :
    Listed clock cutoff events (heartbeatRound clock q).1 :=
  listed.later mono (items_heartbeatRound clock q) (tick_heartbeatRound clock q).le

/-- The purge moves the cutoff to its last clock reading. -/
theorem Listed.after_purgeWorkers (mono : Monotone clock) (listed : Listed clock cutoff events q) :
    Listed clock ((purgeWorkers clock q).lastReading clock) events (purgeWorkers clock q) := by
  have sorted : q.workers.items.Pairwise fun a b => a.expiry ≤ b.expiry := by
    rw [listed.items, List.pairwise_map]
    exact (Lease.live_sorted _ _ listed.timed).imp fun le => Nat.add_le_add_right le _
  have tick_eq : (purgeWorkers clock q).tick =
      (Lease.purge clock Worker.expiry q.tick q.workers.items).2 :=
    tick_sWorkersPurge clock q.workers q.tick
  have tick_le : q.tick ≤ (purgeWorkers clock q).tick :=
    tick_eq ▸ Lease.le_purge_tick clock Worker.expiry q.tick q.workers.items
  have reading : q.lastReading clock ≤ (purgeWorkers clock q).lastReading clock :=
    mono (Nat.sub_le_sub_right tick_le 1)
  refine ⟨?_, le_rfl, listed.timed, ?_, listed.nulFree, listed.read.trans_le tick_le⟩
  · calc (purgeWorkers clock q).workers.items
        = (Lease.purge clock Worker.expiry q.tick q.workers.items).1 :=
          items_sWorkersPurge clock q.workers q.tick
      _ = q.workers.items.filter
            fun w => (purgeWorkers clock q).lastReading clock < w.expiry := by
          rw [Lease.purge_eq_filter mono sorted, Queue.lastReading, tick_eq]
      _ = ((live workerLease cutoff events).filter
            fun p => (purgeWorkers clock q).lastReading clock < p.2 + workerLease).map record := by
          rw [listed.items, List.filter_map]
          rfl
      _ = (live workerLease ((purgeWorkers clock q).lastReading clock) events).map record := by
          rw [Lease.live_later (listed.cutoff_le.trans reading)]
  · exact fun t mem => (listed.times_le t mem).trans reading

/-- The backend part of an iteration, with a message or without. -/
theorem Listed.after_backendPart (mono : Monotone clock) (listed : Listed clock cutoff events q)
    (sent : poll.FromWorkers) (done : backendPart clock q poll.backend = some (q', out)) :
    Listed clock cutoff (heardIn clock q poll ++ events) q' ∧
      (0 < q.workers.size → 0 < q'.workers.size) := by
  unfold heardIn
  cases found : poll.backend with
  | none =>
      rw [found] at done
      obtain ⟨rfl, -⟩ := Prod.mk.inj (Option.some.inj done)
      exact ⟨listed, id⟩
  | some msg =>
      obtain ⟨identity, content, rfl, own⟩ := sent msg found
      rw [found] at done
      obtain ⟨listed', nonempty⟩ :=
        listed.after_backendMessage mono own (backendMessage_of_branch done)
      exact ⟨listed', fun _ => nonempty⟩

/-- A listed worker is there to take a request: its lease heads the live ones. -/
theorem Listed.head (listed : Listed clock cutoff events q) (nonempty : 0 < q.workers.size) :
    ∃ key time rest, live workerLease cutoff events = (key, time) :: rest := by
  cases leases : live workerLease cutoff events with
  | nil => simp [ZList.size, listed.items, leases] at nonempty
  | cons p rest => exact ⟨p.1, p.2, rest, rfl⟩

/-- A request is read only when the list has a worker at the top of the turn. -/
theorem request_polled {request : Msg} (polled : poll.request q = some request) :
    0 < q.workers.size ∧ poll.frontend = some request := by
  obtain ⟨nonempty, found⟩ := Option.ite_none_left_eq_some.mp polled
  exact ⟨Nat.pos_of_ne_zero nonempty, found⟩

/-- A turn sends the request that it reads to the head of the list, as it is after the
backend part: the worker least recently heard of. -/
theorem Listed.dispatches (mono : Monotone clock) (listed : Listed clock cutoff events q)
    (sent : poll.FromWorkers) {q₁ : Queue} {replies : List Output}
    (heard : backendPart clock q poll.backend = some (q₁, replies)) {request : Msg}
    (polled : poll.request q = some request) :
    ∃ head rest q₂, q₁.workers.items = head :: rest ∧ (∀ w ∈ rest, head.expiry ≤ w.expiry) ∧
      frontendPart q₁ (poll.request q) = some (q₂, [.backend (head.identity :: request)]) ∧
      Listed clock cutoff (.taken head.identity :: (heardIn clock q poll ++ events)) q₂ := by
  obtain ⟨listed₁, kept⟩ := listed.after_backendPart mono sent heard
  obtain ⟨key, time, rest, head⟩ := listed₁.head (kept (request_polled polled).1)
  have items : q₁.workers.items = record (key, time) :: rest.map record := by
    rw [listed₁.items, head, List.map_cons]
  have sorted := Lease.live_sorted workerLease cutoff listed₁.timed
  rw [head, List.pairwise_cons] at sorted
  refine ⟨_, _, _, items, fun w mem => ?_, polled ▸ frontendPart_head items request,
    listed₁.after_request head items⟩
  obtain ⟨p, later, rfl⟩ := List.mem_map.mp mem
  exact Nat.add_le_add_right (sorted.1 p later) _

/-- The worker that a turn sends a request to is the one in its first message on the
backend. -/
theorem dispatchedTo_replies {replies : List Output}
    (passed : ∀ o ∈ replies, ∃ reply, o = .frontend reply)
    (worker : Frame) (request : Msg) (rest : List Output) :
    dispatchedTo request (replies ++ .backend (worker :: request) :: rest) = some worker := by
  induction replies with
  | nil => simp [dispatchedTo]
  | cons o replies ih =>
      obtain ⟨reply, rfl⟩ := passed o List.mem_cons_self
      exact ih fun o mem => passed o (List.mem_cons_of_mem _ mem)

/-- A whole iteration ends with the list cut at the last clock reading of the purge. -/
theorem Listed.after_iterate (mono : Monotone clock) (listed : Listed clock cutoff events q)
    (sent : poll.FromWorkers) (done : iterate clock q poll = some (q', out)) :
    Listed clock (q'.lastReading clock) (takenIn clock q poll ++ heardIn clock q poll ++ events)
      q' := by
  obtain ⟨q₁, replies, q₂, requests, heard, routed, rfl, rfl⟩ := iterate_parts done
  have routes :
      Listed clock cutoff (takenIn clock q poll ++ heardIn clock q poll ++ events) q₂ := by
    unfold takenIn
    cases polled : poll.request q with
    | none =>
        rw [polled] at routed
        obtain ⟨rfl, -⟩ := Prod.mk.inj (Option.some.inj routed)
        exact (listed.after_backendPart mono sent heard).1
    | some request =>
        obtain ⟨head, rest, q₂', -, -, dispatched, listed₂⟩ :=
          listed.dispatches mono sent heard polled
        obtain ⟨rfl, rfl⟩ := Prod.mk.inj (Option.some.inj (routed.symm.trans dispatched))
        rw [done]
        simp only [List.append_assoc, List.cons_append, List.nil_append,
          dispatchedTo_replies (backendPart_replies heard)]
        exact listed₂
  exact (routes.after_heartbeatRound mono).after_purgeWorkers mono

end Parts

/-! ### Every turn of the main loop -/

/-- The main loop as a system: one label per turn, what the poll finds. -/
def mainLoop (clock : Nat → Nat) : System Queue Poll where
  start := .start clock
  step q poll := (iterate clock q poll).map Prod.fst

/-- At the end of every turn of a run, the list is cut at the last reading. -/
theorem listed_of_run {clock : Nat → Nat} (mono : Monotone clock)
    {past : List (Queue × Poll)} {q : Queue} (run : Run (mainLoop clock) past q)
    (sent : EachStep (fun _ poll => poll.FromWorkers) past) :
    Listed clock (q.lastReading clock) (history clock past) q := by
  induction run with
  | start => exact Listed.start clock
  | next run taken ih =>
      obtain ⟨fromWorkers, before⟩ := eachStep_cons.mp sent
      obtain ⟨⟨_, out⟩, done, rfl⟩ := Option.map_eq_some_iff.mp taken
      exact (ih before).after_iterate mono fromWorkers done

/-- **The worker list is its specification.** After every turn of the main loop,
with a clock that does not go back and NUL-free identities:

* the listed identities are exactly those whose last message, of all that the polls of the
  run have found, came after the last request that a turn has sent them, and whose lease
  runs past the last reading of the purge, each with the expiry that reading of its last
  message gives;
* each is listed once, in the order of those messages;
* the backend part of the next turn is through with every message but two empty frames, and
  then the turn does not fail, so `s_workers_next` never meets an empty list: it sends
  a request that it reads, and nothing else but heartbeats, to the head of the list as it
  then is, the worker least recently heard of. -/
theorem worker_list_spec {clock : Nat → Nat} (mono : Monotone clock)
    {past : List (Queue × Poll)} {q : Queue} (run : Run (mainLoop clock) past q)
    (sent : EachStep (fun _ poll => poll.FromWorkers) past) :
    (∀ identity expiry, (∃ w ∈ q.workers.items, w.identity = identity ∧ w.expiry = expiry) ↔
        ∃ time, newest (history clock past) identity = some (.heard identity time) ∧
          expiry = time + workerLease ∧ q.lastReading clock < time + workerLease) ∧
      (q.workers.items.map Worker.identity).Nodup ∧
      q.workers.items.Pairwise (fun a b => a.expiry ≤ b.expiry) ∧
      ∀ poll : Poll, poll.FromWorkers →
        ((backendPart clock q poll.backend).isSome ↔
          ∀ identity, poll.backend ≠ some [identity, [], []]) ∧
        ∀ q₁ replies, backendPart clock q poll.backend = some (q₁, replies) →
          (poll.request q = none → Sends clock q poll replies []) ∧
          ∀ request, poll.request q = some request →
            ∃ head rest, q₁.workers.items = head :: rest ∧ (∀ w ∈ rest, head.expiry ≤ w.expiry) ∧
              Sends clock q poll replies [.backend (head.identity :: request)] := by
  have listed := listed_of_run mono run sent
  refine ⟨?_, ?_, ?_, ?_⟩
  · intro identity expiry
    constructor
    · rintro ⟨w, mem, rfl, rfl⟩
      rw [listed.items] at mem
      obtain ⟨p, leased, rfl⟩ := List.mem_map.mp mem
      obtain ⟨heard, alive⟩ := Lease.mem_live.mp leased
      exact ⟨p.2, heard, rfl, alive⟩
    · rintro ⟨time, heard, rfl, alive⟩
      refine ⟨record (identity, time), ?_, rfl, rfl⟩
      rw [listed.items]
      exact List.mem_map_of_mem (Lease.mem_live.mpr ⟨heard, alive⟩)
  · rw [listed.items, List.map_map]
    exact Lease.live_keys_nodup _ _ _
  · rw [listed.items, List.pairwise_map]
    exact (Lease.live_sorted _ _ listed.timed).imp fun le => Nat.add_le_add_right le _
  · intro poll fromWorkers
    refine ⟨backendPart_defined fromWorkers, fun q₁ replies heard => ⟨fun none => ?_, ?_⟩⟩
    · exact sends_of_parts heard (by rw [none, frontendPart])
    · intro request polled
      obtain ⟨head, rest, q₂, items, least, routed, -⟩ :=
        listed.dispatches mono fromWorkers heard polled
      exact ⟨head, rest, items, least, sends_of_parts heard routed⟩

/-- Two workers announce themselves, and a client sends a request. -/
def twoReady : List Poll :=
  [⟨some [[0x41], pppReady], none⟩, ⟨some [[0x42], pppReady], none⟩,
    ⟨none, some [[0x43], [], [0x71]]⟩]

/-- The first worker has the request, the second is listed with its lease, and the next
request will go to it. -/
theorem worker_list_after_request :
    ∃ (past : List (Queue × Poll)) (q : Queue), Run (mainLoop id) past q ∧
      history id past = [.taken [0x41], .heard [0x42] 4, .heard [0x41] 1] ∧
      (∃ w ∈ q.workers.items, w.identity = [0x42] ∧ w.expiry = 4 + workerLease) ∧
      (∀ w ∈ q.workers.items, w.identity ≠ [0x41]) ∧
      Sends id q ⟨none, some [[0x43], [], [0x72]]⟩ []
        [.backend [[0x42], [0x43], [], [0x72]]] := by
  have ran : ((mainLoop id).record [] (mainLoop id).start twoReady).map
      (fun out => (out.1.map Prod.snd, history id out.1, out.2.workers.items, out.2.tick)) =
        some (twoReady.reverse, [.taken [0x41], .heard [0x42] 4, .heard [0x41] 1],
          [⟨[0x42], [0x42], 3004⟩], 9) := by decide
  obtain ⟨⟨past, q⟩, done, seen⟩ := Option.map_eq_some_iff.mp ran
  obtain ⟨polls, seen⟩ := Prod.mk.inj seen
  obtain ⟨events, seen⟩ := Prod.mk.inj seen
  obtain ⟨items, tick⟩ := Prod.mk.inj seen
  have run := Run.start.record done
  have sent : EachStep (fun _ poll => poll.FromWorkers) past := by
    have all : ∀ poll ∈ twoReady.reverse, poll.FromWorkers := by
      have a : FromWorker [[0x41], pppReady] := ⟨_, _, rfl, by decide⟩
      have b : FromWorker [[0x42], pppReady] := ⟨_, _, rfl, by decide⟩
      simp [twoReady, Poll.FromWorkers, a, b]
    exact fun turn mem => all turn.2 (polls ▸ List.mem_map_of_mem mem)
  obtain ⟨listed, -, -, next⟩ := worker_list_spec monotone_id run sent
  refine ⟨past, q, run, events, (listed _ _).mpr ⟨4, ?_, rfl, ?_⟩, fun w mem same => ?_, ?_⟩
  · rw [events]
    decide
  · rw [Queue.lastReading, tick]
    decide
  · obtain ⟨time, heard, -⟩ := (listed _ _).mp ⟨w, mem, same, rfl⟩
    rw [events] at heard
    cases heard
  · obtain ⟨-, turn⟩ := next ⟨none, some [[0x43], [], [0x72]]⟩ nofun
    have polled : Poll.request ⟨none, some [[0x43], [], [0x72]]⟩ q =
        some [[0x43], [], [0x72]] := by
      rw [Poll.request, ZList.size, items]
      rfl
    obtain ⟨head, rest, same, -, sends⟩ := (turn q [] rfl).2 _ polled
    obtain ⟨rfl, -⟩ := List.cons.inj (items.symm.trans same)
    exact sends

end ZmqPractices.Pirate
