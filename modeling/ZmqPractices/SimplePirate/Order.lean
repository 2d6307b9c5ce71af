import ZmqPractices.SimplePirate.Queue

/-!
Which worker a request goes to.

The header of `spqueue.cpp` calls the queue the load-balancing pattern, whose workers
take turns: the request goes to the one that has been waiting longest. Here it goes to
the front of the list, where the worker stands that was listed last. That is the right
one only as long as there is no choice: whenever a request is read, one worker alone has
entries in the list (`longest_waiting_iff`).
-/

namespace ZmqPractices.SimplePirate

open Czmq Lib

variable {q q' : Queue} {event : Event} {past : List (Queue × Event)}

/-- How many messages have come since the last one of this worker. -/
def Queue.since (q : Queue) (worker : Frame) : Nat := q.heard.idxOf worker

/-- The worker a request is routed to has been waiting longest: no available worker was
heard from earlier. -/
def LongestWaiting (q : Queue) : Event → Prop
  | .frontend msg => ∀ q' worker rest,
      turn q (.frontend msg) = some (q', some (.backend (worker :: rest))) →
        ∀ other ∈ q.availableWorkers.items, q.since other ≤ q.since worker
  | .backend _ => True

/-- All entries of the list are of one worker. -/
def OnlyOne (listed : List Frame) : Prop := ∃ worker, ∀ entry ∈ listed, entry = worker

/-- When a request is read, one worker alone is listed, once or more often. -/
def OneWorker (q : Queue) : Event → Prop
  | .frontend _ => OnlyOne q.availableWorkers.items
  | .backend _ => True

/-- A worker sends a message only while it is not listed, as a REQ socket does. -/
def SpeaksInTurn (q : Queue) : Event → Prop
  | .backend msg => ∀ identity, (zmsgUnwrap msg).1 = some identity →
      identity ∉ q.availableWorkers.items
  | .frontend _ => True

/-- When a request is read, the list has one entry. -/
def OneListed (q : Queue) : Event → Prop
  | .frontend _ => q.availableWorkers.size = 1
  | .backend _ => True

/-! ### Who is picked -/

/-- A request goes to the worker in front. -/
theorem longestWaiting_frontend {msg : Msg} {worker : Frame} {workers : List Frame}
    (listed : q.availableWorkers.items = worker :: workers) :
    LongestWaiting q (.frontend msg) ↔ ∀ other ∈ workers, q.since other ≤ q.since worker := by
  have done : turn q (.frontend msg) = some ({ q with availableWorkers := ⟨workers, none⟩ },
      some (.backend (worker :: [] :: msg))) := by
    simp [turn, frontendRequest, ZList.pop, ZList.size, listed, zmsgWrap, zmsgPush]
  constructor
  · intro longest other mem
    exact longest _ _ _ done other (listed ▸ List.mem_cons_of_mem _ mem)
  · intro longest q' picked rest done' other mem
    obtain ⟨-, rfl, -⟩ : _ ∧ worker = picked ∧ _ := by simpa [done] using done'
    rcases List.mem_cons.mp (listed ▸ mem) with rfl | mem
    · exact le_rfl
    · exact longest other mem

/-- Where there is one worker, it has been waiting longest. -/
theorem OneWorker.longestWaiting (one : OneWorker q event)
    (taken : spqueue.step q event = some q') : LongestWaiting q event := by
  obtain ⟨out, done⟩ := spqueue_step taken
  cases turn_moved done with
  | heard => trivial
  | taken worker workers msg listed =>
      rw [longestWaiting_frontend listed]
      obtain ⟨only, same⟩ : OnlyOne q.availableWorkers.items := one
      intro other mem
      have front := same worker (listed ▸ List.mem_cons_self)
      have behind := same other (listed ▸ List.mem_cons_of_mem _ mem)
      rw [front, behind]

/-! ### While every pick is right -/

/-- The list is the senders of the messages since the last request, newest first, before
what that request has left: entries of one worker. -/
def Settled (q : Queue) : Prop :=
  ∃ recent left, q.availableWorkers.items = recent ++ left ∧ recent <+: q.heard ∧ OnlyOne left

/-- The last sender has waited shortest, so a pick of it is right only if it is alone; and
without a message since the last request the list is what that has left. -/
theorem Settled.onlyOne {msg : Msg} {worker : Frame} {workers : List Frame}
    (settled : Settled q) (listed : q.availableWorkers.items = worker :: workers)
    (longest : LongestWaiting q (.frontend msg)) : OnlyOne (worker :: workers) := by
  obtain ⟨recent, left, items, sent, one⟩ := settled
  rw [listed] at items
  cases recent with
  | nil => exact items ▸ one
  | cons last recent =>
      obtain ⟨rfl, -⟩ := List.cons.inj items
      obtain ⟨earlier, heard⟩ := sent
      have now : q.since worker = 0 := by
        rw [Queue.since, ← heard, List.cons_append, List.idxOf_cons_self]
      refine ⟨worker, fun other mem => ?_⟩
      rcases List.mem_cons.mp mem with rfl | mem
      · rfl
      · have waits := (longestWaiting_frontend listed).mp longest other mem
        rw [now, Nat.le_zero, Queue.since, ← heard, List.cons_append] at waits
        exact ((List.idxOf_eq_zero_iff_head_eq (List.cons_ne_nil _ _)).mp waits).symm

theorem Settled.step (settled : Settled q) (longest : LongestWaiting q event)
    (taken : spqueue.step q event = some q') : Settled q' := by
  obtain ⟨out, done⟩ := spqueue_step taken
  cases turn_moved done with
  | heard identity msg content out unwrapped =>
      obtain ⟨recent, left, items, sent, one⟩ := settled
      refine ⟨identity :: recent, left, ?_, ?_, one⟩
      · exact congrArg (identity :: ·) items
      · exact List.cons_prefix_cons.mpr ⟨rfl, sent⟩
  | taken worker workers msg listed =>
      obtain ⟨only, same⟩ := settled.onlyOne listed longest
      exact ⟨[], workers, rfl, List.nil_prefix, only,
        fun entry mem => same entry (List.mem_cons_of_mem _ mem)⟩

theorem settled_start : Settled spqueue.start :=
  ⟨[], [], rfl, List.nil_prefix, [], fun _ mem => absurd mem List.not_mem_nil⟩

/-- At a right pick of a settled queue one worker is listed. -/
theorem Settled.oneWorker (settled : Settled q) (longest : LongestWaiting q event)
    (taken : spqueue.step q event = some q') : OneWorker q event := by
  obtain ⟨out, done⟩ := spqueue_step taken
  cases turn_moved done with
  | heard => trivial
  | taken worker workers msg listed =>
      exact (congrArg OnlyOne listed).mpr (settled.onlyOne listed longest)

/-! ### Workers that speak in turn -/

/-- A worker that speaks in turn is listed once. -/
theorem nodup_of_run (run : Run spqueue past q) (turns : EachStep SpeaksInTurn past) :
    Always (fun q => q.availableWorkers.items.Nodup) past q := by
  refine run.guarded_invariant _ SpeaksInTurn List.nodup_nil
    (fun q event q' nodup turns taken => ?_) turns
  obtain ⟨out, done⟩ := spqueue_step taken
  cases turn_moved done with
  | heard identity msg content out unwrapped =>
      exact List.nodup_cons.mpr ⟨turns identity (congrArg Prod.fst unwrapped), nodup⟩
  | taken worker workers msg listed =>
      rw [listed] at nodup
      exact (List.nodup_cons.mp nodup).2

theorem oneWorker_iff_oneListed (nodup : q.availableWorkers.items.Nodup)
    (taken : spqueue.step q event = some q') : OneWorker q event ↔ OneListed q event := by
  obtain ⟨out, done⟩ := spqueue_step taken
  cases turn_moved done with
  | heard => exact Iff.rfl
  | taken worker workers msg listed =>
      simp only [OneWorker, OneListed, ZList.size, listed] at nodup ⊢
      constructor
      · rintro ⟨only, same⟩
        cases workers with
        | nil => rfl
        | cons other workers =>
            have front := same worker List.mem_cons_self
            have behind := same other (List.mem_cons_of_mem _ List.mem_cons_self)
            exact absurd (behind ▸ front ▸ List.mem_cons_self) (List.nodup_cons.mp nodup).1
      · intro single
        obtain rfl := List.length_eq_zero_iff.mp (Nat.succ.inj single)
        exact ⟨worker, fun entry mem => List.mem_singleton.mp mem⟩

/-- **Least recently used, where there is no choice.** In a run of the queue every request
goes to the available worker that has been waiting longest if and only if, at each
request, all entries of the list are one worker's. With workers that speak in turn that
is: if and only if, at each request, the list has one entry. -/
theorem longest_waiting_iff (run : Run spqueue past q) :
    (EachStep LongestWaiting past ↔ EachStep OneWorker past) ∧
    (EachStep SpeaksInTurn past → (EachStep LongestWaiting past ↔ EachStep OneListed past)) := by
  have one : EachStep LongestWaiting past ↔ EachStep OneWorker past := by
    constructor
    · intro longest p mem
      have settled := run.guarded_invariant Settled LongestWaiting settled_start
        (fun q event q' settled longest taken => settled.step longest taken) longest
      obtain ⟨after, taken⟩ := run.defined mem
      exact (settled.2 p mem).oneWorker (longest p mem) taken
    · intro one p mem
      obtain ⟨after, taken⟩ := run.defined mem
      exact OneWorker.longestWaiting (one p mem) taken
  refine ⟨one, fun turns => one.trans ?_⟩
  have nodup := nodup_of_run run turns
  refine forall₂_congr fun p mem => ?_
  obtain ⟨after, taken⟩ := run.defined mem
  exact oneWorker_iff_oneListed (nodup.2 p mem) taken

/-- READY from a worker. -/
def ready (worker : Frame) : Event := .backend [worker, [], workerReady]

/-- Two workers in turn, each with the request it is given: the newest event first. -/
def twoInTurn : List (Queue × Event) :=
  [(⟨⟨[[0x42]], none⟩, [[0x42], [0x41]]⟩, .frontend [[0x43], [], [0x72]]),
    (⟨⟨[], none⟩, [[0x41]]⟩, ready [0x42]),
    (⟨⟨[[0x41]], none⟩, [[0x41]]⟩, .frontend [[0x43], [], [0x71]]),
    (.start, ready [0x41])]

/-- Both requests go to the right worker. -/
theorem longest_waiting_iff_two : ∃ q, Run spqueue twoInTurn q ∧ EachStep SpeaksInTurn twoInTurn ∧
    twoInTurn.filterMap (fun p => (turn p.1 p.2).bind Prod.snd) =
      [.backend [[0x42], [], [0x43], [], [0x72]], .backend [[0x41], [], [0x43], [], [0x71]]] ∧
    EachStep OneWorker twoInTurn ∧ EachStep LongestWaiting twoInTurn := by
  have run : Run spqueue twoInTurn ⟨⟨[], none⟩, [[0x42], [0x41]]⟩ :=
    .next (.next (.next (.next .start rfl) rfl) rfl) rfl
  have inTurn : EachStep SpeaksInTurn twoInTurn := by
    refine eachStep_cons.mpr ⟨trivial, eachStep_cons.mpr ⟨?_, eachStep_cons.mpr ⟨trivial,
      eachStep_cons.mpr ⟨?_, eachStep_nil⟩⟩⟩⟩
    · rintro identity ⟨⟩
      decide
    · rintro identity ⟨⟩
      decide
  have one : EachStep OneListed twoInTurn :=
    eachStep_cons.mpr ⟨rfl, eachStep_cons.mpr ⟨trivial, eachStep_cons.mpr ⟨rfl,
      eachStep_cons.mpr ⟨trivial, eachStep_nil⟩⟩⟩⟩
  obtain ⟨worker, listed⟩ := longest_waiting_iff run
  have longest := (listed inTurn).mpr one
  exact ⟨_, run, inTurn, rfl, worker.mp longest, longest⟩

/-- A says that it is ready, then B; the request goes to B. -/
theorem newest_picked : ∃ (past : List (Queue × Event)) (q : Queue),
    Run spqueue past q ∧ EachStep SpeaksInTurn past ∧ ¬ EachStep LongestWaiting past := by
  have run : Run spqueue
      [(⟨⟨[[0x42], [0x41]], none⟩, [[0x42], [0x41]]⟩, .frontend [[0x43], [], [0x71]]),
        (⟨⟨[[0x41]], none⟩, [[0x41]]⟩, ready [0x42]), (.start, ready [0x41])]
      ⟨⟨[[0x41]], none⟩, [[0x42], [0x41]]⟩ := .next (.next (.next .start rfl) rfl) rfl
  refine ⟨_, _, run, ?_, fun longest => ?_⟩
  · refine eachStep_cons.mpr ⟨trivial, eachStep_cons.mpr ⟨?_, eachStep_cons.mpr ⟨?_, eachStep_nil⟩⟩⟩
    · rintro identity ⟨⟩
      decide
    · rintro identity ⟨⟩
      decide
  · have picked := (eachStep_cons.mp longest).1
    rw [longestWaiting_frontend rfl] at picked
    exact absurd (picked [0x41] List.mem_cons_self) (by decide)

end ZmqPractices.SimplePirate
