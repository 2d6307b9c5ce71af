import ZmqPractices.Czmq.Message
import ZmqPractices.Czmq.List
import ZmqPractices.Lib.Lease

/-!
The Paranoid Pirate queue (`ppqueue.c`): a load-balancing broker that keeps the
workers it has heard from on leases of `heartbeatLiveness * heartbeatInterval`
milliseconds.

The main loop polls its two ROUTER sockets, handles at most one message of each,
sends heartbeats when they are due and purges the workers whose lease has run
out. Each part is a function of its own, so that other parties can act between
them; `iterate` is one whole turn of the loop. `none` is a call the C code
cannot survive: reading through a NULL pointer or a failed assertion.

`zclock_time ()` is a sequence of readings, and `tick` counts the ones taken.
-/

namespace ZmqPractices.Pirate

open Czmq

def heartbeatLiveness : Nat := 3
def heartbeatInterval : Nat := 1000

/-- How long a worker stays in the list after its last message. -/
def workerLease : Nat := heartbeatLiveness * heartbeatInterval

theorem lt_add_workerLease (now : Nat) : now < now + workerLease :=
  Nat.lt_add_of_pos_right (by decide)

/-- `PPP_READY`: signals worker is ready. -/
def pppReady : Frame := [1]

/-- `PPP_HEARTBEAT`: signals worker heartbeat. -/
def pppHeartbeat : Frame := [2]

/-- `worker_t`: the queue's record of a worker. -/
structure Worker where
  identity : Frame
  idString : Frame
  expiry : Nat
deriving DecidableEq, Repr

def sWorkerNew (now : Nat) (identity : Frame) : Worker where
  identity := identity
  idString := zframeStrdup identity
  expiry := now + workerLease

/-- The loop of `s_worker_ready`: walk to the first worker with the same id
string and remove it. -/
def readyLoop (self : Worker) : Nat → Option Worker → ZList Worker → ZList Worker
  | 0, _, workers => workers
  | _ + 1, none, workers => workers
  | fuel + 1, some worker, workers =>
      if streq worker.idString self.idString then workers.remove worker
      else readyLoop self fuel workers.next.1 workers.next.2

/-- Put a worker at the end of the ready list, after removing the one it
replaces. The walk visits each item once, so `size` turns are enough. -/
def sWorkerReady (self : Worker) (workers : ZList Worker) : ZList Worker :=
  (readyLoop self workers.size workers.first.1 workers.first.2).append self

/-- The identity of the next available worker; `zlist_pop` gives NULL on an empty
list, and the C code reads through it. -/
def sWorkersNext (workers : ZList Worker) : Option (Frame × ZList Worker) :=
  match workers.pop with
  | (none, _) => none
  | (some worker, workers) => some (worker.identity, workers)

/-- The loop of `s_workers_purge`, on the list and the number of clock readings. -/
def purgeLoop (clock : Nat → Nat) : Nat → Option Worker → ZList Worker → Nat → ZList Worker × Nat
  | 0, _, workers, tick => (workers, tick)
  | _ + 1, none, workers, tick => (workers, tick)
  | fuel + 1, some worker, workers, tick =>
      if clock tick < worker.expiry then (workers, tick + 1)
      else
        let workers := workers.remove worker
        purgeLoop clock fuel workers.next.1 workers.next.2 (tick + 1)

/-- Remove expired workers from the front and stop at the first alive one. -/
def sWorkersPurge (clock : Nat → Nat) (workers : ZList Worker) (tick : Nat) :
    ZList Worker × Nat :=
  purgeLoop clock (workers.size + 1) workers.first.1 workers.first.2 tick

/-- A message the queue sends, on one of its sockets. -/
inductive Output where
  | backend (msg : Msg)
  | frontend (msg : Msg)
deriving DecidableEq, Repr

/-- The variables of `main`. -/
structure Queue where
  workers : ZList Worker
  heartbeatAt : Nat
  tick : Nat

/-- The state in which `main` enters its loop. -/
def Queue.start (clock : Nat → Nat) : Queue where
  workers := .new
  heartbeatAt := clock 0 + heartbeatInterval
  tick := 1

/-- What a message from a worker does. Any message marks its sender as ready; one without
content frames behind the envelope is a control message and goes no further. -/
def backendMessage (clock : Nat → Nat) (q : Queue) (msg : Msg) : Option (Queue × List Output) :=
  match zmsgUnwrap msg with
  | (none, _) => none
  | (some identity, msg) =>
      let now := clock q.tick
      let q := { q with
        workers := sWorkerReady (sWorkerNew now identity) q.workers
        tick := q.tick + 1 }
      some (q, if zmsgSize msg = 1 then [] else [.frontend msg])

/-- The test of a control message: `memcmp` for READY, then for HEARTBEAT. -/
def controlKnown (content : Msg) : Option Bool := do
  let ready ← memcmpData (zmsgFirst content) pppReady
  if ready then return true
  memcmpData (zmsgFirst content) pppHeartbeat

/-- The backend branch of the loop with the bytes it reads: a message with one frame
behind the envelope is tested, and whatever comes out of the test, which only decides
whether an error is printed, it goes no further. -/
def backendBranch (clock : Nat → Nat) (q : Queue) (msg : Msg) : Option (Queue × List Output) := do
  let out ← backendMessage clock q msg
  if zmsgSize (zmsgUnwrap msg).2 = 1 then (controlKnown (zmsgUnwrap msg).2).map fun _ => out
  else some out

/-- Where the test is defined, the branch is what the message does. -/
theorem backendMessage_of_branch {clock : Nat → Nat} {q : Queue} {msg : Msg}
    {out : Queue × List Output} (survives : backendBranch clock q msg = some out) :
    backendMessage clock q msg = some out := by
  obtain ⟨handled, done, tested⟩ := Option.bind_eq_some_iff.mp survives
  split at tested
  · obtain ⟨_, _, rfl⟩ := Option.map_eq_some_iff.mp tested
    exact done
  · exact done.trans tested

/-- A client request: route it to the next worker. -/
def frontendRequest (q : Queue) (msg : Msg) : Option (Queue × List Output) :=
  (sWorkersNext q.workers).map fun (identity, workers) =>
    ({ q with workers := workers }, [.backend (zmsgPush msg identity)])

/-- The loop over the list that sends each worker a heartbeat. -/
def heartbeatLoop : Nat → Option Worker → ZList Worker → ZList Worker × List Output
  | 0, _, workers => (workers, [])
  | _ + 1, none, workers => (workers, [])
  | fuel + 1, some worker, workers =>
      let out := heartbeatLoop fuel workers.next.1 workers.next.2
      (out.1, .backend [worker.identity, pppHeartbeat] :: out.2)

/-- Send heartbeats to the listed workers if it is time. -/
def heartbeatRound (clock : Nat → Nat) (q : Queue) : Queue × List Output :=
  if q.heartbeatAt ≤ clock q.tick then
    let out := heartbeatLoop q.workers.size q.workers.first.1 q.workers.first.2
    ({ q with
        workers := out.1
        heartbeatAt := clock (q.tick + 1) + heartbeatInterval
        tick := q.tick + 2 }, out.2)
  else ({ q with tick := q.tick + 1 }, [])

/-- The end of an iteration: purge. -/
def purgeWorkers (clock : Nat → Nat) (q : Queue) : Queue :=
  let out := sWorkersPurge clock q.workers q.tick
  { q with workers := out.1, tick := out.2 }

/-- What `zmq_poll` finds on the sockets: the message at the front of each. -/
structure Poll where
  backend : Option Msg
  frontend : Option Msg
deriving DecidableEq, Repr

/-- The backend part of an iteration, when there is a message. -/
def backendPart (clock : Nat → Nat) (q : Queue) : Option Msg → Option (Queue × List Output)
  | none => some (q, [])
  | some msg => backendBranch clock q msg

/-- The frontend part of an iteration, when there is a request. -/
def frontendPart (q : Queue) : Option Msg → Option (Queue × List Output)
  | none => some (q, [])
  | some msg => frontendRequest q msg

/-- The request that a turn reads. The frontend is polled only when the list has a worker
at the top of the turn. -/
def Poll.request (poll : Poll) (q : Queue) : Option Msg :=
  if q.workers.size = 0 then none else poll.frontend

/-- One turn of the main loop. -/
def iterate (clock : Nat → Nat) (q : Queue) (poll : Poll) : Option (Queue × List Output) := do
  let request := poll.request q
  let (q, replies) ← backendPart clock q poll.backend
  let (q, requests) ← frontendPart q request
  let (q, heartbeats) := heartbeatRound clock q
  return (purgeWorkers clock q, replies ++ requests ++ heartbeats)

/-- The parts of a turn that is through. -/
theorem iterate_parts {clock : Nat → Nat} {q q' : Queue} {poll : Poll} {out : List Output}
    (done : iterate clock q poll = some (q', out)) :
    ∃ q₁ replies q₂ requests, backendPart clock q poll.backend = some (q₁, replies) ∧
      frontendPart q₁ (poll.request q) = some (q₂, requests) ∧
      q' = purgeWorkers clock (heartbeatRound clock q₂).1 ∧
      out = replies ++ requests ++ (heartbeatRound clock q₂).2 := by
  simp only [iterate, Option.bind_eq_bind, Option.bind_eq_some_iff] at done
  obtain ⟨⟨q₁, replies⟩, heard, ⟨q₂, requests⟩, routed, ended⟩ := done
  obtain ⟨rfl, rfl⟩ := Prod.mk.inj (Option.some.inj ended)
  exact ⟨q₁, replies, q₂, requests, heard, routed, rfl, rfl⟩

/-- What a backend part passes on goes out on the frontend. -/
theorem backendPart_replies {clock : Nat → Nat} {q q₁ : Queue} {msg : Option Msg}
    {replies : List Output} (done : backendPart clock q msg = some (q₁, replies)) :
    ∀ o ∈ replies, ∃ reply, o = .frontend reply := by
  intro o mem
  cases msg with
  | none =>
      obtain ⟨-, rfl⟩ := Prod.mk.inj (Option.some.inj done)
      cases mem
  | some msg =>
      have done := backendMessage_of_branch done
      unfold backendMessage at done
      split at done
      · cases done
      · obtain ⟨-, rfl⟩ := Prod.mk.inj (Option.some.inj done)
        split at mem
        · cases mem
        · exact ⟨_, List.mem_singleton.mp mem⟩

/-- A request goes to the worker at the head of the list. -/
theorem frontendPart_head {q : Queue} {worker : Worker} {rest : List Worker}
    (items : q.workers.items = worker :: rest) (request : Msg) :
    frontendPart q (some request) =
      some ({ q with workers := ⟨rest, none⟩ }, [.backend (worker.identity :: request)]) := by
  simp [frontendPart, frontendRequest, sWorkersNext, ZList.pop, items, zmsgPush]

/-! ### What the backend branch reads -/

/-- A test of one byte is defined exactly on a frame that has one. -/
theorem isSome_memcmpData {content : Msg} {byte : UInt8} :
    (memcmpData (zmsgFirst content) [byte]).isSome ↔
      ∃ first rest, content = first :: rest ∧ first ≠ [] := by
  match content with
  | [] => simp [zmsgFirst, memcmpData]
  | [] :: rest => simp [zmsgFirst, memcmpData]
  | (first :: bytes) :: rest => simp [zmsgFirst, memcmpData]

theorem isSome_controlKnown {content : Msg} :
    (controlKnown content).isSome ↔ ∃ first rest, content = first :: rest ∧ first ≠ [] := by
  constructor
  · intro known
    obtain ⟨_, known⟩ := Option.isSome_iff_exists.mp known
    obtain ⟨_, compared, _⟩ := Option.bind_eq_some_iff.mp known
    exact isSome_memcmpData.mp (Option.isSome_iff_exists.mpr ⟨_, compared⟩)
  · intro first
    obtain ⟨ready, compared⟩ := Option.isSome_iff_exists.mp (isSome_memcmpData.mpr first)
    rw [controlKnown, pppReady, compared]
    cases ready with
    | true => rfl
    | false => exact isSome_memcmpData.mpr first

/-- What is left of a message behind its envelope. -/
theorem zmsgUnwrap_content (identity frame : Frame) (frames : Msg) :
    zmsgUnwrap (identity :: frame :: frames) =
      (some identity, if frame = [] then frames else frame :: frames) := by
  cases frame <;> rfl

/-- The backend branch of `ppqueue.c` survives every message but two empty frames. -/
theorem paranoid_survives_iff (clock : Nat → Nat) (q : Queue) (identity frame : Frame)
    (frames : Msg) :
    (backendBranch clock q (identity :: frame :: frames)).isSome ↔
      ¬ (frame = [] ∧ frames = [[]]) := by
  obtain ⟨out, handled⟩ :
      ∃ out, backendMessage clock q (identity :: frame :: frames) = some out := by
    simp [backendMessage, zmsgUnwrap_content]
  simp only [backendBranch, handled, Option.bind_eq_bind, Option.bind_some, zmsgUnwrap_content]
  by_cases empty : frame = []
  · simp only [empty, if_true, true_and]
    split
    · rename_i one
      obtain ⟨next, rfl⟩ := List.length_eq_one_iff.mp one
      rw [Option.isSome_map, isSome_controlKnown]
      simp
    · rename_i more
      refine iff_of_true rfl ?_
      rintro rfl
      exact more rfl
  · simp only [empty, if_false, false_and, not_false_iff, iff_true]
    split
    · rw [Option.isSome_map, isSome_controlKnown]
      exact ⟨frame, frames, rfl, empty⟩
    · rfl

/-! ### What the loops over the list compute -/

/-- Advancing the cursor over a list split at it. -/
theorem next_mk {α : Type*} (before : List α) (item : α) (rest : List α) :
    (ZList.mk (before ++ item :: rest) (some before.length)).next =
      (rest.head?, .mk (before ++ item :: rest)
        (if rest = [] then none else some (before.length + 1))) := by
  have at_next : (before ++ item :: rest)[before.length + 1]? = rest.head? := by
    rw [List.getElem?_append_right (Nat.le_succ _), Nat.succ_sub (Nat.le_refl _), Nat.sub_self,
      List.getElem?_cons_succ, List.head?_eq_getElem?]
  cases rest with
  | nil => simp only [ZList.next, at_next]; rfl
  | cons next rest => simp only [ZList.next, at_next]; rfl

theorem first_mk {α : Type*} (items : List α) (cursor : Option Nat) :
    (ZList.mk items cursor).first =
      (items.head?, .mk items (if items = [] then none else some 0)) := by
  cases items <;> rfl

/-- The walk removes the first worker with the id string. `before` are the
workers already passed. -/
theorem items_readyLoop (self : Worker) (before rest : List Worker) (fuel : Nat)
    (enough : rest.length ≤ fuel) (passed : ∀ w ∈ before, w.idString ≠ self.idString) :
    (readyLoop self fuel rest.head?
      (.mk (before ++ rest) (if rest = [] then none else some before.length))).items =
      before ++ rest.eraseP (·.idString = self.idString) := by
  induction rest generalizing before fuel with
  | nil => cases fuel <;> simp [readyLoop]
  | cons worker rest ih =>
      obtain ⟨fuel, rfl⟩ : ∃ n, fuel = n + 1 := ⟨fuel - 1, by
        simp only [List.length_cons] at enough; omega⟩
      by_cases same : worker.idString = self.idString
      · have unseen : worker ∉ before := fun mem => passed worker mem same
        simp [readyLoop, same, List.erase_append_right _ unseen]
      · have enough : rest.length ≤ fuel := by simpa using enough
        have ih := ih (before ++ [worker]) fuel enough (by
          intro w mem
          rcases List.mem_append.mp mem with mem | mem
          · exact passed w mem
          · exact List.mem_singleton.mp mem ▸ same)
        simp only [List.head?_cons, readyLoop, streq_iff, same, if_false, reduceCtorEq, next_mk]
        simpa [same] using ih

/-- `s_worker_ready` replaces the worker with the same id string by the new one,
at the end. -/
theorem sWorkerReady_eq (self : Worker) (workers : ZList Worker) :
    sWorkerReady self workers =
      ⟨workers.items.eraseP (·.idString = self.idString) ++ [self], none⟩ := by
  have walk := items_readyLoop self [] workers.items workers.size le_rfl (by simp)
  obtain ⟨items, cursor⟩ := workers
  simp only [sWorkerReady, first_mk, ZList.append]
  simpa using walk

theorem sWorkersNext_cons (worker : Worker) (rest : List Worker) (cursor : Option Nat) :
    sWorkersNext ⟨worker :: rest, cursor⟩ = some (worker.identity, ⟨rest, none⟩) := rfl

/-- Removing the head puts the walk back at the new head, so the purge loop walks
the list from the front. -/
theorem purgeLoop_eq (clock : Nat → Nat) (items : List Worker) (fuel tick : Nat)
    (enough : items.length < fuel) :
    (purgeLoop clock fuel items.head? (.mk items (if items = [] then none else some 0))
      tick).1.items =
        (Lib.Lease.purge clock Worker.expiry tick items).1 ∧
      (purgeLoop clock fuel items.head?
          (.mk items (if items = [] then none else some 0)) tick).2 =
        (Lib.Lease.purge clock Worker.expiry tick items).2 := by
  induction items generalizing fuel tick with
  | nil => cases fuel <;> simp [purgeLoop, Lib.Lease.purge]
  | cons worker rest ih =>
      obtain ⟨fuel, rfl⟩ : ∃ n, fuel = n + 1 := ⟨fuel - 1, by omega⟩
      have enough : rest.length < fuel := by simpa using enough
      by_cases alive : clock tick < worker.expiry
      · simp [purgeLoop, Lib.Lease.purge, alive]
      · simpa [purgeLoop, Lib.Lease.purge, alive, ZList.next_remove_head, first_mk]
          using ih fuel (tick + 1) enough

theorem items_sWorkersPurge (clock : Nat → Nat) (workers : ZList Worker) (tick : Nat) :
    (sWorkersPurge clock workers tick).1.items =
      (Lib.Lease.purge clock Worker.expiry tick workers.items).1 := by
  obtain ⟨items, cursor⟩ := workers
  simpa [sWorkersPurge, first_mk] using
    (purgeLoop_eq clock items (items.length + 1) tick (Nat.lt_succ_self _)).1

theorem tick_sWorkersPurge (clock : Nat → Nat) (workers : ZList Worker) (tick : Nat) :
    (sWorkersPurge clock workers tick).2 =
      (Lib.Lease.purge clock Worker.expiry tick workers.items).2 := by
  obtain ⟨items, cursor⟩ := workers
  simpa [sWorkersPurge, first_mk] using
    (purgeLoop_eq clock items (items.length + 1) tick (Nat.lt_succ_self _)).2

/-- The heartbeat walk leaves the items alone and sends each worker one
heartbeat, in list order. -/
theorem heartbeatLoop_eq (before rest : List Worker) (fuel : Nat) (enough : rest.length ≤ fuel) :
    (heartbeatLoop fuel rest.head?
        (.mk (before ++ rest) (if rest = [] then none else some before.length))).1.items =
        before ++ rest ∧
      (heartbeatLoop fuel rest.head?
        (.mk (before ++ rest) (if rest = [] then none else some before.length))).2 =
        rest.map fun worker => .backend [worker.identity, pppHeartbeat] := by
  induction rest generalizing before fuel with
  | nil => cases fuel <;> simp [heartbeatLoop]
  | cons worker rest ih =>
      obtain ⟨fuel, rfl⟩ : ∃ n, fuel = n + 1 := ⟨fuel - 1, by
        simp only [List.length_cons] at enough; omega⟩
      have ih := ih (before ++ [worker]) fuel (by simpa using enough)
      simp only [List.head?_cons, heartbeatLoop, reduceCtorEq, if_false, next_mk]
      simpa using ih

theorem items_heartbeatRound (clock : Nat → Nat) (q : Queue) :
    (heartbeatRound clock q).1.workers.items = q.workers.items := by
  obtain ⟨⟨items, cursor⟩, at_, tick⟩ := q
  have walk := heartbeatLoop_eq [] items items.length le_rfl
  by_cases due : at_ ≤ clock tick
  · simpa [heartbeatRound, due, first_mk] using walk.1
  · simp [heartbeatRound, due]

/-- A heartbeat round that is due sends every listed worker one heartbeat. -/
theorem out_heartbeatRound (clock : Nat → Nat) (q : Queue) :
    (heartbeatRound clock q).2 =
      if q.heartbeatAt ≤ clock q.tick then
        q.workers.items.map fun worker => .backend [worker.identity, pppHeartbeat]
      else [] := by
  obtain ⟨⟨items, cursor⟩, at_, tick⟩ := q
  have walk := heartbeatLoop_eq [] items items.length le_rfl
  by_cases due : at_ ≤ clock tick
  · simpa [heartbeatRound, due, first_mk] using walk.2
  · simp [heartbeatRound, due]

theorem tick_heartbeatRound (clock : Nat → Nat) (q : Queue) :
    q.tick < (heartbeatRound clock q).1.tick := by
  unfold heartbeatRound
  split
  · exact Nat.lt_add_of_pos_right (by decide)
  · exact Nat.lt_succ_self _

end ZmqPractices.Pirate
