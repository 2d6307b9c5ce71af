import ZmqPractices.Czmq.Message
import ZmqPractices.Czmq.List
import ZmqPractices.Lib.Transition

/-!
The Simple Pirate queue (`spqueue.cpp`): a broker that gives each request to a worker
that has said it is available, with no reliability mechanisms.

Any message on the backend lists its sender. The queue puts workers in at the front
of the list and takes them out there, and it tells READY from a reply by one byte of
the first frame behind the envelope. `none` is a call the C++ code cannot survive:
reading through a NULL pointer or past the end of a frame.
-/

namespace ZmqPractices.SimplePirate

open Czmq Lib

/-- `WORKER_READY`: signals worker is ready. -/
def workerReady : Frame := [1]

/-- A message the queue sends, on one of its ROUTER sockets. -/
inductive Output where
  | backend (msg : Msg)
  | frontend (msg : Msg)
deriving DecidableEq, Repr

/-- The variables of `main`. `heard` records, for the statements only, the senders of
the messages on the backend, newest first. -/
structure Queue where
  availableWorkers : ZList Frame
  heard : List Frame
deriving DecidableEq, Repr

def Queue.start : Queue := ⟨.new, []⟩

/-- A message from a worker, which is available from now on. Without the signal in its
first frame it is a reply. -/
def backendMessage (q : Queue) (msg : Msg) : Option (Queue × Option Output) :=
  match zmsgUnwrap msg with
  | (none, _) => none
  | (some identity, msg) =>
      let q : Queue := ⟨q.availableWorkers.push identity, identity :: q.heard⟩
      (memcmpData (zmsgFirst msg) workerReady).map fun ready =>
        (q, if ready then none else some (.frontend msg))

/-- A client request: route it to the next worker. -/
def frontendRequest (q : Queue) (msg : Msg) : Option (Queue × Option Output) :=
  match q.availableWorkers.pop with
  | (none, _) => none
  | (some worker, workers) =>
      some ({ q with availableWorkers := workers }, some (.backend (zmsgWrap msg worker)))

/-- What a turn of the main loop finds: a message on the backend, which is looked at
first, or one on the frontend. -/
inductive Event where
  | backend (msg : Msg)
  | frontend (msg : Msg)
deriving DecidableEq, Repr

/-- One turn of the main loop. The frontend is polled only when the list has a worker. -/
def turn (q : Queue) : Event → Option (Queue × Option Output)
  | .backend msg => backendMessage q msg
  | .frontend msg => if q.availableWorkers.size ≠ 0 then frontendRequest q msg else none

/-- The queue, with any messages on its sockets. -/
def spqueue : System Queue Event where
  start := .start
  step q event := (turn q event).map Prod.fst

/-! ### What a turn can do -/

/-- The queue after a message on the backend and after a request. -/
inductive Moved (q : Queue) : Event → Queue → Option Output → Prop where
  | heard (identity : Frame) (msg content : Msg) (out : Option Output)
      (unwrapped : zmsgUnwrap msg = (some identity, content)) :
      Moved q (.backend msg) ⟨q.availableWorkers.push identity, identity :: q.heard⟩ out
  | taken (worker : Frame) (workers : List Frame) (msg : Msg)
      (listed : q.availableWorkers.items = worker :: workers) :
      Moved q (.frontend msg) { q with availableWorkers := ⟨workers, none⟩ }
        (some (.backend (worker :: [] :: msg)))

theorem turn_moved {q q' : Queue} {event : Event} {out : Option Output}
    (done : turn q event = some (q', out)) : Moved q event q' out := by
  cases event with
  | backend msg =>
      simp only [turn, backendMessage] at done
      split at done
      · cases done
      · rename_i identity content unwrapped
        obtain ⟨ready, _, done⟩ := Option.map_eq_some_iff.mp done
        obtain ⟨rfl, rfl⟩ := Prod.mk.inj done
        exact .heard identity msg content _ unwrapped
  | frontend msg =>
      simp only [turn] at done
      split at done
      · cases listed : q.availableWorkers.items with
        | nil => simp [frontendRequest, ZList.pop, listed] at done
        | cons worker workers =>
            simp only [frontendRequest, ZList.pop, listed, Option.some.injEq, Prod.mk.injEq] at done
            obtain ⟨rfl, rfl⟩ := done
            exact .taken worker workers msg listed
      · cases done

theorem spqueue_step {q q' : Queue} {event : Event} (taken : spqueue.step q event = some q') :
    ∃ out, turn q event = some (q', out) := by
  obtain ⟨⟨_, out⟩, done, rfl⟩ := Option.map_eq_some_iff.mp taken
  exact ⟨out, done⟩

end ZmqPractices.SimplePirate
