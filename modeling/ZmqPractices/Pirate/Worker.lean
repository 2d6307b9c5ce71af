import ZmqPractices.Czmq.Message
import ZmqPractices.Pirate.Queue

/-!
The Paranoid Pirate worker (`ppworker.c`): a DEALER socket, heartbeats, and a
reconnect with exponential backoff when the queue has been silent for
`heartbeatLiveness` polls.

The loop is split where other parties can act: at the poll, between receiving a
request and answering it, and before the heartbeat at its end. What the worker
does to its socket is returned as an `Action`.
-/

namespace ZmqPractices.Pirate

open Czmq

/-- `INTERVAL_INIT`: initial reconnect interval. -/
def intervalInit : Int := 1000

/-- `INTERVAL_MAX`: after exponential backoff. -/
def intervalMax : Int := 32000

/-- Where a worker stands in its loop. -/
inductive Phase where
  | polling
  | replying (msg : Msg)
  | beating
  | exited
deriving DecidableEq, Repr

/-- The variables of the worker's `main`. -/
structure PPWorker where
  phase : Phase
  liveness : Int
  interval : Int
  cycles : Nat
  heartbeatAt : Nat
deriving DecidableEq, Repr

/-- What a worker does to its socket. Connecting destroys the old socket if there
is one, and announces READY on the new one. -/
inductive Action where
  | none
  | send (msg : Msg)
  | connect
deriving DecidableEq, Repr

/-- Before the loop: `s_worker_socket`, then the first heartbeat time. -/
def PPWorker.start (now : Nat) : PPWorker × Action :=
  ({ phase := .polling
     liveness := heartbeatLiveness
     interval := intervalInit
     cycles := 0
     heartbeatAt := now + heartbeatInterval }, .connect)

/-- A message from the queue: three frames are a request (after three cycles a
crash may be simulated), one frame is a control message. `crash` is the outcome of
`randof (5) == 0`. -/
def PPWorker.receive (w : PPWorker) (msg : Msg) (crash : Bool) : PPWorker :=
  match msg with
  | [_, _, _] =>
      let w := { w with cycles := w.cycles + 1 }
      if 3 < w.cycles ∧ crash then { w with phase := .exited }
      else { w with phase := .replying msg }
  | [frame] =>
      { w with
        liveness := if startsWith frame pppHeartbeat then heartbeatLiveness else w.liveness
        interval := intervalInit
        phase := .beating }
  | _ => { w with interval := intervalInit, phase := .beating }

/-- Answer the request in hand by sending it back. -/
def PPWorker.reply (w : PPWorker) (msg : Msg) : PPWorker × Action :=
  ({ w with liveness := heartbeatLiveness, interval := intervalInit, phase := .beating },
    .send msg)

/-- A poll that timed out: after `heartbeatLiveness` of them, reconnect. -/
def PPWorker.timeout (w : PPWorker) : PPWorker × Action :=
  if w.liveness - 1 = 0 then
    ({ w with
        liveness := heartbeatLiveness
        interval := if w.interval < intervalMax then w.interval * 2 else w.interval
        phase := .beating }, .connect)
  else ({ w with liveness := w.liveness - 1, phase := .beating }, .none)

/-- The end of a turn: a heartbeat if it is time. `now` and `later` are the two
readings of the clock. -/
def PPWorker.beat (w : PPWorker) (now later : Nat) : PPWorker × Action :=
  if w.heartbeatAt < now then
    ({ w with heartbeatAt := later + heartbeatInterval, phase := .polling },
      .send [pppHeartbeat])
  else ({ w with phase := .polling }, .none)

/-- A worker takes up a message only to answer it when it has three frames. -/
theorem receive_replying {w : PPWorker} {msg held : Msg} {crash : Bool}
    (phase : (w.receive msg crash).phase = .replying held) : held = msg ∧ msg.length = 3 := by
  unfold PPWorker.receive at phase
  split at phase
  · dsimp only at phase
    split at phase
    · simp at phase
    · simp only [Phase.replying.injEq] at phase
      exact ⟨phase.symm, rfl⟩
  · simp at phase
  · simp at phase

end ZmqPractices.Pirate
