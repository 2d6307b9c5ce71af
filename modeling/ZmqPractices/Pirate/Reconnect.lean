import ZmqPractices.Lib.Backoff
import ZmqPractices.Pirate.OneRequest

/-!
The reconnects of the Paranoid Pirate worker (`ppworker.c`).

Two counters drive them, with different resets: `liveness` goes down at each poll that
times out and is set again by an answered request, a heartbeat and a reconnect, but not by
an invalid message; `interval` is doubled by each reconnect and is set again by a message
of any kind. `Outcome` is what a turn of the loop came to; what the counters should be is
read off the outcomes so far.
-/

namespace ZmqPractices.Pirate

open Czmq Lib

/-- What a turn of the worker's loop came to. A timeout that reconnects records for how
long it slept. -/
inductive Outcome where
  | answered
  | heartbeat
  | invalid
  | timeout (slept : Option Int)
deriving DecidableEq, Repr

/-- Timeouts since the last answered request, heartbeat or reconnect. -/
def timeoutsSince : List Outcome → Nat
  | [] => 0
  | .answered :: _ | .heartbeat :: _ | .timeout (some _) :: _ => 0
  | .invalid :: earlier => timeoutsSince earlier
  | .timeout none :: earlier => timeoutsSince earlier + 1

/-- Reconnects since the last message of any kind. -/
def reconnectsSince : List Outcome → Nat
  | [] => 0
  | .answered :: _ | .heartbeat :: _ | .invalid :: _ => 0
  | .timeout (some _) :: earlier => reconnectsSince earlier + 1
  | .timeout none :: earlier => reconnectsSince earlier

/-- All reconnects. -/
def reconnects : List Outcome → Nat
  | [] => 0
  | .timeout (some _) :: earlier => reconnects earlier + 1
  | _ :: earlier => reconnects earlier

/-- The sleep before a reconnect that follows `n` others without a message. -/
def backedOff (n : Nat) : Int := min (intervalInit * 2 ^ n) intervalMax

/-- Every timeout that was the `HEARTBEAT_LIVENESS`-th in its count reconnected, no other
did, and each slept what the reconnects before it ask for. -/
def Lawful : List Outcome → Prop
  | [] => True
  | .timeout slept :: earlier =>
      slept = (if timeoutsSince earlier + 1 = heartbeatLiveness then
          some (backedOff (reconnectsSince earlier)) else none) ∧
        Lawful earlier
  | _ :: earlier => Lawful earlier

/-! ### The loop of one worker -/

/-- The worker's variables, how often it has connected again, and the outcomes of its
turns, newest first. -/
structure WorkerLoop where
  worker : PPWorker
  connected : Nat
  history : List Outcome
deriving DecidableEq, Repr

/-- The places of the loop where something is up to others. `stray` is the byte that
`memcmp` finds behind an empty frame. -/
inductive LoopStep where
  | receive (msg : Msg) (stray : UInt8) (crash : Bool)
  | reply
  | timeout
  | beat (now later : Nat)
  | interrupted
deriving DecidableEq, Repr

/-- The message as the worker reads it: a single empty frame has no first byte, and the
comparison reads the one behind it. -/
def asRead (msg : Msg) (stray : UInt8) : Msg := if msg = [[]] then [[stray]] else msg

/-- What a message comes to before it is answered. -/
def heard : Msg → List Outcome
  | [_, _, _] => []
  | [frame] => [if startsWith frame pppHeartbeat then .heartbeat else .invalid]
  | _ => [.invalid]

/-- The sleep of a timeout: `interval`, as it was before the doubling, if it reconnects. -/
def PPWorker.slept (w : PPWorker) : Option Int :=
  if w.timeout.2 = .connect then some w.interval else none

/-- Go on with the worker's new variables after what it does to its socket. -/
def WorkerLoop.turn (s : WorkerLoop) (out : PPWorker × Action) (outcome : List Outcome) :
    WorkerLoop where
  worker := out.1
  connected := if out.2 = .connect then s.connected + 1 else s.connected
  history := outcome ++ s.history

section

variable (s : WorkerLoop) (out : PPWorker × Action) (outcome : List Outcome)

@[simp] theorem turn_worker : (s.turn out outcome).worker = out.1 := rfl

@[simp] theorem turn_history : (s.turn out outcome).history = outcome ++ s.history := rfl

@[simp] theorem turn_connected :
    (s.turn out outcome).connected =
      if out.2 = .connect then s.connected + 1 else s.connected := rfl

end

def loopStep (s : WorkerLoop) : LoopStep → Option WorkerLoop
  | .receive msg stray crash =>
      if s.worker.phase = .polling then
        some (s.turn (s.worker.receive (asRead msg stray) crash, .none) (heard (asRead msg stray)))
      else none
  | .reply =>
      match s.worker.phase with
      | .replying msg => some (s.turn (s.worker.reply msg) [.answered])
      | _ => none
  | .timeout =>
      if s.worker.phase = .polling then
        some (s.turn s.worker.timeout [.timeout s.worker.slept])
      else none
  | .beat now later =>
      if s.worker.phase = .beating then some (s.turn (s.worker.beat now later) []) else none
  | .interrupted =>
      if s.worker.phase = .polling then
        some (s.turn ({ s.worker with phase := .exited }, .none) [])
      else none

/-- One worker, started at `now`, with any messages on its socket. -/
def ppworker (now : Nat) : System WorkerLoop LoopStep where
  start := { worker := (PPWorker.start now).1, connected := 0, history := [] }
  step := loopStep

/-! ### What a step does to the counters -/

/-- The five ways a step ends: it leaves both counters alone; valid traffic sets both
again; an invalid message sets the interval only; a timeout counts down; or it reconnects. -/
inductive Turns (w : PPWorker) : PPWorker × Action → List Outcome → Prop where
  | quiet {w' : PPWorker} {action : Action} : action ≠ .connect → w'.liveness = w.liveness →
      w'.interval = w.interval → Turns w (w', action) []
  | valid {w' : PPWorker} {action : Action} {outcome : Outcome} : action ≠ .connect →
      outcome = .answered ∨ outcome = .heartbeat → w'.liveness = heartbeatLiveness →
      w'.interval = intervalInit → Turns w (w', action) [outcome]
  | invalid {w' : PPWorker} {action : Action} : action ≠ .connect → w'.liveness = w.liveness →
      w'.interval = intervalInit → Turns w (w', action) [.invalid]
  | waited {w' : PPWorker} {action : Action} : action ≠ .connect → w.liveness - 1 ≠ 0 →
      w'.liveness = w.liveness - 1 → w'.interval = w.interval →
      Turns w (w', action) [.timeout none]
  | reconnected {w' : PPWorker} : w.liveness - 1 = 0 → w'.liveness = heartbeatLiveness →
      w'.interval = (if w.interval < intervalMax then w.interval * 2 else w.interval) →
      Turns w (w', .connect) [.timeout (some w.interval)]

theorem receive_turns (w : PPWorker) (msg : Msg) (crash : Bool) :
    Turns w (w.receive msg crash, .none) (heard msg) := by
  match msg with
  | [_, _, _] =>
      unfold PPWorker.receive
      dsimp only
      split
      · exact .quiet (by simp) rfl rfl
      · exact .quiet (by simp) rfl rfl
  | [frame] =>
      unfold PPWorker.receive heard
      by_cases valid : startsWith frame pppHeartbeat = true
      · simp only [valid, if_true]
        exact .valid (by simp) (.inr rfl) rfl rfl
      · simp only [valid]
        exact .invalid (by simp) rfl rfl
  | [] | [_, _] | _ :: _ :: _ :: _ :: _ => exact .invalid (by simp) rfl rfl

theorem timeout_turns (w : PPWorker) : Turns w w.timeout [.timeout w.slept] := by
  unfold PPWorker.slept PPWorker.timeout
  split
  · rename_i last
    exact .reconnected last rfl rfl
  · rename_i left
    exact .waited (by simp) left rfl rfl

theorem beat_turns (w : PPWorker) (now later : Nat) : Turns w (w.beat now later) [] := by
  unfold PPWorker.beat
  split
  · exact .quiet (by simp) rfl rfl
  · exact .quiet (by simp) rfl rfl

/-- Every step is one turn of the worker. -/
theorem loopStep_turns {s s' : WorkerLoop} {l : LoopStep} (taken : loopStep s l = some s') :
    ∃ out outcome, Turns s.worker out outcome ∧ s' = s.turn out outcome := by
  cases l with
  | receive msg stray crash =>
      obtain ⟨-, ⟨⟩⟩ := Option.ite_none_right_eq_some.mp taken
      exact ⟨_, _, receive_turns _ _ _, rfl⟩
  | reply =>
      simp only [loopStep] at taken
      split at taken
      · exact ⟨_, _, .valid (by simp) (.inl rfl) rfl rfl, (Option.some.inj taken).symm⟩
      · simp at taken
  | timeout =>
      obtain ⟨-, ⟨⟩⟩ := Option.ite_none_right_eq_some.mp taken
      exact ⟨_, _, timeout_turns _, rfl⟩
  | beat now later =>
      obtain ⟨-, ⟨⟩⟩ := Option.ite_none_right_eq_some.mp taken
      exact ⟨_, _, beat_turns _ _ _, rfl⟩
  | interrupted =>
      obtain ⟨-, ⟨⟩⟩ := Option.ite_none_right_eq_some.mp taken
      exact ⟨({ s.worker with phase := .exited }, .none), [], .quiet (by simp) rfl rfl, rfl⟩

/-! ### The law -/

/-- The counters are what the outcomes say: together, the liveness and the timeouts since
its reset are `HEARTBEAT_LIVENESS`, and the interval is the one the next reconnect sleeps. -/
structure Counts (s : WorkerLoop) : Prop where
  left : s.worker.liveness + timeoutsSince s.history = heartbeatLiveness
  some_left : 1 ≤ s.worker.liveness
  interval : s.worker.interval = backedOff (reconnectsSince s.history)
  connected : s.connected = reconnects s.history
  lawful : Lawful s.history

theorem counts_start (now : Nat) : Counts (ppworker now).start where
  left := rfl
  some_left := by simp [ppworker, PPWorker.start, heartbeatLiveness]
  interval := rfl
  connected := rfl
  lawful := trivial

/-- The maximum is the initial interval after five doublings, so doubling keeps to it. -/
theorem backedOff_succ (n : Nat) :
    (if backedOff n < intervalMax then backedOff n * 2 else backedOff n) = backedOff (n + 1) :=
  double_min_pow (by decide) 5 n

theorem Counts.turn {s : WorkerLoop} {out : PPWorker × Action} {outcome : List Outcome}
    (counts : Counts s) (turns : Turns s.worker out outcome) : Counts (s.turn out outcome) := by
  obtain ⟨left, some_left, interval, connected, lawful⟩ := counts
  cases turns with
  | quiet stays live kept =>
      refine ⟨?_, ?_, kept.trans interval, ?_, lawful⟩
      · exact live ▸ left
      · exact live ▸ some_left
      · simpa [stays] using connected
  | valid stays traffic live kept =>
      rcases traffic with rfl | rfl
      all_goals
        refine ⟨?_, ?_, kept, ?_, lawful⟩
        · simpa [timeoutsSince] using live
        · simp [live, heartbeatLiveness]
        · simpa [stays, reconnects] using connected
  | invalid stays live kept =>
      refine ⟨?_, ?_, kept, ?_, lawful⟩
      · exact live ▸ left
      · exact live ▸ some_left
      · simpa [stays, reconnects] using connected
  | waited stays more live kept =>
      -- the liveness that is left says that the count is not complete
      have early : timeoutsSince s.history + 1 ≠ heartbeatLiveness := by omega
      refine ⟨?_, ?_, kept.trans interval, ?_, ?_, lawful⟩
      · simp only [turn_worker, turn_history, live, List.singleton_append, timeoutsSince]
        omega
      · simp only [turn_worker, live]
        omega
      · simpa [stays, reconnects] using connected
      · simp [early]
  | reconnected last live doubled =>
      have complete : timeoutsSince s.history + 1 = heartbeatLiveness := by omega
      refine ⟨?_, ?_, ?_, ?_, ?_, lawful⟩
      · simpa [timeoutsSince] using live
      · simp [live, heartbeatLiveness]
      · simpa only [turn_worker, turn_history, List.singleton_append, reconnectsSince, interval,
          backedOff_succ] using doubled
      · simpa [reconnects] using connected
      · simp [complete, interval]

/-- What holds at every poll: the reconnects so far kept to the law, no other step connected
again, and the liveness is between one and `HEARTBEAT_LIVENESS`. -/
structure Reconnects (s : WorkerLoop) : Prop where
  lawful : Lawful s.history
  connected : s.connected = reconnects s.history
  positive : 1 ≤ s.worker.liveness
  bounded : s.worker.liveness ≤ heartbeatLiveness

theorem Counts.reconnects {s : WorkerLoop} (counts : Counts s) : Reconnects s where
  lawful := counts.lawful
  connected := counts.connected
  positive := counts.some_left
  bounded := by have := counts.left; omega

theorem Counts.step {s s' : WorkerLoop} {l : LoopStep} (counts : Counts s)
    (taken : loopStep s l = some s') : Counts s' := by
  obtain ⟨out, outcome, turns, rfl⟩ := loopStep_turns taken
  exact counts.turn turns

/-- The worker stands where its loop can stand, with some messages and timeouts. -/
def RunsLoop (w : PPWorker) : Prop :=
  ∃ now s, Reachable (ppworker now) s ∧ s.worker = w

theorem RunsLoop.start (now : Nat) : RunsLoop (PPWorker.start now).1 :=
  ⟨now, _, Reachable.start, rfl⟩

theorem RunsLoop.turn {w : PPWorker} (runs : RunsLoop w) {l : LoopStep} {out : PPWorker × Action}
    {outcome : List Outcome}
    (step : ∀ s : WorkerLoop, s.worker = w → loopStep s l = some (s.turn out outcome)) :
    RunsLoop out.1 := by
  obtain ⟨now, s, reach, same⟩ := runs
  exact ⟨now, s.turn out outcome, reach.next (step s same), rfl⟩

/-- A zero behind an empty frame is no heartbeat, and neither is the empty frame. -/
theorem receive_asRead (w : PPWorker) (msg : Msg) (crash : Bool) :
    w.receive (asRead msg 0) crash = w.receive msg crash := by
  unfold asRead
  split
  · rename_i empty
    subst empty
    rfl
  · rfl

@[simp] theorem update_worker (s : State) (identity : Frame) (arrived : Nat)
    (out : PPWorker × Action) :
    (s.update identity arrived out).worker = Function.update s.worker identity (some out.1) := by
  obtain ⟨w, action⟩ := out
  cases action <;> rfl

/-- The variables of a worker after its own step. -/
theorem runsLoop_update {worker : Frame → Option PPWorker} {identity v : Frame} {w w' : PPWorker}
    (before : ∀ v w, worker v = some w → RunsLoop w) (runs : RunsLoop w')
    (found : Function.update worker identity (some w') v = some w) : RunsLoop w := by
  by_cases same : v = identity
  · subst same
    rw [Function.update_self, Option.some.injEq] at found
    exact found ▸ runs
  · rw [Function.update_of_ne same] at found
    exact before v w found

/-- A step of a worker in the system is a step of its loop. -/
theorem runsLoop_workerStep {s s' : State} {identity : Frame} {step : WorkerStep}
    (before : ∀ v w, s.worker v = some w → RunsLoop w)
    (taken : workerStep s identity step = some s') {v : Frame} {w : PPWorker}
    (found : s'.worker v = some w) : RunsLoop w := by
  rcases workerStep_cases taken with ⟨now, -, rfl⟩ | ⟨p, msg, net, crash, held, polling, -, rfl⟩ |
    ⟨p, arrived, held, polling, rfl⟩ | ⟨p, msg, held, replying, rfl⟩ |
    ⟨p, now, later, held, beating, rfl⟩
  all_goals rw [update_worker] at found
  · exact runsLoop_update before (.start now) found
  · refine runsLoop_update before ?_ found
    have runs := (before identity p held).turn (l := .receive msg 0 crash) fun t same => by
      simp only [loopStep, same, polling, if_true]
      rfl
    exact receive_asRead p msg crash ▸ runs
  · refine runsLoop_update before ?_ found
    exact (before identity p held).turn (l := .timeout) fun t same => by
      simp only [loopStep, same, polling, if_true]
      rfl
  · refine runsLoop_update before ?_ found
    exact (before identity p held).turn (l := .reply) fun t same => by
      simp only [loopStep, same, replying]
      rfl
  · refine runsLoop_update before ?_ found
    exact (before identity p held).turn (l := .beat now later) fun t same => by
      simp only [loopStep, same, beating, if_true]
      rfl

/-- Every worker of a queue runs this loop, so the law is about each of them. -/
theorem runsLoop_of_pirate {clock : Nat → Nat} {s : State} (reach : Reachable (pirate clock) s) :
    ∀ v w, s.worker v = some w → RunsLoop w := by
  refine reach.invariant (fun s => ∀ v w, s.worker v = some w → RunsLoop w) ?_ ?_
  · simp [pirate]
  · intro s l s' before taken v w found
    cases l with
    | worker identity step => exact runsLoop_workerStep before taken found
    | queue step =>
        rcases queueStep_cases taken with ⟨_, _, _, _, _, _, _, workers, _⟩ |
          ⟨_, _, _, _, _, _, _, _, workers, _, _⟩ | ⟨_, _, _, workers, _⟩
        all_goals exact before v w (workers ▸ found)

end ZmqPractices.Pirate
