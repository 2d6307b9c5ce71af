import ZmqPractices.Majordomo.Session

/-!
The worker's view of its broker (`mdwrkapi.c`).

`liveness` goes down by one at each poll that times out, and three other places set it:
a message, a reconnect, and the broker's DISCONNECT. `Counted` relates it to what the
session has seen: it is what the timeouts since the last of these have left of
`HEARTBEAT_LIVENESS`. Nothing of it depends on where a call ends and the next begins.
-/

namespace ZmqPractices.Majordomo.Mdwrk

open Czmq Lib

/-! ### What a session has seen -/

def connects (actions : List Action) : Bool :=
  actions.any fun
    | .connect _ => true
    | _ => false

/-- A DISCONNECT was sent. -/
def disconnects (actions : List Action) : Bool :=
  actions.any fun
    | .send _ msg => msg == [[], mdpwHeader, mdpwDisconnect]
    | _ => false

/-- Polls that timed out since a message was received or the worker connected. -/
def timeoutsSince : List Event → Nat
  | [] => 0
  | .turned _ (.message _) _ _ :: _ => 0
  | .turned _ .timeout _ actions :: earlier =>
      if connects actions then 0 else timeoutsSince earlier + 1
  | _ :: earlier => timeoutsSince earlier

/-- Timeouts in a row: since a message was received. -/
def consecutive : List Event → Nat
  | [] => 0
  | .turned _ (.message _) _ _ :: _ => 0
  | .turned _ .timeout _ _ :: earlier => consecutive earlier + 1
  | _ :: earlier => consecutive earlier

/-- The newest event disconnects exactly when it is a timeout that completes
`HEARTBEAT_LIVENESS` of them, and if it is no message, it connects exactly then. -/
def Detected : List Event → Prop
  | .turned socket turn result actions :: earlier =>
      let offline := turn = .timeout ∧
        heartbeatLiveness ∣ consecutive (.turned socket turn result actions :: earlier)
      (disconnects actions = true ↔ offline) ∧
        ((∀ msg, turn ≠ .message msg) → (connects actions = true ↔ offline))
  | .called _ actions :: _ => disconnects actions = false ∧ connects actions = false
  | _ => True

section

variable (clock : Nat → Nat)

@[simp] theorem heartbeatIfDue_connects (self : Worker) :
    connects (heartbeatIfDue clock self).2 = false := by
  refine List.any_eq_false.mpr fun action mem => ?_
  rw [mem_heartbeatIfDue clock mem]
  exact Bool.false_ne_true

@[simp] theorem heartbeatIfDue_disconnects (self : Worker) :
    disconnects (heartbeatIfDue clock self).2 = false := by
  refine List.any_eq_false.mpr fun action mem => ?_
  rw [mem_heartbeatIfDue clock mem]
  simp [sMdwrkSendToBroker]
  decide

@[simp] theorem connect_disconnects (self : Worker) :
    disconnects (sMdwrkConnectToBroker clock self).2 = false := by
  simp [sMdwrkConnectToBroker, sMdwrkSendToBroker, disconnects, zmsgPush]

@[simp] theorem reconnect_liveness (self : Worker) :
    (reconnect clock self).1.liveness = heartbeatLiveness := rfl

@[simp] theorem reconnect_connects (self : Worker) :
    connects (reconnect clock self).2 = true := by
  simp [reconnect, sMdwrkConnectToBroker, connects]

@[simp] theorem reconnect_disconnects (self : Worker) :
    disconnects (reconnect clock self).2 = true := by
  simp [reconnect, sMdwrkSendToBroker, disconnects, zmsgPush]

@[simp] theorem connects_append (actions actions' : List Action) :
    connects (actions ++ actions') = (connects actions || connects actions') :=
  List.any_append

@[simp] theorem disconnects_append (actions actions' : List Action) :
    disconnects (actions ++ actions') = (disconnects actions || disconnects actions') :=
  List.any_append

/-- On a positive counter the unsigned decrement is the subtraction. -/
theorem decrement_pos {liveness : Nat} (positive : 1 ≤ liveness)
    (bounded : liveness ≤ heartbeatLiveness) : decrement liveness = liveness - 1 := by
  unfold decrement heartbeatLiveness at *
  omega

/-- The liveness is what the timeouts since the last message or connect have left, never
nothing; and these timeouts are the ones in a row, modulo `HEARTBEAT_LIVENESS`. -/
structure Counted (s : Session) : Prop where
  left : s.worker.liveness + timeoutsSince s.history = heartbeatLiveness
  some_left : 1 ≤ s.worker.liveness
  in_a_row : consecutive s.history % heartbeatLiveness = timeoutsSince s.history
  detected : Detected s.history

theorem Counted.decrement {s : Session} (counted : Counted s) :
    Mdwrk.decrement s.worker.liveness = s.worker.liveness - 1 :=
  decrement_pos counted.some_left (by have := counted.left; omega)

/-- A turn that is no timeout detects nothing, if it sends no DISCONNECT, and connects on
a message only. -/
theorem detected_quiet {socket : Nat} {turn : Turn} {result : Result} {actions : List Action}
    {earlier : List Event} (traffic : turn ≠ .timeout) (quiet : disconnects actions = false)
    (stays : (∀ msg, turn ≠ .message msg) → connects actions = false) :
    Detected (.turned socket turn result actions :: earlier) := by
  refine ⟨?_, fun other => ?_⟩
  · simp [traffic, quiet]
  · simp [traffic, stays other]

/-- After a message nothing is missing. -/
theorem Counted.message {worker : Worker} {inCall : Bool} {socket : Nat} {msg : Msg}
    {result : Result} {actions : List Action} {earlier : List Event}
    (renewed : worker.liveness = heartbeatLiveness) (quiet : disconnects actions = false) :
    Counted ⟨worker, inCall, .turned socket (.message msg) result actions :: earlier⟩ where
  left := renewed
  some_left := by simp [renewed, heartbeatLiveness]
  in_a_row := rfl
  detected := detected_quiet (by simp) quiet fun other => absurd rfl (other msg)

/-- What a turn does to the count. -/
theorem Counted.turn {s : Session} {turn : Turn} {out : Outcome} (counted : Counted s)
    (moved : Moved clock s.worker turn out) (inCall : Bool) :
    Counted ⟨out.worker, inCall,
      .turned s.worker.socket turn out.result out.actions :: s.history⟩ := by
  obtain ⟨left, some_left, in_a_row, -⟩ := id counted
  have one := counted.decrement
  cases moved with
  | ended stops =>
      have passes : timeoutsSince (.turned s.worker.socket turn (.returned none) [] :: s.history) =
            timeoutsSince s.history ∧
          consecutive (.turned s.worker.socket turn (.returned none) [] :: s.history) =
            consecutive s.history ∧ turn ≠ .timeout := by
        simp only [List.mem_cons, List.not_mem_nil, or_false] at stops
        rcases stops with rfl | rfl | rfl <;> exact ⟨rfl, rfl, by simp⟩
      obtain ⟨since, row, traffic⟩ := passes
      exact ⟨by simpa only [since] using left, some_left, by simpa only [since, row] using in_a_row,
        detected_quiet traffic rfl fun _ => rfl⟩
  | request framed unwrapped => exact .message rfl rfl
  | kept taken kept => exact .message (heartbeatIfDue_liveness clock _) (by simp)
  | dismissed taken connects =>
      subst connects
      exact .message (heartbeatIfDue_liveness clock _) (by simp)
  | @waited left' waiting counts waits same =>
      subst same
      have more : s.worker.liveness - 1 = left' := one.symm.trans counts
      have since : timeoutsSince s.history + 1 < heartbeatLiveness := by omega
      have row : (consecutive s.history + 1) % heartbeatLiveness = timeoutsSince s.history + 1 := by
        unfold heartbeatLiveness at *
        omega
      refine ⟨?_, ?_, ?_, ?_, fun _ => ?_⟩
      · simp [timeoutsSince]
        omega
      · simpa using Nat.one_le_iff_ne_zero.mpr waits
      · simpa [consecutive, timeoutsSince] using row
      · simp [consecutive, Nat.dvd_iff_mod_eq_zero, row]
      · simp [consecutive, Nat.dvd_iff_mod_eq_zero, row]
  | @reconnected connected gone connects =>
      subst connects
      have last : s.worker.liveness = 1 := by omega
      have row : (consecutive s.history + 1) % heartbeatLiveness = 0 := by
        unfold heartbeatLiveness at *
        omega
      refine ⟨?_, ?_, ?_, ?_, fun _ => ?_⟩
      · simp [timeoutsSince]
      · simp [heartbeatLiveness]
      · simpa [consecutive, timeoutsSince] using row
      · simp [consecutive, Nat.dvd_iff_mod_eq_zero, row]
      · simp [consecutive, Nat.dvd_iff_mod_eq_zero, row]

theorem counted_start (service : Frame) : Counted (session clock service).start where
  left := rfl
  some_left := Nat.le_add_left 1 2
  in_a_row := rfl
  detected := trivial

theorem Counted.step {s s' : Session} {use : Use} (counted : Counted s)
    (taken : sessionStep clock s use = some s') : Counted s' := by
  obtain ⟨left, some_left, in_a_row, detected⟩ := id counted
  cases use with
  | setHeartbeatIntv heartbeatIntv =>
      obtain ⟨-, rfl⟩ := step_setHeartbeatIntv clock taken
      exact ⟨left, some_left, in_a_row, detected⟩
  | setReconnectDelay reconnectDelay =>
      obtain ⟨-, rfl⟩ := step_setReconnectDelay clock taken
      exact ⟨left, some_left, in_a_row, trivial⟩
  | call reply =>
      obtain ⟨-, ⟨rfl, rfl⟩ | ⟨body, client, rfl, -, rfl⟩⟩ := step_call clock taken
      · exact ⟨left, some_left, in_a_row, rfl, rfl⟩
      · exact ⟨left, some_left, in_a_row, by
          simp [disconnects, sMdwrkSendToBroker, zmsgWrap, zmsgPush], rfl⟩
  | turn turn =>
      obtain ⟨-, out, moved, rfl⟩ := step_turn clock taken
      exact counted.turn clock moved _

/-- What the worker knows of its broker in a state of a session, and so at every poll. -/
structure Watches (s : Session) : Prop where
  left : s.worker.liveness = heartbeatLiveness - timeoutsSince s.history
  positive : 1 ≤ s.worker.liveness
  bounded : s.worker.liveness ≤ heartbeatLiveness
  no_wrap : decrement s.worker.liveness = s.worker.liveness - 1
  detected : Detected s.history

/-- **Disconnect detection.** The liveness is what the timeouts since the last message or
connect have left, and never wraps; a poll that times out sends DISCONNECT and connects
exactly when it completes `HEARTBEAT_LIVENESS` timeouts in a row, in however many calls. -/
theorem disconnect_detection (service : Frame) {past : List (Session × Use)} {s : Session}
    (run : Run (session clock service) past s) : Always Watches past s := by
  have always := run.invariant Counted (counted_start clock service)
    fun s use s' counted taken => counted.step clock taken
  refine always.imp fun s counted => ?_
  have left := counted.left
  exact ⟨by omega, counted.some_left, by omega, counted.decrement, counted.detected⟩

end

/-- Two timeouts in one call and one in the next: the worker connects a second time. -/
theorem disconnect_detection_two_calls :
    ∃ past s, Run (session id [0x65]) past s ∧ Always Watches past s ∧
      consecutive s.history = 3 ∧ s.worker.socket = 2 ∧ s.worker.liveness = 3 := by
  have ran : ((session id [0x65]).exec (session id [0x65]).start
      [.call none, .turn .timeout, .turn .timeout, .turn .interrupted, .call none,
        .turn .timeout]).map
      (fun s => (consecutive s.history, s.worker.socket, s.worker.liveness)) = some (3, 2, 3) := by
    decide
  obtain ⟨s, done, seen⟩ := Option.map_eq_some_iff.mp ran
  obtain ⟨past, run⟩ := Reachable.start.exec done
  simp only [Prod.mk.injEq] at seen
  exact ⟨past, s, run, disconnect_detection id [0x65] run, seen⟩

end ZmqPractices.Majordomo.Mdwrk
