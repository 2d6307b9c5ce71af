import Mathlib.Algebra.Group.Int.Defs
import ZmqPractices.Lib.Backoff
import ZmqPractices.Majordomo.Liveness

/-!
The reconnect delay of the worker (`mdwrkapi.c`).

A reconnect sleeps the delay and doubles it while it is less than `RECONNECT_DELAY_MAX`.
The test comes before the doubling, so a delay between half of the maximum and the maximum
is doubled past it and stays there: `backoff_capped_iff` says that this is the only way to
get there. The delays a session starts from are counted from its events by `backoff`.
-/

namespace ZmqPractices.Majordomo.Mdwrk

open Czmq Lib

/-- The delay the reconnects in a row started from, which a message or the setter renews,
and how many there have been since. -/
def backoff : List Event → Int × Nat
  | [] => (reconnectDelayInit, 0)
  | .delay reconnectDelay :: _ => (reconnectDelay, 0)
  | .turned _ (.message _) _ _ :: _ => (reconnectDelayInit, 0)
  | .turned _ .timeout _ actions :: earlier =>
      if connects actions then ((backoff earlier).1, (backoff earlier).2 + 1)
      else backoff earlier
  | _ :: earlier => backoff earlier

/-- The delay after the doublings of `backoff`, without a cap. -/
def doubled (history : List Event) : Int := (backoff history).1 * 2 ^ (backoff history).2

def sleeps (actions : List Action) : List Int :=
  actions.filterMap fun
    | .sleep delay => some delay
    | _ => none

/-- If the newest event is a reconnect for lack of traffic, it slept once, for the delay
the reconnects in a row ask for. -/
def Slept : List Event → Prop
  | .turned _ .timeout _ actions :: earlier =>
      connects actions = true → sleeps actions = [min (doubled earlier) reconnectDelayMax]
  | _ => True

/-- The delays a program sets are between one and the maximum. -/
def SetsWithin (_ : Session) : Use → Prop
  | .setReconnectDelay delay => 1 ≤ delay ∧ delay ≤ reconnectDelayMax
  | _ => True

/-- If the step is a timeout that completes `HEARTBEAT_LIVENESS` in a row, the delay it
doubles is at most half of the maximum, or has reached the maximum. -/
def MeetsMaximum (s : Session) : Use → Prop
  | .turn .timeout => heartbeatLiveness ∣ consecutive s.history + 1 →
      doubled s.history * 2 ≤ reconnectDelayMax ∨ reconnectDelayMax ≤ doubled s.history
  | _ => True

theorem doubled_pos {history : List Event} (positive : 1 ≤ (backoff history).1) :
    1 ≤ doubled history :=
  Int.mul_pos positive (Int.pow_pos (by decide))

theorem doubled_reconnect {socket : Nat} {result : Result} {actions : List Action}
    {earlier : List Event} (connected : connects actions = true) :
    doubled (.turned socket .timeout result actions :: earlier) = doubled earlier * 2 := by
  simp only [doubled, backoff, connected, if_true, Int.pow_succ, Int.mul_assoc]

section

variable (clock : Nat → Nat)

@[simp] theorem sleeps_append (actions actions' : List Action) :
    sleeps (actions ++ actions') = sleeps actions ++ sleeps actions' :=
  List.filterMap_append

@[simp] theorem heartbeatIfDue_sleeps (self : Worker) :
    sleeps (heartbeatIfDue clock self).2 = [] := by
  refine List.filterMap_eq_nil_iff.mpr fun action mem => ?_
  rw [mem_heartbeatIfDue clock mem]
  rfl

@[simp] theorem reconnect_reconnectDelay (self : Worker) :
    (reconnect clock self).1.reconnectDelay =
      if self.reconnectDelay < reconnectDelayMax then self.reconnectDelay * 2
      else self.reconnectDelay := rfl

@[simp] theorem reconnect_sleeps (self : Worker) :
    sleeps (reconnect clock self).2 = [self.reconnectDelay] := rfl

/-- The delay is the one the reconnects in a row ask for. -/
structure Backed (s : Session) : Prop where
  counted : Counted s
  positive : 1 ≤ (backoff s.history).1
  delay : s.worker.reconnectDelay = min (doubled s.history) reconnectDelayMax

/-- What the program observes: the delay is capped, and so is every sleep. -/
structure Capped (s : Session) : Prop where
  delay : s.worker.reconnectDelay ≤ reconnectDelayMax
  slept : Slept s.history

theorem init_positive : 1 ≤ reconnectDelayInit := by decide

theorem backed_start (service : Frame) : Backed (session clock service).start where
  counted := counted_start clock service
  positive := init_positive
  delay := rfl

/-- After a message the reconnects start anew. -/
theorem Backed.message {worker : Worker} {inCall : Bool} {socket : Nat} {msg : Msg}
    {result : Result} {actions : List Action} {earlier : List Event}
    (counted : Counted ⟨worker, inCall, .turned socket (.message msg) result actions :: earlier⟩)
    (renewed : worker.reconnectDelay = reconnectDelayInit) :
    Backed ⟨worker, inCall, .turned socket (.message msg) result actions :: earlier⟩ where
  counted := counted
  positive := init_positive
  delay := renewed

theorem Backed.capped {s : Session} (backed : Backed s) (slept : Slept s.history) : Capped s :=
  ⟨backed.delay.trans_le (Int.min_le_right _ _), slept⟩

/-- A step that is no reconnect meets the maximum, and has only to stay backed off. -/
theorem Backed.stays {s s' : Session} {use : Use} (backed : Backed s') (slept : Slept s'.history)
    (meets : MeetsMaximum s use) :
    (Capped s' ↔ MeetsMaximum s use) ∧ (MeetsMaximum s use → Backed s') :=
  ⟨iff_of_true (backed.capped slept) meets, fun _ => backed⟩

/-- A reconnect keeps the backoff, and the cap, exactly when it meets the maximum. -/
theorem Backed.reconnects {s s' : Session} (backed : Backed s) (counted : Counted s')
    (complete : heartbeatLiveness ∣ consecutive s.history + 1) {socket : Nat} {result : Result}
    {actions : List Action}
    (happened : s'.history = .turned socket .timeout result actions :: s.history)
    (connected : connects actions = true) (slept : sleeps actions = [s.worker.reconnectDelay])
    (doubles : s'.worker.reconnectDelay =
      if s.worker.reconnectDelay < reconnectDelayMax then s.worker.reconnectDelay * 2
      else s.worker.reconnectDelay) :
    (Capped s' ↔ MeetsMaximum s (.turn .timeout)) ∧
      (MeetsMaximum s (.turn .timeout) → Backed s') := by
  obtain ⟨-, positive, delay⟩ := backed
  have meets : MeetsMaximum s (.turn .timeout) ↔
      doubled s.history * 2 ≤ reconnectDelayMax ∨ reconnectDelayMax ≤ doubled s.history :=
    ⟨fun meets => meets complete, fun meets _ => meets⟩
  obtain ⟨capped, kept⟩ := double_min reconnectDelayMax (doubled_pos positive)
  rw [← delay, ← doubles] at capped kept
  rw [meets]
  refine ⟨⟨fun cap => capped.mp cap.delay, fun half => ⟨capped.mpr half, ?_⟩⟩,
    fun half => ⟨counted, ?_, ?_⟩⟩
  · rw [happened]
    exact fun _ => slept.trans (congrArg (fun delay => [delay]) delay)
  · simpa [happened, backoff, connected] using positive
  · rw [happened, doubled_reconnect connected]
    exact kept half

/-- A turn keeps the backoff, and the cap, exactly when it meets the maximum. -/
theorem Backed.turn {s : Session} {turn : Turn} {out : Outcome} (backed : Backed s)
    (moved : Moved clock s.worker turn out) (inCall : Bool) {s' : Session}
    (after : s' = ⟨out.worker, inCall,
      .turned s.worker.socket turn out.result out.actions :: s.history⟩) :
    (Capped s' ↔ MeetsMaximum s (.turn turn)) ∧ (MeetsMaximum s (.turn turn) → Backed s') := by
  have counted : Counted s' := after ▸ backed.counted.turn clock moved inCall
  obtain ⟨before, positive, delay⟩ := id backed
  cases moved with
  | ended stops =>
      subst after
      simp only [List.mem_cons, List.not_mem_nil, or_false] at stops
      rcases stops with rfl | rfl | rfl <;>
        exact Backed.stays ⟨counted, positive, delay⟩ trivial trivial
  | request framed unwrapped =>
      subst after
      exact Backed.stays (.message counted rfl) trivial trivial
  | kept taken kept =>
      subst after
      exact Backed.stays (.message counted (heartbeatIfDue_reconnectDelay clock _)) trivial
        trivial
  | dismissed taken connects =>
      subst after connects
      exact Backed.stays (.message counted (heartbeatIfDue_reconnectDelay clock _)) trivial
        trivial
  | @waited left waiting counts waits same =>
      subst after same
      have early : ¬ heartbeatLiveness ∣ consecutive s.history + 1 := fun complete => by
        have offline := (counted.detected.2 fun _ other => nomatch other).mpr ⟨rfl, complete⟩
        simp at offline
      refine Backed.stays ⟨counted, ?_, ?_⟩ ?_ fun complete => absurd complete early
      · simpa [backoff] using positive
      · simpa [doubled, backoff] using delay
      · simp [Slept]
  | @reconnected connected gone connects =>
      subst after connects
      have complete : heartbeatLiveness ∣ consecutive s.history + 1 :=
        ((counted.detected.2 fun _ other => nomatch other).mp (by simp)).2
      exact backed.reconnects counted complete rfl (by simp) (by simp) (by simp)

/-- **The cap of the backoff.** While the delays set are between one and
`RECONNECT_DELAY_MAX`, the delay never exceeds it and every reconnect sleeps what the
backoff says exactly when every reconnect doubles a delay of at most half of the maximum,
or has reached the maximum. -/
theorem backoff_capped_iff (service : Frame) {past : List (Session × Use)} {s : Session}
    (run : Run (session clock service) past s) (sets : EachStep SetsWithin past) :
    Always Capped past s ↔ EachStep MeetsMaximum past := by
  have start := backed_start clock service
  refine run.exact_within Backed Capped SetsWithin MeetsMaximum
    ⟨start, start.capped trivial⟩ ?_ sets
  intro s use s' within backed capped taken
  have counted := backed.counted.step clock taken
  obtain ⟨before, positive, delay⟩ := id backed
  cases use with
  | setHeartbeatIntv heartbeatIntv =>
      obtain ⟨-, rfl⟩ := step_setHeartbeatIntv clock taken
      exact Backed.stays ⟨counted, positive, delay⟩ capped.slept trivial
  | setReconnectDelay reconnectDelay =>
      obtain ⟨-, rfl⟩ := step_setReconnectDelay clock taken
      obtain ⟨least, most⟩ := within
      refine Backed.stays ⟨counted, least, ?_⟩ trivial trivial
      simpa [mdwrkSetReconnectDelay, doubled, backoff] using (Int.min_eq_left most).symm
  | call reply =>
      obtain ⟨-, ⟨rfl, rfl⟩ | ⟨body, client, rfl, -, rfl⟩⟩ := step_call clock taken
      · exact Backed.stays ⟨counted, positive, delay⟩ trivial trivial
      · exact Backed.stays ⟨counted, positive, delay⟩ trivial trivial
  | turn turn =>
      obtain ⟨-, out, moved, after⟩ := step_turn clock taken
      exact backed.turn clock moved _ after

end

instance (s : Session) : (use : Use) → Decidable (SetsWithin s use)
  | .setReconnectDelay _ => inferInstanceAs (Decidable (_ ∧ _))
  | .setHeartbeatIntv _ | .call _ | .turn _ => .isTrue trivial

instance (s : Session) : (use : Use) → Decidable (MeetsMaximum s use)
  | .turn .timeout => inferInstanceAs (Decidable (_ → _))
  | .turn .signalled | .turn .interrupted | .turn .noMessage | .turn (.message _)
  | .setReconnectDelay _ | .setHeartbeatIntv _ | .call _ => .isTrue trivial

/-- From 16000 ms the first reconnect doubles the delay to the maximum. -/
theorem backoff_capped_iff_sixteen : ∃ (past : List (Session × Use)) (s : Session),
    Run (session id [0x65]) past s ∧ EachStep SetsWithin past ∧ Always Capped past s ∧
      s.worker.reconnectDelay = 32000 := by
  have ran : ((session id [0x65]).record [] (session id [0x65]).start
      [.setReconnectDelay 16000, .call none, .turn .timeout, .turn .timeout, .turn .timeout]).map
      (fun out => (decide (EachStep SetsWithin out.1), decide (EachStep MeetsMaximum out.1),
        out.2.worker.reconnectDelay)) = some (true, true, 32000) := by
    decide
  obtain ⟨⟨past, s⟩, done, seen⟩ := Option.map_eq_some_iff.mp ran
  simp only [Prod.mk.injEq, decide_eq_true_eq] at seen
  obtain ⟨sets, meets, delay⟩ := seen
  have run := Run.start.record done
  exact ⟨past, s, run, sets, (backoff_capped_iff id [0x65] run sets).mpr meets, delay⟩

/-- From 20000 ms it doubles the delay past the maximum, and the second sleeps 40000 ms. -/
theorem maximum_exceeded : ∃ (past : List (Session × Use)) (s : Session),
    Run (session id [0x65]) past s ∧ EachStep SetsWithin past ∧
      s.worker.reconnectDelay = 40000 ∧
      s.history.filterMap
        (fun | .turned _ .timeout _ actions => (sleeps actions).head? | _ => none) =
          [40000, 20000] ∧
      ¬ Always Capped past s := by
  have ran : ((session id [0x65]).record [] (session id [0x65]).start
      [.setReconnectDelay 20000, .call none, .turn .timeout, .turn .timeout, .turn .timeout,
        .turn .timeout, .turn .timeout, .turn .timeout]).map
      (fun out => (decide (EachStep SetsWithin out.1), out.2.worker.reconnectDelay,
        out.2.history.filterMap
          (fun | .turned _ .timeout _ actions => (sleeps actions).head? | _ => none))) =
        some (true, 40000, [40000, 20000]) := by
    decide
  obtain ⟨⟨past, s⟩, done, seen⟩ := Option.map_eq_some_iff.mp ran
  simp only [Prod.mk.injEq, decide_eq_true_eq] at seen
  obtain ⟨sets, delay, slept⟩ := seen
  refine ⟨past, s, Run.start.record done, sets, delay, slept, fun capped => ?_⟩
  exact absurd (delay ▸ capped.1.delay) (by decide)

end ZmqPractices.Majordomo.Mdwrk
