import ZmqPractices.Czmq.Message
import ZmqPractices.Lib.Printed
import ZmqPractices.Lib.Transition

/-!
The Lazy Pirate client (`lpclient.cpp`): a client that sends a request, waits for the
reply with a timeout, opens a new socket and sends it again when there is none, and
gives up after `requestRetries` failures.

A malformed reply and a timeout both cost one of the retries, but only the timeout looks
whether it was the last. So the client gives up in time as long as the last failure is
a timeout (`gives_up_iff`), and where a malformed reply takes the last retry it sends
its request again for ever (`resends_for_ever`).
-/

namespace ZmqPractices.LazyPirate

open Czmq Lib

/-- `REQUEST_RETRIES`: before abandon. -/
def requestRetries : Nat := 3

/-! ### The request -/

/-- `sprintf (request, "%04d-%0x", seq, rand)`. -/
def requestText (seq rand : Nat) : Frame := padded 4 10 seq ++ 0x2d :: printed 16 rand

example : requestText 7 0x2a = [0x30, 0x30, 0x30, 0x37, 0x2d, 0x32, 0x61] := by decide

/-! ### The client -/

/-- Where the client is: at the test of the outer loop, in the inner one, or past both. -/
inductive Phase where
  | outer
  | inner
  | stopped
deriving DecidableEq, Repr

/-- The variables of `main`; `awaiting` is whether its REQ socket expects a reply. For the
statements only, `failures` counts the timeouts and malformed replies since the last
correct reply, and `sent` holds what was sent, newest first. -/
structure Client where
  phase : Phase
  interrupted : Bool
  retriesLeft : Int
  requestSeq : Nat
  request : Frame
  awaiting : Bool
  failures : Nat
  sent : List Frame
deriving DecidableEq, Repr

def Client.start : Client where
  phase := .outer
  interrupted := false
  retriesLeft := requestRetries
  requestSeq := 0
  request := []
  awaiting := false
  failures := 0
  sent := []

/-- What happens to the client: it enters the outer loop with the number `randof (0x10000)`
gives or does not enter it, and in the inner loop a reply comes, none comes in time, or it
is interrupted. -/
inductive Event where
  | send (rand : Nat)
  | leave
  | reply (frame : Frame)
  | timeout
  | interrupt
deriving DecidableEq, Repr

/-- `zstr_send` on a REQ socket. -/
def Client.transmit (c : Client) : Client :=
  { c with awaiting := true, sent := c.request :: c.sent }

/-- The test of the outer loop. -/
def Client.goesOn (c : Client) : Bool := c.retriesLeft ≠ 0 && !c.interrupted

/-- A reply that differs from the request only costs a retry: `retries_left--` is tested
for the message, and the inner loop goes on. -/
def Client.received (c : Client) (frame : Frame) : Client :=
  let reply := zframeStrdup frame
  let c := { c with awaiting := false }
  if streq reply c.request then
    { c with phase := .outer, retriesLeft := requestRetries, failures := 0 }
  else { c with retriesLeft := c.retriesLeft - 1, failures := c.failures + 1 }

/-- A timeout costs a retry. If it was the last, abandon, and otherwise open a new socket
and send the request again. -/
def Client.timedOut (c : Client) : Client :=
  let c := { c with retriesLeft := c.retriesLeft - 1, failures := c.failures + 1 }
  if c.retriesLeft = 0 then { c with phase := .outer } else c.transmit

def clientStep (c : Client) : Event → Option Client
  | .send rand =>
      if c.phase = .outer ∧ c.goesOn ∧ rand < 0x10000 then
        some { c with
          phase := .inner
          requestSeq := c.requestSeq + 1
          request := requestText (c.requestSeq + 1) rand }.transmit
      else none
  | .leave => if c.phase = .outer ∧ ¬ c.goesOn then some { c with phase := .stopped } else none
  | .reply frame =>
      -- a REQ socket delivers one reply for each request it has sent
      if c.phase = .inner ∧ c.awaiting then some (c.received frame) else none
  | .timeout => if c.phase = .inner then some c.timedOut else none
  | .interrupt =>
      if c.phase = .inner then some { c with phase := .outer, interrupted := true } else none

/-- The client, against any server. -/
def lpclient : System Client Event where
  start := .start
  step := clientStep

/-! ### Giving up -/

/-- The client has given up in time so far: `retries_left` is in its range, there have been
no more failures than retries, and after the last one nothing is polled or sent. -/
structure GivesUp (c : Client) : Prop where
  nonneg : 0 ≤ c.retriesLeft
  le : c.retriesLeft ≤ requestRetries
  failures : c.failures ≤ requestRetries
  last : c.failures = requestRetries → c.phase ≠ .inner ∧ ¬ c.goesOn

/-- A malformed reply does not come when only one retry is left. -/
def NotLast (c : Client) : Event → Prop
  | .reply frame => zframeStrdup frame ≠ c.request → c.failures + 1 ≠ requestRetries
  | _ => True

/-- Each failure has cost one retry, and while the client waits there is one left. -/
structure Counted (c : Client) : Prop where
  retries : c.retriesLeft = requestRetries - c.failures
  failures : c.failures ≤ requestRetries
  inner : c.phase = .inner → c.failures < requestRetries

theorem Counted.givesUp {c : Client} (counted : Counted c) : GivesUp c := by
  have := counted.retries
  have := counted.failures
  refine ⟨by omega, by omega, counted.failures, ?_⟩
  intro last
  have none_left : c.retriesLeft = 0 := by omega
  refine ⟨fun inner => ?_, by simp [Client.goesOn, none_left]⟩
  have := counted.inner inner
  omega

section Step

variable {c c' : Client}

theorem Counted.start : Counted .start where
  retries := rfl
  failures := Nat.zero_le _
  inner := Phase.noConfusion

theorem Counted.send {rand : Nat} (before : Counted c)
    (taken : clientStep c (.send rand) = some c') : Counted c' := by
  simp only [clientStep] at taken
  split at taken
  · rename_i enters
    obtain ⟨-, goesOn, -⟩ := enters
    obtain rfl := Option.some.inj taken
    have some_left : c.retriesLeft ≠ 0 := by
      intro none_left
      simp [Client.goesOn, none_left] at goesOn
    refine ⟨before.retries, before.failures, fun _ => ?_⟩
    have := before.retries
    have := before.failures
    show c.failures < requestRetries
    omega
  · cases taken

theorem Counted.leave (before : Counted c) (taken : clientStep c .leave = some c') :
    Counted c' := by
  simp only [clientStep] at taken
  split at taken
  · obtain rfl := Option.some.inj taken
    exact ⟨before.retries, before.failures, Phase.noConfusion⟩
  · cases taken

/-- A malformed reply is one more failure, and the client goes on waiting. -/
theorem received_malformed {frame : Frame} (malformed : zframeStrdup frame ≠ c.request) :
    c.received frame = { c with
      awaiting := false
      retriesLeft := c.retriesLeft - 1
      failures := c.failures + 1 } := by
  simp [Client.received, malformed]

theorem received_correct {frame : Frame} (correct : zframeStrdup frame = c.request) :
    c.received frame = { c with
      phase := .outer
      awaiting := false
      retriesLeft := requestRetries
      failures := 0 } := by
  simp [Client.received, correct]

theorem Counted.received {frame : Frame} (before : Counted c) (inner : c.phase = .inner)
    (notLast : NotLast c (.reply frame)) : Counted (c.received frame) := by
  by_cases correct : zframeStrdup frame = c.request
  · rw [received_correct correct]
    exact ⟨rfl, Nat.zero_le _, Phase.noConfusion⟩
  · have retries := before.retries
    have waiting := before.inner inner
    have not_last := notLast correct
    rw [received_malformed correct]
    refine ⟨?_, waiting, fun _ => lt_of_le_of_ne waiting not_last⟩
    show c.retriesLeft - 1 = requestRetries - ((c.failures + 1 : Nat) : Int)
    omega

theorem Counted.timedOut (before : Counted c) (inner : c.phase = .inner) : Counted c.timedOut := by
  have retries := before.retries
  have waiting := before.inner inner
  have fewer : c.retriesLeft - 1 = requestRetries - ((c.failures + 1 : Nat) : Int) := by omega
  unfold Client.timedOut
  dsimp only
  split
  · exact ⟨fewer, waiting, Phase.noConfusion⟩
  · rename_i some_left
    refine ⟨fewer, waiting, fun _ => ?_⟩
    show c.failures + 1 < requestRetries
    omega

/-- A step that meets the condition keeps the count. -/
theorem Counted.step {e : Event} (before : Counted c) (notLast : NotLast c e)
    (taken : clientStep c e = some c') : Counted c' := by
  cases e with
  | send rand => exact before.send taken
  | leave => exact before.leave taken
  | reply frame =>
      simp only [clientStep] at taken
      split at taken
      · rename_i waits
        exact Option.some.inj taken ▸ before.received waits.1 notLast
      · cases taken
  | timeout =>
      simp only [clientStep] at taken
      split at taken
      · rename_i inner
        exact Option.some.inj taken ▸ before.timedOut inner
      · cases taken
  | interrupt =>
      simp only [clientStep] at taken
      split at taken
      · obtain rfl := Option.some.inj taken
        exact ⟨before.retries, before.failures, Phase.noConfusion⟩
      · cases taken

/-- A malformed reply that takes the last retry leaves the client waiting. -/
theorem not_givesUp {frame : Frame} (malformed : zframeStrdup frame ≠ c.request)
    (last : c.failures + 1 = requestRetries) (taken : clientStep c (.reply frame) = some c') :
    ¬ GivesUp c' := by
  simp only [clientStep] at taken
  split at taken
  · rename_i waits
    obtain rfl := Option.some.inj taken
    intro givesUp
    have after := givesUp.last
    rw [received_malformed malformed] at after
    exact (after last).1 waits.1
  · cases taken

theorem givesUp_step {e : Event} (before : Counted c) (taken : clientStep c e = some c') :
    GivesUp c' ↔ NotLast c e := by
  constructor
  · intro givesUp
    cases e with
    | reply frame => exact fun malformed last => not_givesUp malformed last taken givesUp
    | _ => trivial
  · exact fun notLast => (before.step notLast taken).givesUp

end Step

/-- **The client gives up in time unless its last retry goes to a malformed reply.** In a
run of the client, whatever the server does, `retries_left` stays in `[0, REQUEST_RETRIES]`
and nothing is polled or sent after the failure numbered `REQUEST_RETRIES` since the last
correct reply, if and only if that failure is never a malformed reply. -/
theorem gives_up_iff {past : List (Client × Event)} {c : Client} (run : Run lpclient past c) :
    Always GivesUp past c ↔ EachStep NotLast past := by
  apply run.exact Counted GivesUp NotLast
  · exact ⟨.start, Counted.start.givesUp⟩
  · intro c e c' counted _ taken
    exact ⟨givesUp_step counted taken, fun notLast => counted.step notLast taken⟩

/-- Three timeouts, after which the client gives up. -/
theorem gives_up_iff_silent : ∃ (past : List (Client × Event)) (c : Client),
    Run lpclient past c ∧ c.phase = .stopped ∧
      (Always GivesUp past c ↔ EachStep NotLast past) := by
  have ran : (lpclient.exec lpclient.start
      [.send 0x2a, .timeout, .timeout, .timeout, .leave]).map (fun c => c.phase) =
        some .stopped := by decide
  obtain ⟨c, done, seen⟩ := Option.map_eq_some_iff.mp ran
  obtain ⟨past, run⟩ := Reachable.start.exec done
  exact ⟨past, c, run, seen, gives_up_iff run⟩

/-- Below zero the count is never zero again, and each timeout sends the request. -/
theorem exec_timeouts {c : Client} (inner : c.phase = .inner) (none_left : c.retriesLeft ≤ 0)
    (n : Nat) : ∃ c', lpclient.exec c (List.replicate n .timeout) = some c' ∧ c'.phase = .inner ∧
      c'.retriesLeft = c.retriesLeft - n ∧ c'.sent = List.replicate n c.request ++ c.sent := by
  induction n generalizing c with
  | zero => exact ⟨c, rfl, inner, by simp, rfl⟩
  | succ n ih =>
      have below : c.retriesLeft - 1 ≠ 0 := by omega
      have step : lpclient.step c .timeout = some c.timedOut := by
        simp [lpclient, clientStep, inner]
      have timedOut : c.timedOut = { c with
          retriesLeft := c.retriesLeft - 1
          failures := c.failures + 1 }.transmit := by
        simp [Client.timedOut, below]
      obtain ⟨c', done, inner', retries, sent⟩ := ih (c := c.timedOut)
        (by rw [timedOut]; exact inner) (by rw [timedOut]; show c.retriesLeft - 1 ≤ 0; omega)
      refine ⟨c', ?_, inner', ?_, ?_⟩
      · rw [List.replicate_succ, System.exec, step]
        exact done
      · rw [retries, timedOut]
        show c.retriesLeft - 1 - (n : Int) = c.retriesLeft - ((n + 1 : Nat) : Int)
        omega
      · rw [sent, timedOut, List.replicate_succ']
        simp [Client.transmit]

/-- Two timeouts and a malformed reply take the three retries, and from there on the client
sends its request again at every timeout. -/
theorem resends_for_ever : ∃ c, Reachable lpclient c ∧ c.failures = requestRetries ∧
    ¬ GivesUp c ∧ ∀ n : Nat, ∃ c', lpclient.exec c (List.replicate n .timeout) = some c' ∧
      c'.phase = .inner ∧ c'.retriesLeft = -n ∧ c'.sent.length = c.sent.length + n := by
  have ran : (lpclient.exec lpclient.start
      [.send 0x2a, .timeout, .timeout, .reply [0x58]]).map
        (fun c => (c.phase, c.retriesLeft, c.failures)) = some (.inner, 0, 3) := by decide
  obtain ⟨c, done, seen⟩ := Option.map_eq_some_iff.mp ran
  obtain ⟨inner, seen⟩ := Prod.mk.inj seen
  obtain ⟨retries, failures⟩ := Prod.mk.inj seen
  refine ⟨c, Reachable.start.exec done, failures, ?_, ?_⟩
  · exact fun givesUp => (givesUp.last failures).1 inner
  · intro n
    obtain ⟨c', done, inner', left, sent⟩ := exec_timeouts inner (Int.le_of_eq retries) n
    refine ⟨c', done, inner', ?_, ?_⟩
    · rw [left, retries, Int.zero_sub]
    · rw [sent, List.length_append, List.length_replicate, Nat.add_comm]

end ZmqPractices.LazyPirate
