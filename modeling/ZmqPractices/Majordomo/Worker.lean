import Mathlib.Algebra.Group.Nat.Defs
import ZmqPractices.Majordomo.System

/-!
The Majordomo worker (`mdwrkapi.c`).

A worker holds one DEALER socket at a time, numbered by `socket`. `mdwrk_recv` sends
the reply it is given, and then polls until a request arrives, a call is interrupted
or an assertion fails; what its polls find is a list of turns of its loop. The
messages a conforming broker sends are `BrokerMsg`.

`accepts_iff` compares the two: the frame count that is checked before the command is
known leaves room for a request only.
-/

namespace ZmqPractices.Majordomo.Mdwrk

open Czmq Lib

def heartbeatLiveness : Nat := 3
def heartbeatInterval : Int := 2000
def reconnectDelayInit : Int := 2000
def reconnectDelayMax : Int := 32000

/-- `mdwrk_t`. `tick` is the number of clock readings taken. -/
structure Worker where
  service : Frame
  socket : Nat
  heartbeatAt : Int
  liveness : Nat
  heartbeatIntv : Int
  reconnectDelay : Int
  replyTo : Option Frame
  tick : Nat
deriving DecidableEq, Repr

/-- What a worker does besides computing. -/
inductive Action where
  | connect (socket : Nat)
  | send (socket : Nat) (msg : Msg)
  | sleep (delay : Int)
deriving DecidableEq, Repr

/-- `s_mdwrk_send_to_broker`. -/
def sMdwrkSendToBroker (self : Worker) (command : Frame) (option : Option Frame)
    (msg : Option Msg) : Action :=
  let msg := msg.getD []
  let msg := option.elim msg (zmsgPush msg)
  .send self.socket (zmsgPush (zmsgPush (zmsgPush msg command) mdpwHeader) [])

/-- `--self->liveness` on a `size_t`. -/
def decrement (liveness : Nat) : Nat := (liveness + (2 ^ 64 - 1)) % 2 ^ 64

section

variable (clock : Nat → Nat)

/-- `s_mdwrk_connect_to_broker`. -/
def sMdwrkConnectToBroker (self : Worker) : Worker × List Action :=
  let self := { self with socket := self.socket + 1 }
  ({ self with
      liveness := heartbeatLiveness
      heartbeatAt := clock self.tick + self.heartbeatIntv
      tick := self.tick + 1 },
    [.connect self.socket, sMdwrkSendToBroker self mdpwReady (some self.service) none])

/-- `mdwrk_new`. -/
def mdwrkNew (service : Frame) : Worker × List Action :=
  sMdwrkConnectToBroker clock
    { service := service
      socket := 0
      heartbeatAt := 0
      liveness := 0
      heartbeatIntv := heartbeatInterval
      reconnectDelay := reconnectDelayInit
      replyTo := none
      tick := 0 }

def mdwrkSetHeartbeatIntv (self : Worker) (heartbeatIntv : Int) : Worker :=
  { self with heartbeatIntv := heartbeatIntv }

def mdwrkSetReconnectDelay (self : Worker) (reconnectDelay : Int) : Worker :=
  { self with reconnectDelay := reconnectDelay }

/-- The branch of `mdwrk_recv` a message takes. -/
inductive Branch where
  | request (body : Msg)
  | heartbeat
  | disconnect
  | other
deriving DecidableEq, Repr

/-- A message has arrived: any traffic renews the broker's liveness. -/
def heard (self : Worker) : Worker :=
  { self with liveness := heartbeatLiveness, reconnectDelay := reconnectDelayInit }

/-- The envelope check and the choice of the branch; `none` is a failed assertion. -/
def takeMessage (self : Worker) (msg : Msg) : Option (Worker × Branch) :=
  let self := heard self
  if zmsgSize msg < 6 then none
  else
    match msg with
    | empty :: header :: command :: msg =>
        if empty ≠ [] then none
        else if !zframeStreq header mdpwHeader then none
        else if zframeStreq command mdpwRequest then
          let (client, body) := zmsgUnwrap msg
          some ({ self with replyTo := client }, .request body)
        else if zframeStreq command mdpwHeartbeat then some (self, .heartbeat)
        else if zframeStreq command mdpwDisconnect then some (self, .disconnect)
        else some (self, .other)
    | _ => none

/-- Send a heartbeat if it is time. -/
def heartbeatIfDue (self : Worker) : Worker × List Action :=
  if self.heartbeatAt ≤ clock self.tick then
    ({ self with
        heartbeatAt := clock (self.tick + 1) + self.heartbeatIntv
        tick := self.tick + 2 },
      [sMdwrkSendToBroker self mdpwHeartbeat none none])
  else ({ self with tick := self.tick + 1 }, [])

/-- A poll that timed out: after `heartbeatLiveness` of them the broker is considered
offline, and the worker reconnects after a delay. -/
def timeOut (self : Worker) : Worker × List Action :=
  let self := { self with liveness := decrement self.liveness }
  if self.liveness ≠ 0 then (self, [])
  else
    let delay := self.reconnectDelay
    let disconnect := sMdwrkSendToBroker self mdpwDisconnect none none
    let self :=
      if delay < reconnectDelayMax then { self with reconnectDelay := delay * 2 } else self
    let out := sMdwrkConnectToBroker clock self
    (out.1, disconnect :: .sleep delay :: out.2)

/-- What one turn of the loop finds: the interrupt flag, an interrupted poll, an
interrupted receive, a message, or nothing. -/
inductive Turn where
  | signalled
  | interrupted
  | noMessage
  | message (msg : Msg)
  | timeout
deriving DecidableEq, Repr

/-- How a call ends; `pending` when it needs more turns. -/
inductive Result where
  | returned (body : Option Msg)
  | assertion
  | pending
deriving DecidableEq, Repr

/-- A call's effect on the worker, its result, and what it did. -/
structure Outcome where
  worker : Worker
  result : Result
  actions : List Action
deriving DecidableEq, Repr

/-- Actions that come before the rest of a call. -/
def Outcome.after (actions : List Action) (out : Outcome) : Outcome :=
  { out with actions := actions ++ out.actions }

/-- The loop of `mdwrk_recv`. -/
def recvLoop : List Turn → Worker → Outcome
  | [], self => ⟨self, .pending, []⟩
  | .signalled :: _, self => ⟨self, .returned none, []⟩
  | .interrupted :: _, self => ⟨self, .returned none, []⟩
  | .noMessage :: _, self => ⟨self, .returned none, []⟩
  | .message msg :: turns, self =>
      match takeMessage self msg with
      | none => ⟨heard self, .assertion, []⟩
      | some (self, .request body) => ⟨self, .returned (some body), []⟩
      | some (self, .disconnect) =>
          let connected := sMdwrkConnectToBroker clock self
          let beaten := heartbeatIfDue clock connected.1
          (recvLoop turns beaten.1).after (connected.2 ++ beaten.2)
      | some (self, _) =>
          let beaten := heartbeatIfDue clock self
          (recvLoop turns beaten.1).after beaten.2
  | .timeout :: turns, self =>
      let timed := timeOut clock self
      let beaten := heartbeatIfDue clock timed.1
      (recvLoop turns beaten.1).after (timed.2 ++ beaten.2)

/-- `mdwrk_recv`: send the reply to the last request, if there is one, and wait for
the next. -/
def mdwrkRecv (self : Worker) (reply : Option Msg) (turns : List Turn) : Outcome :=
  match reply with
  | none => recvLoop clock turns self
  | some reply =>
      match self.replyTo with
      | none => ⟨self, .assertion, []⟩
      | some client =>
          let send := sMdwrkSendToBroker self mdpwReply none (some (zmsgWrap reply client))
          (recvLoop clock turns self).after [send]

end

/-! ### What a broker sends -/

/-- The messages of a conforming broker. A request has at least one body frame. -/
inductive BrokerMsg where
  | request (client : Frame) (body : Msg) (nonempty : body ≠ [])
  | heartbeat
  | disconnect

/-- The frames of a message: a command without body is laid out as
`s_mdwrk_send_to_broker` lays out its own. -/
def BrokerMsg.frames : BrokerMsg → Msg
  | .request client body _ => [] :: mdpwHeader :: mdpwRequest :: zmsgWrap body client
  | .heartbeat => [[], mdpwHeader, mdpwHeartbeat]
  | .disconnect => [[], mdpwHeader, mdpwDisconnect]

/-- The branch a message is meant for. -/
def BrokerMsg.branch : BrokerMsg → Branch
  | .request _ body _ => .request body
  | .heartbeat => .heartbeat
  | .disconnect => .disconnect

/-- The worker when it gets there. -/
def BrokerMsg.taken (self : Worker) : BrokerMsg → Worker
  | .request client _ _ => { heard self with replyTo := some client }
  | .heartbeat => heard self
  | .disconnect => heard self

/-- The worker takes the message as meant: no assertion fails in `mdwrk_recv`, the
message reaches its branch, and a request is returned as its body frames with
`reply_to` set to the client. -/
structure Accepts (clock : Nat → Nat) (w : Worker) (m : BrokerMsg) : Prop where
  survives : (mdwrkRecv clock w none [.message m.frames]).result ≠ .assertion
  branch : takeMessage w m.frames = some (m.taken w, m.branch)
  returned : ∀ client body nonempty, m = .request client body nonempty →
    ∀ turns, mdwrkRecv clock w none (.message m.frames :: turns) =
      ⟨{ heard w with replyTo := some client }, .returned (some body), []⟩

/-- A request passes the frame count and is unwrapped. -/
theorem takeMessage_request (self : Worker) (client : Frame) {body : Msg} (nonempty : body ≠ []) :
    takeMessage self (BrokerMsg.request client body nonempty).frames =
      some ({ heard self with replyTo := some client }, .request body) := by
  obtain ⟨frame, rest, rfl⟩ := List.exists_cons_of_ne_nil nonempty
  have enough : ¬ zmsgSize (BrokerMsg.request client (frame :: rest) nonempty).frames < 6 := by
    simp only [BrokerMsg.frames, zmsgWrap, zmsgPush, zmsgSize_cons]
    omega
  unfold takeMessage
  rw [if_neg enough]
  simp [BrokerMsg.frames, zmsgUnwrap_zmsgWrap]

/-- **What the worker accepts.** In every state, a worker takes a message of a
conforming broker as meant exactly when it is a request. -/
theorem accepts_iff (clock : Nat → Nat) (self : Worker) (m : BrokerMsg) :
    Accepts clock self m ↔ ∃ client body nonempty, m = .request client body nonempty := by
  constructor
  · rintro ⟨-, branch, -⟩
    cases m with
    | request client body nonempty => exact ⟨client, body, nonempty, rfl⟩
    | heartbeat => cases branch
    | disconnect => cases branch
  · rintro ⟨client, body, nonempty, rfl⟩
    have taken := takeMessage_request self client nonempty
    have returned : ∀ turns, mdwrkRecv clock self none
        (.message (BrokerMsg.request client body nonempty).frames :: turns) =
          ⟨{ heard self with replyTo := some client }, .returned (some body), []⟩ := by
      intro turns
      simp only [mdwrkRecv, recvLoop, taken]
    constructor
    · rw [returned]
      exact fun failed => by cases failed
    · exact taken
    · rintro _ _ _ ⟨⟩
      exact returned

/-- A heartbeat of the broker fails the frame count. -/
theorem heartbeat_fails :
    (mdwrkRecv id (mdwrkNew id [0x65]).1 none [.message BrokerMsg.heartbeat.frames]).result =
        .assertion ∧
      ¬ Accepts id (mdwrkNew id [0x65]).1 .heartbeat := by
  refine ⟨by decide, fun accepts => ?_⟩
  exact accepts.survives (by decide)

end ZmqPractices.Majordomo.Mdwrk
