import ZmqPractices.Majordomo.Worker

/-!
A worker session over many calls.

The program calls `mdwrk_recv` and the setters in any order, and a call takes any turns
of its loop. A step of the system is a call with what it sends before the loop, or one
turn; `recvLoop_cons` says that a call is the turns it takes. `Moved` lists what a
turn can do.
-/

namespace ZmqPractices.Majordomo.Mdwrk

open Czmq Lib

/-- What the program does with the session, and what a turn of the loop finds. -/
inductive Use where
  | setHeartbeatIntv (heartbeatIntv : Int)
  | setReconnectDelay (reconnectDelay : Int)
  | call (reply : Option Msg)
  | turn (turn : Turn)
deriving DecidableEq, Repr

/-- What happened, for the statements only: a delay was set, a call began, or a turn was
taken on a socket. -/
inductive Event where
  | delay (reconnectDelay : Int)
  | called (reply : Option Msg) (actions : List Action)
  | turned (socket : Nat) (turn : Turn) (result : Result) (actions : List Action)
deriving DecidableEq, Repr

/-- The worker, whether a call is in its loop, and what has happened, newest first. -/
structure Session where
  worker : Worker
  inCall : Bool
  history : List Event
deriving DecidableEq, Repr

variable (clock : Nat → Nat)

def sessionStep (s : Session) : Use → Option Session
  | .setHeartbeatIntv heartbeatIntv =>
      if s.inCall then none
      else some { s with worker := mdwrkSetHeartbeatIntv s.worker heartbeatIntv }
  | .setReconnectDelay reconnectDelay =>
      if s.inCall then none
      else some { s with
        worker := mdwrkSetReconnectDelay s.worker reconnectDelay
        history := .delay reconnectDelay :: s.history }
  | .call reply =>
      let out := mdwrkRecv clock s.worker reply []
      if s.inCall ∨ out.result = .assertion then none
      else some ⟨out.worker, true, .called reply out.actions :: s.history⟩
  | .turn turn =>
      let out := recvLoop clock [turn] s.worker
      if ¬ s.inCall ∨ out.result = .assertion then none
      else some ⟨out.worker, out.result = .pending,
        .turned s.worker.socket turn out.result out.actions :: s.history⟩

/-- The session from `mdwrk_new` on; a failed assertion ends the program. -/
def session (service : Frame) : System Session Use where
  start := ⟨(mdwrkNew clock service).1, false, []⟩
  step := sessionStep clock

/-! ### A call is its turns -/

@[simp] theorem recvLoop_nil_after (self : Worker) (actions : List Action) :
    (recvLoop clock [] self).after actions = ⟨self, .pending, actions⟩ := by
  simp [recvLoop, Outcome.after]

theorem recvLoop_timeout (turns : List Turn) (self : Worker) :
    recvLoop clock (.timeout :: turns) self =
      (recvLoop clock turns (heartbeatIfDue clock (timeOut clock self).1).1).after
        ((timeOut clock self).2 ++ (heartbeatIfDue clock (timeOut clock self).1).2) := by
  rw [recvLoop]

theorem recvLoop_kept {turns : List Turn} {self self' : Worker} {msg : Msg} {branch : Branch}
    (taken : takeMessage self msg = some (self', branch))
    (kept : branch = .heartbeat ∨ branch = .other) :
    recvLoop clock (.message msg :: turns) self =
      (recvLoop clock turns (heartbeatIfDue clock self').1).after
        (heartbeatIfDue clock self').2 := by
  rcases kept with rfl | rfl <;> simp only [recvLoop, taken]

theorem recvLoop_dismissed {turns : List Turn} {self self' : Worker} {msg : Msg}
    (taken : takeMessage self msg = some (self', .disconnect)) :
    recvLoop clock (.message msg :: turns) self =
      (recvLoop clock turns
        (heartbeatIfDue clock (sMdwrkConnectToBroker clock self').1).1).after
          ((sMdwrkConnectToBroker clock self').2 ++
            (heartbeatIfDue clock (sMdwrkConnectToBroker clock self').1).2) := by
  simp only [recvLoop, taken]

/-- A turn that leaves the loop pending, and what the loop then does. -/
theorem recvLoop_pending {turn : Turn} {turns : List Turn} {self self' : Worker}
    {actions : List Action}
    (goes : ∀ turns, recvLoop clock (turn :: turns) self =
      (recvLoop clock turns self').after actions) :
    recvLoop clock (turn :: turns) self =
      if (recvLoop clock [turn] self).result = .pending then
        (recvLoop clock turns (recvLoop clock [turn] self).worker).after
          (recvLoop clock [turn] self).actions
      else recvLoop clock [turn] self := by
  have one := goes []
  rw [recvLoop_nil_after] at one
  rw [one, if_pos rfl, goes]

/-- The loop of a call goes on exactly when its first turn leaves it pending. -/
theorem recvLoop_cons (turn : Turn) (turns : List Turn) (self : Worker) :
    recvLoop clock (turn :: turns) self =
      if (recvLoop clock [turn] self).result = .pending then
        (recvLoop clock turns (recvLoop clock [turn] self).worker).after
          (recvLoop clock [turn] self).actions
      else recvLoop clock [turn] self := by
  cases turn with
  | signalled => simp [recvLoop]
  | interrupted => simp [recvLoop]
  | noMessage => simp [recvLoop]
  | timeout => exact recvLoop_pending clock fun turns => recvLoop_timeout clock turns self
  | message msg =>
      cases taken : takeMessage self msg with
      | none => simp [recvLoop, taken]
      | some out =>
          obtain ⟨self, branch⟩ := out
          cases branch with
          | request body => simp [recvLoop, taken]
          | heartbeat =>
              exact recvLoop_pending clock fun turns => recvLoop_kept clock taken (.inl rfl)
          | disconnect => exact recvLoop_pending clock fun turns => recvLoop_dismissed clock taken
          | other => exact recvLoop_pending clock fun turns => recvLoop_kept clock taken (.inr rfl)

theorem sessionStep_turn {s : Session} {turn : Turn} (inCall : s.inCall = true)
    (survives : (recvLoop clock [turn] s.worker).result ≠ .assertion) :
    sessionStep clock s (.turn turn) = some
      ⟨(recvLoop clock [turn] s.worker).worker,
        (recvLoop clock [turn] s.worker).result = .pending,
        .turned s.worker.socket turn (recvLoop clock [turn] s.worker).result
          (recvLoop clock [turn] s.worker).actions :: s.history⟩ :=
  if_neg (by simp [inCall, survives])

/-- The steps that take the turns of a call which does not fail leave the worker as the
call does, and in the loop exactly when the call is pending. -/
theorem exec_turns (service : Frame) (turns : List Turn) {s : Session} (inCall : s.inCall = true)
    (survives : (recvLoop clock turns s.worker).result ≠ .assertion) :
    ∃ used s', used <+: turns ∧ (session clock service).exec s (used.map .turn) = some s' ∧
      s'.worker = (recvLoop clock turns s.worker).worker ∧
      (s'.inCall = true ↔ (recvLoop clock turns s.worker).result = .pending) := by
  induction turns generalizing s with
  | nil => exact ⟨[], s, List.nil_prefix, rfl, rfl, by simp [inCall, recvLoop]⟩
  | cons turn turns ih =>
      rw [recvLoop_cons] at survives ⊢
      by_cases pending : (recvLoop clock [turn] s.worker).result = .pending
      · rw [if_pos pending] at survives ⊢
        have survived : (recvLoop clock [turn] s.worker).result ≠ .assertion := by simp [pending]
        have step := sessionStep_turn clock inCall survived
        obtain ⟨used, s', isPrefix, ran, same⟩ :=
          ih (s := ⟨_, _, _⟩) (decide_eq_true pending) survives
        refine ⟨turn :: used, s', List.cons_prefix_cons.mpr ⟨rfl, isPrefix⟩, ?_, same⟩
        exact Option.bind_eq_some_iff.mpr ⟨_, step, ran⟩
      · rw [if_neg pending] at survives ⊢
        have step := sessionStep_turn clock inCall survives
        exact ⟨[turn], _, by simp, Option.bind_eq_some_iff.mpr ⟨_, step, rfl⟩, rfl, by simp⟩

/-! ### What a turn can do -/

section

variable (self : Worker)

@[simp] theorem heartbeatIfDue_service : (heartbeatIfDue clock self).1.service = self.service := by
  unfold heartbeatIfDue
  split <;> rfl

@[simp] theorem heartbeatIfDue_socket : (heartbeatIfDue clock self).1.socket = self.socket := by
  unfold heartbeatIfDue
  split <;> rfl

@[simp] theorem heartbeatIfDue_liveness :
    (heartbeatIfDue clock self).1.liveness = self.liveness := by
  unfold heartbeatIfDue
  split <;> rfl

@[simp] theorem heartbeatIfDue_reconnectDelay :
    (heartbeatIfDue clock self).1.reconnectDelay = self.reconnectDelay := by
  unfold heartbeatIfDue
  split <;> rfl

@[simp] theorem heartbeatIfDue_replyTo : (heartbeatIfDue clock self).1.replyTo = self.replyTo := by
  unfold heartbeatIfDue
  split <;> rfl

/-- All that `heartbeatIfDue` can do is send a heartbeat. -/
theorem mem_heartbeatIfDue {self : Worker} {action : Action}
    (mem : action ∈ (heartbeatIfDue clock self).2) :
    action = sMdwrkSendToBroker self mdpwHeartbeat none none := by
  unfold heartbeatIfDue at mem
  split at mem
  · exact List.mem_singleton.mp mem
  · cases mem

/-- The worker as it reconnects: the next delay is twice this one, up to the maximum. -/
def backedOff : Worker :=
  { self with
    liveness := 0
    reconnectDelay :=
      if self.reconnectDelay < reconnectDelayMax then self.reconnectDelay * 2
      else self.reconnectDelay }

/-- What reconnecting does. -/
def reconnect : Worker × List Action :=
  ((sMdwrkConnectToBroker clock (backedOff self)).1,
    sMdwrkSendToBroker self mdpwDisconnect none none :: .sleep self.reconnectDelay ::
      (sMdwrkConnectToBroker clock (backedOff self)).2)

end

theorem timeOut_waits {self : Worker} {left : Nat} (counted : decrement self.liveness = left)
    (waits : left ≠ 0) : timeOut clock self = ({ self with liveness := left }, []) := by
  unfold timeOut
  simp only [counted]
  rw [if_pos waits]

theorem timeOut_reconnects {self : Worker} (gone : decrement self.liveness = 0) :
    timeOut clock self = reconnect clock self := by
  unfold timeOut reconnect backedOff
  simp only [gone]
  rw [if_neg (not_not.mpr rfl)]
  split <;> rfl

/-- What a turn of the loop does to the worker and leaves as the outcome: the failed
assertion apart, one constructor for each way through the body of the loop. -/
inductive Moved (self : Worker) : Turn → Outcome → Prop
  | ended {turn : Turn} (stops : turn ∈ [.signalled, .interrupted, .noMessage]) :
      Moved self turn ⟨self, .returned none, []⟩
  | request {msg body : Msg} {client : Frame} {content : Msg}
      (framed : msg = [] :: mdpwHeader :: mdpwRequest :: client :: content)
      (unwrapped : body = (zmsgUnwrap (client :: content)).2) :
      Moved self (.message msg)
        ⟨{ heard self with replyTo := some client }, .returned (some body), []⟩
  | kept {msg : Msg} {branch : Branch} (taken : takeMessage self msg = some (heard self, branch))
      (kept : branch = .heartbeat ∨ branch = .other) :
      Moved self (.message msg)
        ⟨(heartbeatIfDue clock (heard self)).1, .pending, (heartbeatIfDue clock (heard self)).2⟩
  | dismissed {msg : Msg} {connected : Worker × List Action}
      (taken : takeMessage self msg = some (heard self, .disconnect))
      (connects : connected = sMdwrkConnectToBroker clock (heard self)) :
      Moved self (.message msg)
        ⟨(heartbeatIfDue clock connected.1).1, .pending,
          connected.2 ++ (heartbeatIfDue clock connected.1).2⟩
  | waited {left : Nat} {waiting : Worker} (counted : decrement self.liveness = left)
      (waits : left ≠ 0) (same : waiting = { self with liveness := left }) :
      Moved self .timeout
        ⟨(heartbeatIfDue clock waiting).1, .pending, (heartbeatIfDue clock waiting).2⟩
  | reconnected {connected : Worker × List Action} (gone : decrement self.liveness = 0)
      (connects : connected = reconnect clock self) :
      Moved self .timeout
        ⟨(heartbeatIfDue clock connected.1).1, .pending,
          connected.2 ++ (heartbeatIfDue clock connected.1).2⟩

/-- A message that passes the checks renews the liveness and takes its branch; only a
request, which has a client frame, sets `reply_to`. -/
theorem takeMessage_cases {self self' : Worker} {msg : Msg} {branch : Branch}
    (taken : takeMessage self msg = some (self', branch)) :
    (∃ client content, msg = [] :: mdpwHeader :: mdpwRequest :: client :: content ∧
      self' = { heard self with replyTo := some client } ∧
      branch = .request (zmsgUnwrap (client :: content)).2) ∨
    (self' = heard self ∧ (branch = .heartbeat ∨ branch = .disconnect ∨ branch = .other)) := by
  simp only [takeMessage] at taken
  split at taken
  · cases taken
  · rename_i enough
    split at taken
    · rename_i empty header command rest
      split_ifs at taken with nonempty foreign isRequest isHeartbeat isDisconnect
      · have empty := not_not.mp nonempty
        have header := zframeStreq_iff.mp (by simpa using foreign)
        have command := zframeStreq_iff.mp isRequest
        cases rest with
        | nil => exact absurd (by simp [zmsgSize]) enough
        | cons client content =>
            obtain ⟨body, unwrapped⟩ := zmsgUnwrap_cons client content
            rw [unwrapped] at taken
            cases taken
            exact .inl ⟨client, content, by rw [empty, header, command], rfl,
              by rw [unwrapped]⟩
      · cases taken
        exact .inr ⟨rfl, .inl rfl⟩
      · cases taken
        exact .inr ⟨rfl, .inr (.inl rfl)⟩
      · cases taken
        exact .inr ⟨rfl, .inr (.inr rfl)⟩
    · cases taken

/-- Every turn that fails no assertion goes one of these ways. -/
theorem recvLoop_moved {turn : Turn} {self : Worker}
    (survives : (recvLoop clock [turn] self).result ≠ .assertion) :
    Moved clock self turn (recvLoop clock [turn] self) := by
  cases turn with
  | signalled => exact .ended (by decide)
  | interrupted => exact .ended (by decide)
  | noMessage => exact .ended (by decide)
  | timeout =>
      rw [recvLoop_timeout, recvLoop_nil_after]
      by_cases gone : decrement self.liveness = 0
      · rw [timeOut_reconnects clock gone]
        exact .reconnected gone rfl
      · rw [timeOut_waits clock rfl gone]
        exact .waited rfl gone rfl
  | message msg =>
      cases taken : takeMessage self msg with
      | none =>
          refine absurd ?_ survives
          simp only [recvLoop, taken]
      | some out =>
          obtain ⟨self', branch⟩ := out
          rcases takeMessage_cases taken with
            ⟨client, content, framed, rfl, rfl⟩ | ⟨rfl, rfl | rfl | rfl⟩
          · simpa only [recvLoop, taken] using .request framed rfl
          · rw [recvLoop_kept clock taken (.inl rfl), recvLoop_nil_after]
            exact .kept taken (.inl rfl)
          · rw [recvLoop_dismissed clock taken, recvLoop_nil_after]
            exact .dismissed taken rfl
          · rw [recvLoop_kept clock taken (.inr rfl), recvLoop_nil_after]
            exact .kept taken (.inr rfl)

/-- A turn that returns a request brings its client's frame, and every other turn leaves
`reply_to` alone. -/
theorem Moved.replyTo {self : Worker} {turn : Turn} {out : Outcome}
    (moved : Moved clock self turn out) :
    (∃ body, out.result = .returned (some body) ∧ out.worker.replyTo.isSome) ∨
      ((∀ body, out.result ≠ .returned (some body)) ∧ out.worker.replyTo = self.replyTo) := by
  cases moved with
  | ended stops => exact .inr ⟨by simp, rfl⟩
  | @request msg body client content framed unwrapped => exact .inl ⟨body, rfl, rfl⟩
  | kept taken kept => exact .inr ⟨by simp, heartbeatIfDue_replyTo clock _⟩
  | dismissed taken connects =>
      subst connects
      exact .inr ⟨by simp, heartbeatIfDue_replyTo clock _⟩
  | waited counts waits same =>
      subst same
      exact .inr ⟨by simp, heartbeatIfDue_replyTo clock _⟩
  | reconnected gone connects =>
      subst connects
      exact .inr ⟨by simp, heartbeatIfDue_replyTo clock _⟩

/-! ### What a step can do -/

theorem step_setHeartbeatIntv {s s' : Session} {heartbeatIntv : Int}
    (taken : sessionStep clock s (.setHeartbeatIntv heartbeatIntv) = some s') :
    s.inCall = false ∧
      s' = { s with worker := mdwrkSetHeartbeatIntv s.worker heartbeatIntv } := by
  simp only [sessionStep] at taken
  split at taken
  · cases taken
  · rename_i idle
    exact ⟨Bool.not_eq_true _ ▸ idle, (Option.some.inj taken).symm⟩

theorem step_setReconnectDelay {s s' : Session} {reconnectDelay : Int}
    (taken : sessionStep clock s (.setReconnectDelay reconnectDelay) = some s') :
    s.inCall = false ∧ s' = { s with
      worker := mdwrkSetReconnectDelay s.worker reconnectDelay
      history := .delay reconnectDelay :: s.history } := by
  simp only [sessionStep] at taken
  split at taken
  · cases taken
  · rename_i idle
    exact ⟨Bool.not_eq_true _ ▸ idle, (Option.some.inj taken).symm⟩

theorem step_turn {s s' : Session} {turn : Turn}
    (taken : sessionStep clock s (.turn turn) = some s') :
    s.inCall = true ∧ ∃ out, Moved clock s.worker turn out ∧
      s' = ⟨out.worker, out.result = .pending,
        .turned s.worker.socket turn out.result out.actions :: s.history⟩ := by
  simp only [sessionStep] at taken
  split at taken
  · cases taken
  · rename_i goes
    rw [not_or, not_not] at goes
    obtain ⟨inCall, survives⟩ := goes
    exact ⟨inCall, _, recvLoop_moved clock survives, (Option.some.inj taken).symm⟩

/-- A call begins without a reply, or sends its reply to the client kept in `reply_to`. -/
theorem step_call {s s' : Session} {reply : Option Msg}
    (taken : sessionStep clock s (.call reply) = some s') :
    s.inCall = false ∧
      ((reply = none ∧ s' = ⟨s.worker, true, .called none [] :: s.history⟩) ∨
        ∃ body client, reply = some body ∧ s.worker.replyTo = some client ∧
          s' = ⟨s.worker, true, .called (some body)
            [sMdwrkSendToBroker s.worker mdpwReply none (some (zmsgWrap body client))] ::
              s.history⟩) := by
  simp only [sessionStep] at taken
  split at taken
  · cases taken
  · rename_i goes
    rw [not_or, Bool.not_eq_true] at goes
    obtain ⟨idle, survives⟩ := goes
    refine ⟨idle, ?_⟩
    cases reply with
    | none => exact .inl ⟨rfl, (Option.some.inj taken).symm⟩
    | some body =>
        cases kept : s.worker.replyTo with
        | none => simp [mdwrkRecv, kept] at survives
        | some client =>
            refine .inr ⟨body, client, rfl, rfl, ?_⟩
            simpa [mdwrkRecv, kept] using (Option.some.inj taken).symm

end ZmqPractices.Majordomo.Mdwrk
