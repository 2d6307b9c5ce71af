import ZmqPractices.Majordomo.System

/-!
The Majordomo client (`mdcliapi.c`).

A session holds one REQ socket at a time. Such a socket sends a request only when it
does not await a reply; a send at any other moment fails and sends nothing. Closing
the socket gives up the reply, and a new socket awaits none. `awaiting` is what a
session remembers of this between two calls: the call whose request its socket has
sent without having received the reply.

What the polls of one call find is a list of turns of its loop, each of which either
sees the interrupt flag before it sends, or sends and polls. Calls are numbered; a
reply is returned together with the number of the call whose request it answers.
-/

namespace ZmqPractices.Majordomo

open Czmq Lib

/-- `MDPC_CLIENT`. -/
def mdpcClient : Frame := mdpcHeader

/-- `mdcli_t`: the number of its socket, and the call that socket awaits a reply for. -/
structure Mdcli where
  retries : Int
  socket : Nat
  awaiting : Option Nat
deriving DecidableEq, Repr

/-- What `zmq_poll` and the receive after it find. -/
inductive Poll where
  | reply (msg : Msg)
  | timeout
  | interrupted
deriving DecidableEq, Repr

/-- One turn of the loop of `mdcli_send`. -/
inductive Turn where
  | signalled
  | polled (poll : Poll)
deriving DecidableEq, Repr

/-- How a call ends: with the body of a reply and the call that reply answers, with
NULL, or on a failed assertion; `pending` when it needs more turns. -/
inductive Result where
  | reply (body : Msg) (answers : Nat)
  | null
  | assertion
  | pending
deriving DecidableEq, Repr

/-- A message that left a socket. -/
structure Transmission where
  socket : Nat
  call : Nat
  frames : Msg
deriving DecidableEq, Repr

/-- A call's effect on the session, its result, and what it put on the wire. -/
structure Outcome where
  session : Mdcli
  result : Result
  sent : List Transmission
deriving DecidableEq, Repr

/-- `mdcli_new`, after it has connected. -/
def mdcliNew : Mdcli := ⟨3, 0, none⟩

/-- `mdcli_set_retries`. -/
def mdcliSetRetries (self : Mdcli) (retries : Int) : Mdcli := { self with retries := retries }

/-- `s_mdcli_connect_to_broker`: close the socket and open a new one. -/
def sMdcliConnectToBroker (self : Mdcli) : Mdcli :=
  { self with socket := self.socket + 1, awaiting := none }

/-- `zmsg_send` on the REQ socket. -/
def Mdcli.transmit (self : Mdcli) (call : Nat) (frames : Msg) : Mdcli × List Transmission :=
  match self.awaiting with
  | none => ({ self with awaiting := some call }, [⟨self.socket, call, frames⟩])
  | some _ => (self, [])

/-- Prefix the request with the protocol frames. -/
def mdcliRequest (service : Frame) (request : Msg) : Msg :=
  zmsgPush (zmsgPush request mdpcClient) service

/-- The protocol check of a reply; `none` is a failed assertion. -/
def checkReply (service : Frame) (reply : Msg) : Option Msg :=
  if zmsgSize reply < 3 then none
  else
    match zmsgPop reply with
    | (none, _) => none
    | (some header, reply) =>
        if !zframeStreq header mdpcClient then none
        else
          match zmsgPop reply with
          | (none, _) => none
          | (some replyService, reply) =>
              if zframeStreq replyService service then some reply else none

/-- The loop of `mdcli_send`. -/
def sendLoop (call : Nat) (service : Frame) (request : Msg) :
    List Turn → Int → Mdcli → Outcome
  | [], left, self => ⟨self, if left = 0 then .null else .pending, []⟩
  | .signalled :: _, _, self => ⟨self, .null, []⟩
  | .polled poll :: turns, left, self =>
      if left = 0 then ⟨self, .null, []⟩
      else
        let asked := self.awaiting.getD call
        let (self, sent) := self.transmit call request
        match poll with
        | .interrupted => ⟨self, .null, sent⟩
        | .reply msg =>
            let self := { self with awaiting := none }
            match checkReply service msg with
            | none => ⟨self, .assertion, sent⟩
            | some body => ⟨self, .reply body asked, sent⟩
        | .timeout =>
            let left := left - 1
            if left = 0 then ⟨self, .null, sent⟩
            else
              let out := sendLoop call service request turns left (sMdcliConnectToBroker self)
              { out with sent := sent ++ out.sent }

/-- `mdcli_send`. -/
def mdcliSend (self : Mdcli) (call : Nat) (service : Frame) (request : Msg) (turns : List Turn) :
    Outcome :=
  sendLoop call service (mdcliRequest service request) turns self.retries self

/-! ### Sessions -/

/-- A session, the number of calls it has made, and for each reply it returned the
call that returned it and the call it answers. -/
structure Session where
  client : Mdcli
  calls : Nat
  answers : List (Nat × Nat)
deriving DecidableEq, Repr

/-- What the caller does. -/
inductive Use where
  | send (service : Frame) (request : Msg) (turns : List Turn)
  | setRetries (retries : Int)
deriving DecidableEq, Repr

/-- A session as a system. A call that needs more turns than it is given is not over
yet, and a failed assertion ends the program. -/
def mdcliSession : System Session Use where
  start := ⟨mdcliNew, 0, []⟩
  step s
    | .setRetries retries => some { s with client := mdcliSetRetries s.client retries }
    | .send service request turns =>
        let out := mdcliSend s.client s.calls service request turns
        match out.result with
        | .reply _ answers =>
            some ⟨out.session, s.calls + 1, (s.calls, answers) :: s.answers⟩
        | .null => some ⟨out.session, s.calls + 1, s.answers⟩
        | .assertion => none
        | .pending => none

/-! ### What a call answers and what it leaves behind -/

section

variable {call : Nat} {service : Frame} {request : Msg}

/-- A turn that finds a reply ends the call, and the reply answers the call the socket
was waiting for. -/
theorem sendLoop_reply {turns : List Turn} {left : Int} {self : Mdcli} {msg : Msg}
    (polls : left ≠ 0) :
    sendLoop call service request (.polled (.reply msg) :: turns) left self =
      ⟨{ (self.transmit call request).1 with awaiting := none },
        (checkReply service msg).elim .assertion fun body => .reply body (self.awaiting.getD call),
        (self.transmit call request).2⟩ := by
  simp only [sendLoop, polls, if_false]
  cases checkReply service msg <;> rfl

/-- An interrupted poll ends the call and leaves the socket waiting. -/
theorem sendLoop_interrupted {turns : List Turn} {left : Int} {self : Mdcli} (polls : left ≠ 0) :
    sendLoop call service request (.polled .interrupted :: turns) left self =
      ⟨(self.transmit call request).1, .null, (self.transmit call request).2⟩ := by
  simp only [sendLoop, polls, if_false]

/-- So does the last timeout. -/
theorem sendLoop_abandon {turns : List Turn} {left : Int} {self : Mdcli} (polls : left ≠ 0)
    (last : left - 1 = 0) :
    sendLoop call service request (.polled .timeout :: turns) left self =
      ⟨(self.transmit call request).1, .null, (self.transmit call request).2⟩ := by
  simp only [sendLoop, polls, last, if_false, if_true]

/-- A turn that times out, with retries left, goes on with a new socket. -/
theorem sendLoop_timeout {turns : List Turn} {left : Int} {self : Mdcli} (polls : left ≠ 0)
    (again : left - 1 ≠ 0) :
    sendLoop call service request (.polled .timeout :: turns) left self =
      let out := sendLoop call service request turns (left - 1) (sMdcliConnectToBroker self)
      { out with sent := (self.transmit call request).2 ++ out.sent } := by
  obtain ⟨retries, socket, awaiting⟩ := self
  simp only [sendLoop, polls, again, if_false]
  cases awaiting <;> rfl

/-- After a send the socket awaits the call it awaited before, or this one. -/
theorem transmit_awaiting (self : Mdcli) (call : Nat) (frames : Msg) :
    (self.transmit call frames).1.awaiting = some (self.awaiting.getD call) := by
  obtain ⟨retries, socket, awaiting⟩ := self
  cases awaiting <;> rfl

theorem awaiting_getD {self : Mdcli} {call r : Nat} (asked : self.awaiting.getD call = r) :
    r = call ∨ self.awaiting = some r := by
  cases awaiting : self.awaiting with
  | none => exact .inl (by rw [← asked, awaiting]; rfl)
  | some old => exact .inr (by rw [← asked, awaiting]; rfl)

/-- The rule for the loop of a call: it ends without polling, the poll of its first turn
ends it, or that turn times out and the rest goes on with a new socket. -/
theorem sendLoop_rule {motive : List Turn → Int → Mdcli → Outcome → Prop}
    (quiet : ∀ turns left self result, (∀ body asked, result ≠ .reply body asked) →
      motive turns left self ⟨self, result, []⟩)
    (reply : ∀ msg turns left self, left ≠ 0 → motive (.polled (.reply msg) :: turns) left self
      ⟨{ (self.transmit call request).1 with awaiting := none },
        (checkReply service msg).elim .assertion fun body => .reply body (self.awaiting.getD call),
        (self.transmit call request).2⟩)
    (gives_up : ∀ turns left self, motive turns left self
      ⟨(self.transmit call request).1, .null, (self.transmit call request).2⟩)
    (again : ∀ turns left self out, motive turns (left - 1) (sMdcliConnectToBroker self) out →
      motive (.polled .timeout :: turns) left self
        { out with sent := (self.transmit call request).2 ++ out.sent })
    (turns : List Turn) (left : Int) (self : Mdcli) :
    motive turns left self (sendLoop call service request turns left self) := by
  induction turns generalizing left self with
  | nil =>
      apply quiet
      intro body asked
      split <;> exact Result.noConfusion
  | cons turn turns ih =>
      match turn with
      | .signalled => exact quiet _ _ _ _ fun _ _ => Result.noConfusion
      | .polled poll =>
          by_cases none_left : left = 0
          · simp only [sendLoop, none_left, if_true]
            exact quiet _ _ _ _ fun _ _ => Result.noConfusion
          cases poll with
          | reply msg =>
              rw [sendLoop_reply none_left]
              exact reply msg turns left self none_left
          | interrupted =>
              rw [sendLoop_interrupted none_left]
              exact gives_up _ left self
          | timeout =>
              by_cases last : left - 1 = 0
              · rw [sendLoop_abandon none_left last]
                exact gives_up _ left self
              · rw [sendLoop_timeout none_left last]
                exact again turns left self _ (ih (left - 1) _)

/-- A reply that is returned answers this call, unless it was found at the first poll;
and the socket is left awaiting this call, or what it awaited before. -/
theorem sendLoop_answers (turns : List Turn) (left : Int) (self : Mdcli) :
    (∀ body asked, (sendLoop call service request turns left self).result = .reply body asked →
      asked = call ∨ left ≠ 0 ∧ ∃ msg, turns.head? = some (.polled (.reply msg)) ∧
        self.awaiting = some asked) ∧
    ∀ r, (sendLoop call service request turns left self).session.awaiting = some r →
      r = call ∨ self.awaiting = some r := by
  apply sendLoop_rule (motive := fun turns left self out =>
    (∀ body asked, out.result = .reply body asked →
      asked = call ∨ left ≠ 0 ∧ ∃ msg, turns.head? = some (.polled (.reply msg)) ∧
        self.awaiting = some asked) ∧
    ∀ r, out.session.awaiting = some r → r = call ∨ self.awaiting = some r)
  · intro turns left self result none
    exact ⟨fun body asked returned => absurd returned (none body asked), fun r => .inr⟩
  · intro msg turns left self polls
    constructor
    · intro body asked returned
      cases checked : checkReply service msg with
      | none => rw [checked] at returned; cases returned
      | some content =>
          rw [checked] at returned
          cases returned
          rcases awaiting_getD rfl with same | earlier
          · exact .inl same
          · exact .inr ⟨polls, msg, rfl, earlier⟩
    · rintro r ⟨⟩
  · intro turns left self
    constructor
    · rintro body asked ⟨⟩
    · intro r awaits
      have here := (transmit_awaiting self call request).symm.trans awaits
      exact awaiting_getD (Option.some.inj here)
  · -- the new socket awaits nothing, so the rest of the call is about this call only
    rintro turns left self out ⟨answers, leaves⟩
    constructor
    · intro body asked returned
      rcases answers body asked returned with same | ⟨_, _, _, ⟨⟩⟩
      exact .inl same
    · intro r awaits
      rcases leaves r awaits with same | ⟨⟨⟩⟩
      exact .inl same

/-- What a call transmits is its own prefixed request. -/
theorem sendLoop_sent (turns : List Turn) (left : Int) (self : Mdcli) :
    ∀ tx ∈ (sendLoop call service request turns left self).sent,
      tx.call = call ∧ tx.frames = request := by
  have own : ∀ self : Mdcli, ∀ tx ∈ (self.transmit call request).2,
      tx.call = call ∧ tx.frames = request := by
    rintro ⟨retries, socket, awaiting⟩ tx mem
    cases awaiting with
    | none =>
        obtain rfl := List.mem_singleton.mp mem
        exact ⟨rfl, rfl⟩
    | some old => cases mem
  apply sendLoop_rule
    (motive := fun _ _ _ out => ∀ tx ∈ out.sent, tx.call = call ∧ tx.frames = request)
  · intro turns left self result _ tx mem
    cases mem
  · exact fun msg turns left self _ => own self
  · exact fun turns left self => own self
  · intro turns left self out later tx mem
    rcases List.mem_append.mp mem with here | rest
    · exact own self tx here
    · exact later tx rest

end

/-! ### Late replies -/

/-- Every reply a call returned answers the request of that call. -/
def NoStale (s : Session) : Prop := ∀ p ∈ s.answers, p.2 = p.1

/-- A call that polls does not find a reply at its first poll while the socket still
awaits the reply to an earlier call. -/
def FreshReply (s : Session) : Use → Prop
  | .send _ _ turns =>
      s.client.retries ≠ 0 → ∀ msg, turns.head? = some (.polled (.reply msg)) →
        s.client.awaiting = none
  | .setRetries _ => True

/-- The socket awaits the reply to a call that has been made. -/
def Numbered (s : Session) : Prop := ∀ r, s.client.awaiting = some r → r < s.calls

/-- A reply found at the first poll is the result, or fails the protocol check. -/
theorem mdcliSend_first_reply {self : Mdcli} {turns : List Turn} {msg : Msg} (call : Nat)
    (service : Frame) (request : Msg) (polls : self.retries ≠ 0)
    (first : turns.head? = some (.polled (.reply msg))) :
    (mdcliSend self call service request turns).result = .assertion ∨
      ∃ body, (mdcliSend self call service request turns).result =
        .reply body (self.awaiting.getD call) := by
  obtain ⟨turns, rfl⟩ := List.head?_eq_some_iff.mp first
  rw [mdcliSend, sendLoop_reply polls]
  cases checkReply service msg with
  | none => exact .inl rfl
  | some body => exact .inr ⟨body, rfl⟩

theorem asked_of_first_reply {self : Mdcli} {turns : List Turn} {msg body : Msg} {call asked : Nat}
    {service : Frame} {request : Msg} (polls : self.retries ≠ 0)
    (first : turns.head? = some (.polled (.reply msg)))
    (returned : (mdcliSend self call service request turns).result = .reply body asked) :
    asked = self.awaiting.getD call := by
  rcases mdcliSend_first_reply call service request polls first with failed | ⟨_, reply⟩
  · rw [returned] at failed
    cases failed
  · rw [returned] at reply
    exact (Result.reply.inj reply).2

/-- The socket a call leaves awaits this call or an earlier one. -/
theorem Numbered.mdcliSend {s : Session} (numbered : Numbered s) {service : Frame} {request : Msg}
    {turns : List Turn} {r : Nat}
    (awaits : (mdcliSend s.client s.calls service request turns).session.awaiting = some r) :
    r < s.calls + 1 := by
  rcases (sendLoop_answers turns _ s.client).2 r awaits with rfl | old
  · exact Nat.lt_succ_self _
  · exact Nat.lt_succ_of_lt (numbered r old)

theorem mdcliSession_step {s s' : Session} {use : Use} (numbered : Numbered s) (good : NoStale s)
    (taken : mdcliSession.step s use = some s') :
    Numbered s' ∧ (NoStale s' ↔ FreshReply s use) := by
  cases use with
  | setRetries retries =>
      obtain rfl := Option.some.inj taken
      exact ⟨numbered, iff_of_true good trivial⟩
  | send service request turns =>
      have answers : ∀ body asked,
          (mdcliSend s.client s.calls service request turns).result = .reply body asked →
            asked = s.calls ∨ s.client.retries ≠ 0 ∧
              ∃ msg, turns.head? = some (.polled (.reply msg)) ∧ s.client.awaiting = some asked :=
        (sendLoop_answers turns _ s.client).1
      simp only [mdcliSession] at taken
      split at taken
      · rename_i body asked returned
        obtain rfl := Option.some.inj taken
        refine ⟨fun r awaits => numbered.mdcliSend awaits, ?_⟩
        constructor
        · intro fresh polls msg found
          have own : asked = s.calls := fresh (s.calls, asked) List.mem_cons_self
          have first := asked_of_first_reply polls found returned
          cases awaiting : s.client.awaiting with
          | none => rfl
          | some r =>
              rw [awaiting] at first
              have earlier := numbered r awaiting
              exact absurd (first.symm.trans own) earlier.ne
        · intro fresh p mem
          rcases List.mem_cons.mp mem with rfl | old
          · rcases answers body asked returned with own | ⟨polls, msg, found, awaits⟩
            · exact own
            · rw [fresh polls msg found] at awaits
              cases awaits
          · exact good p old
      · rename_i null
        obtain rfl := Option.some.inj taken
        refine ⟨fun r awaits => numbered.mdcliSend awaits,
          iff_of_true good fun polls msg found => ?_⟩
        rcases mdcliSend_first_reply s.calls service request polls found with failed | ⟨_, reply⟩
        · rw [null] at failed
          cases failed
        · rw [null] at reply
          cases reply
      · cases taken
      · cases taken

/-- **No stale reply.** Every reply the session returned answers the call that
returned it, in every state of a run, exactly when no call finds a reply at its first
poll while the socket still awaits the reply to an earlier call. -/
theorem no_stale_iff {past : List (Session × Use)} {s : Session} (run : Run mdcliSession past s) :
    Always NoStale past s ↔ EachStep FreshReply past := by
  apply run.exact Numbered NoStale FreshReply
  · constructor
    · rintro r ⟨⟩
    · rintro p ⟨⟩
  · intro s use s' numbered good taken
    obtain ⟨numbered', exact⟩ := mdcliSession_step numbered good taken
    exact ⟨exact, fun _ => numbered'⟩

/-- A run whose only call is answered at its second attempt. -/
theorem no_stale_iff_retried :
    ∃ past s, Run mdcliSession past s ∧ s.answers = [(0, 0)] ∧
      (Always NoStale past s ↔ EachStep FreshReply past) := by
  have ran : (mdcliSession.exec mdcliSession.start
      [.send [0x65] [[0x41]]
        [.polled .timeout, .polled (.reply [mdpcHeader, [0x65], [0x42]])]]).map Session.answers =
      some [(0, 0)] := by decide
  obtain ⟨s, done, answers⟩ := Option.map_eq_some_iff.mp ran
  obtain ⟨past, run⟩ := Reachable.start.exec done
  exact ⟨past, s, run, answers, no_stale_iff run⟩

/-- A call gives up after three timeouts; the next call for the same service cannot
send, and takes the late reply to the first one for its own. -/
theorem late_reply_taken :
    ∃ s, Reachable mdcliSession s ∧ s.answers = [(1, 0)] ∧ ¬ NoStale s := by
  have ran : (mdcliSession.exec mdcliSession.start
      [.send [0x65] [[0x41]] [.polled .timeout, .polled .timeout, .polled .timeout],
        .send [0x65] [[0x42]] [.polled (.reply [mdpcHeader, [0x65], [0x43]])]]).map
          Session.answers = some [(1, 0)] := by decide
  obtain ⟨s, done, answers⟩ := Option.map_eq_some_iff.mp ran
  refine ⟨s, Reachable.start.exec done, answers, fun good => ?_⟩
  have own := good (1, 0) (answers ▸ List.mem_cons_self)
  exact absurd own (by decide)

/-! ### The layout of a request -/

/-- The broker takes the first frame of a client message for the service and queues
the rest for it. -/
theorem sBrokerClientMsg_dispatch (h : Helpers) (clock : Nat → Nat) (b : Broker) (sender : Frame)
    {service : Frame} {body : Msg} (nonempty : body ≠ []) (nulFree : NulFree service)
    (external : startsWith service mmi = false) :
    sBrokerClientMsg h clock b sender (service :: body) =
      (sServiceDispatch h clock (b.requireService service) service
        (some (zmsgWrap body sender))).map fun (b, sent) =>
          (b, sent.map fun (worker, msg) => .request worker msg) := by
  obtain ⟨frame, rest, rfl⟩ := List.exists_cons_of_ne_nil nonempty
  have name : sServiceRequire b (some service) = .ok (b.requireService service, service) := by
    simp only [sServiceRequire, zframeStrdup_of_nulFree nulFree]
  simp only [sBrokerClientMsg, zmsgPop_cons, name, external]
  cases dispatched : sServiceDispatch h clock (b.requireService service) service
    (some (zmsgWrap (frame :: rest) sender)) with
  | error fault => simp [bind, Except.bind, Except.map, dispatched]
  | ok result => simp [bind, Except.bind, Except.map, dispatched, pure, Except.pure]

/-- The frames of a request are the header, the service and the body, and the broker,
once the header is off, queues exactly this body for this service. -/
structure MatchesBroker (service : Frame) (body frames : Msg) : Prop where
  layout : frames = mdpcHeader :: service :: body
  queued (h : Helpers) (clock : Nat → Nat) (b : Broker) (sender : Frame) :
    sBrokerClientMsg h clock b sender frames.tail =
      (sServiceDispatch h clock (b.requireService service) service
        (some (zmsgWrap body sender))).map fun (b, sent) =>
          (b, sent.map fun (worker, msg) => .request worker msg)

/-- **The layout of a request.** Whatever a call transmits for a service and a body
has the documented layout, and is decoded by the broker as meant, exactly when the
service is named like the header: the two are pushed in the wrong order. -/
theorem matchesBroker_iff (self : Mdcli) (call : Nat) {service : Frame} {body : Msg}
    (nonempty : body ≠ []) {turns : List Turn} {tx : Transmission}
    (sent : tx ∈ (mdcliSend self call service body turns).sent) :
    MatchesBroker service body tx.frames ↔ service = mdpcHeader := by
  have frames : tx.frames = service :: mdpcHeader :: body := (sendLoop_sent turns _ self tx sent).2
  rw [frames]
  constructor
  · rintro ⟨layout, -⟩
    exact (List.cons.inj layout).1
  · rintro rfl
    refine ⟨rfl, fun h clock b sender => ?_⟩
    exact sBrokerClientMsg_dispatch h clock b sender nonempty (by decide) (by decide)

/-- The first transmission of a new session. -/
theorem matchesBroker_iff_first :
    ∃ tx ∈ (mdcliSend mdcliNew 0 [0x65] [[0x41]] [.polled .timeout]).sent,
      (MatchesBroker [0x65] [[0x41]] tx.frames ↔ [0x65] = mdpcHeader) := by
  have sent : ⟨0, 0, [[0x65], mdpcHeader, [0x41]]⟩ ∈
      (mdcliSend mdcliNew 0 [0x65] [[0x41]] [.polled .timeout]).sent := by decide
  exact ⟨_, sent, matchesBroker_iff mdcliNew 0 (by decide) sent⟩

/-- A request for the service `e`: its frames, and the service the broker queues it
for. -/
theorem request_goes_to_header :
    (mdcliSend mdcliNew 0 [0x65] [[0x41]] [.polled .timeout]).sent =
        [⟨0, 0, [[0x65], mdpcHeader, [0x41]]⟩] ∧
      sBrokerClientMsg (Helpers.plain List.erase) id sBrokerNew [0x43] [mdpcHeader, [0x41]] =
        .ok (⟨[⟨mdpcHeader, [[[0x43], [], [0x41]]], [], 0⟩], [], [], 0, 1⟩, []) ∧
      ¬ MatchesBroker [0x65] [[0x41]] [[0x65], mdpcHeader, [0x41]] := by
  refine ⟨by decide, by decide, fun matched => ?_⟩
  exact absurd matched.layout (by decide)

end ZmqPractices.Majordomo
