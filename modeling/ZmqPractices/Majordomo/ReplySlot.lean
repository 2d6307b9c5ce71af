import ZmqPractices.Majordomo.Session

/-!
Who owns a reply (`mdwrkapi.c`).

A call takes the message in the caller's slot `*reply_p`, wraps it with `reply_to`, sends
it and destroys it: message and frame are used up before the loop begins. The slot keeps
the pointer, since `zmsg_destroy` clears a copy of it, so a call that is interrupted
leaves a slot which the next call takes again. The system adds to a session what C leaves
implicit, the message a pointer points to, and ends at the first misuse.

`replies_once_iff` says which calls are safe: those that are given no message twice.
-/

namespace ZmqPractices.Majordomo.Mdwrk

open Czmq Lib

/-- What a call must not do with its reply. -/
inductive Misuse where
  | destroyedReply
  | consumedReplyTo
deriving DecidableEq, Repr

/-- A session and its caller's slot. A message is known by the number of the request it was
returned as: `last` is the newest one returned, whose client is in `reply_to`; `given` are
those the caller has given to a call. -/
structure Slotted where
  session : Session
  slot : Option (Nat × Msg)
  last : Option Nat
  returned : Nat
  consumed : Bool
  given : List Nat
  destroyed : List Nat
  replied : List Nat
  misuse : Option Misuse
deriving DecidableEq, Repr

/-- What the caller does: it sets the slot to the last request, with the content it wants,
or to NULL, or it calls; and what a turn of the loop finds. -/
inductive SlotUse where
  | store (content : Msg)
  | clear
  | call
  | turn (turn : Turn)
  | setHeartbeatIntv (heartbeatIntv : Int)
  | setReconnectDelay (reconnectDelay : Int)
deriving DecidableEq, Repr

/-- Whether the newest event is the return of a request. -/
def returnsRequest : List Event → Bool
  | .turned _ _ (.returned (some _)) _ :: _ => true
  | _ => false

section

variable (clock : Nat → Nat)

/-- A call: the misuse it commits, or the reply it sends and destroys. -/
def slotCall (s : Slotted) : Option Slotted :=
  match s.slot with
  | none => (sessionStep clock s.session (.call none)).map fun session =>
      { s with session := session }
  | some (number, content) =>
      let s := { s with given := number :: s.given }
      if s.session.inCall then none
      else if number ∈ s.destroyed then some { s with misuse := some .destroyedReply }
      else if s.consumed then some { s with misuse := some .consumedReplyTo }
      else (sessionStep clock s.session (.call (some content))).map fun session =>
        { s with
          session := session
          consumed := true
          destroyed := number :: s.destroyed
          replied := s.last.toList ++ s.replied }

def slotStep (s : Slotted) (use : SlotUse) : Option Slotted :=
  if s.misuse.isSome then none
  else
    match use with
    | .store content =>
        if s.session.inCall then none
        else s.last.map fun number => { s with slot := some (number, content) }
    | .clear => if s.session.inCall then none else some { s with slot := none }
    | .call => slotCall clock s
    | .turn turn => (sessionStep clock s.session (.turn turn)).map fun session =>
        if returnsRequest session.history then
          { s with
            session := session
            last := some s.returned
            returned := s.returned + 1
            consumed := false }
        else { s with session := session }
    | .setHeartbeatIntv heartbeatIntv =>
        (sessionStep clock s.session (.setHeartbeatIntv heartbeatIntv)).map fun session =>
          { s with session := session }
    | .setReconnectDelay reconnectDelay =>
        (sessionStep clock s.session (.setReconnectDelay reconnectDelay)).map fun session =>
          { s with session := session }

/-- A session and its caller, with an empty slot to begin with. -/
def slotted (service : Frame) : System Slotted SlotUse where
  start := ⟨(session clock service).start, none, none, 0, false, [], [], [], none⟩
  step := slotStep clock

end

/-- No message was used after it was destroyed, no REPLY was built from a consumed
`reply_to`, and no request got more than one REPLY. -/
structure RepliesOnce (s : Slotted) : Prop where
  used_well : s.misuse = none
  once : s.replied.Nodup

/-- A call is not given a message that an earlier call was given. -/
def GivenOnce (s : Slotted) : SlotUse → Prop
  | .call => ∀ number content, s.slot = some (number, content) → number ∉ s.given
  | _ => True

/-- While no message is given twice, each one given was sent once and destroyed, and the
newest request is either one of them or still has its `reply_to`. -/
structure Owned (s : Slotted) : Prop where
  given : s.given = s.destroyed
  replied : s.replied = s.destroyed
  numbered : ∀ number ∈ s.destroyed, number < s.returned
  newest : ∀ number, s.last = some number → number < s.returned ∧
    (number ∈ s.destroyed ∨ s.consumed = false ∧ s.session.worker.replyTo.isSome)
  slot : ∀ number content, s.slot = some (number, content) →
    number ∈ s.destroyed ∨ s.last = some number ∧ s.session.inCall = false

theorem RepliesOnce.proceeds {s : Slotted} (once : RepliesOnce s) : ¬ s.misuse.isSome := by
  simp [once.used_well]

section

variable (clock : Nat → Nat)

/-- A step that touches neither the messages nor `reply_to`. -/
theorem Owned.session {s : Slotted} (owned : Owned s) {session : Session}
    (kept : session.worker.replyTo = s.session.worker.replyTo)
    (inCall : session.inCall = s.session.inCall) : Owned { s with session := session } where
  given := owned.given
  replied := owned.replied
  numbered := owned.numbered
  newest number last := by simpa only [kept] using owned.newest number last
  slot number content slot := by simpa only [inCall] using owned.slot number content slot

/-- The caller may set the slot. -/
theorem Owned.store {s : Slotted} (owned : Owned s) {number : Nat} {content : Msg}
    (idle : s.session.inCall = false) (last : s.last = some number) :
    Owned { s with slot := some (number, content) } where
  given := owned.given
  replied := owned.replied
  numbered := owned.numbered
  newest := owned.newest
  slot number' content' slot := by
    cases slot
    exact .inr ⟨last, idle⟩

/-- The caller may empty the slot. -/
theorem Owned.clear {s : Slotted} (owned : Owned s) : Owned { s with slot := none } :=
  { owned with slot := fun _ _ found => nomatch found }

theorem returnsRequest_turned {socket : Nat} {turn : Turn} {result : Result}
    {actions : List Action} {earlier : List Event} :
    returnsRequest (.turned socket turn result actions :: earlier) = true ↔
      ∃ body, result = .returned (some body) := by
  match result with
  | .returned none => simp [returnsRequest]
  | .returned (some body) => simp [returnsRequest]
  | .assertion => simp [returnsRequest]
  | .pending => simp [returnsRequest]

/-- What a turn does to the ownership: a request brings a new `reply_to`. -/
theorem Owned.turn {s s' : Slotted} {turn : Turn} (owned : Owned s) (once : RepliesOnce s)
    (taken : slotStep clock s (.turn turn) = some s') : Owned s' ∧ RepliesOnce s' := by
  rw [slotStep, if_neg once.proceeds] at taken
  obtain ⟨session, stepped, rfl⟩ := Option.map_eq_some_iff.mp taken
  obtain ⟨inCall, out, moved, rfl⟩ := step_turn clock stepped
  have slot : ∀ number content, s.slot = some (number, content) → number ∈ s.destroyed :=
    fun number content slot =>
      (owned.slot number content slot).resolve_right fun free => by simp [inCall] at free
  rcases moved.replyTo with ⟨body, returned, addressed⟩ | ⟨others, kept⟩
  · rw [if_pos (returnsRequest_turned.mpr ⟨body, returned⟩)]
    refine ⟨⟨owned.given, owned.replied, fun number mem => ?_, fun number last => ?_,
      fun number content found => .inl (slot number content found)⟩, once.used_well, once.once⟩
    · exact Nat.lt_succ_of_lt (owned.numbered number mem)
    · cases last
      exact ⟨Nat.lt_succ_self _, .inr ⟨rfl, addressed⟩⟩
  · rw [if_neg fun returns => ?_]
    · refine ⟨⟨owned.given, owned.replied, owned.numbered, fun number last => ?_,
        fun number content found => .inl (slot number content found)⟩, once.used_well, once.once⟩
      simpa only [kept] using owned.newest number last
    · obtain ⟨body, returned⟩ := returnsRequest_turned.mp returns
      exact others body returned

/-- A call with a message in the slot: it misuses it, or sends it to the client of the newest
request and destroys it. -/
theorem slotCall_given {s s' : Slotted} {number : Nat} {content : Msg}
    (slot : s.slot = some (number, content)) (taken : slotCall clock s = some s') :
    (number ∈ s.destroyed ∧
        s' = { s with given := number :: s.given, misuse := some .destroyedReply }) ∨
      number ∉ s.destroyed ∧
        (s.consumed = true ∧
            s' = { s with given := number :: s.given, misuse := some .consumedReplyTo } ∨
          s.consumed = false ∧ ∃ session,
            sessionStep clock s.session (.call (some content)) = some session ∧
            s' = { s with
              session := session
              given := number :: s.given
              consumed := true
              destroyed := number :: s.destroyed
              replied := s.last.toList ++ s.replied }) := by
  simp only [slotCall, slot] at taken
  split_ifs at taken with inCall used consumed
  · exact .inl ⟨used, by rw [← Option.some.inj taken, slot]⟩
  · exact .inr ⟨used, .inl ⟨consumed, by rw [← Option.some.inj taken, slot]⟩⟩
  · obtain ⟨session, stepped, done⟩ := Option.map_eq_some_iff.mp taken
    refine .inr ⟨used, .inr ⟨Bool.not_eq_true _ ▸ consumed, session, stepped, ?_⟩⟩
    rw [← done, slot]

/-- The reply to the newest request is sent and destroyed, and stays in the slot. -/
theorem Owned.sent {s : Slotted} (owned : Owned s) {number : Nat} {content : Msg}
    (slot : s.slot = some (number, content)) (last : s.last = some number)
    (replied : s.last.toList ++ s.replied = number :: s.destroyed) (session : Session) :
    Owned { s with
      session := session
      given := number :: s.given
      consumed := true
      destroyed := number :: s.destroyed
      replied := s.last.toList ++ s.replied } where
  given := congrArg _ owned.given
  replied := replied
  numbered other mem := by
    rcases List.mem_cons.mp mem with rfl | mem
    · exact (owned.newest _ last).1
    · exact owned.numbered other mem
  newest other newest := by
    cases last.symm.trans newest
    exact ⟨(owned.newest _ last).1, .inl List.mem_cons_self⟩
  slot other content' found := by
    cases slot.symm.trans found
    exact .inl List.mem_cons_self

/-- A call with a message that no earlier call was given sends it and destroys it; a call
with another misuses it. -/
theorem Owned.call_given {s s' : Slotted} (owned : Owned s) (once : RepliesOnce s) {number : Nat}
    {content : Msg} (slot : s.slot = some (number, content))
    (taken : slotCall clock s = some s') :
    (RepliesOnce s' ↔ number ∉ s.given) ∧ (number ∉ s.given → Owned s') := by
  rw [owned.given]
  rcases slotCall_given clock slot taken with ⟨used, rfl⟩ | ⟨unused, sends⟩
  · exact ⟨iff_of_false (fun fine => nomatch fine.used_well) (not_not.mpr used),
      fun unused => absurd used unused⟩
  · obtain ⟨last, -⟩ := (owned.slot number content slot).resolve_left unused
    obtain ⟨fresh, -⟩ := (owned.newest number last).2.resolve_left unused
    rcases sends with ⟨consumed, -⟩ | ⟨-, session, -, rfl⟩
    · exact absurd (fresh.symm.trans consumed) Bool.false_ne_true
    · have replied : s.last.toList ++ s.replied = number :: s.destroyed := by
        rw [last, owned.replied]
        rfl
      have nodup : (number :: s.destroyed).Nodup :=
        List.nodup_cons.mpr ⟨unused, owned.replied ▸ once.once⟩
      exact ⟨iff_of_true ⟨once.used_well, replied.symm ▸ nodup⟩ unused,
        fun _ => owned.sent slot last replied session⟩

theorem Owned.call {s s' : Slotted} (owned : Owned s) (once : RepliesOnce s)
    (taken : slotStep clock s .call = some s') :
    (RepliesOnce s' ↔ GivenOnce s .call) ∧ (GivenOnce s .call → Owned s') := by
  rw [slotStep, if_neg once.proceeds] at taken
  have taken : slotCall clock s = some s' := taken
  cases slot : s.slot with
  | none =>
      have empty : GivenOnce s .call := fun number content found => nomatch slot.symm.trans found
      simp only [slotCall, slot] at taken
      obtain ⟨session, stepped, rfl⟩ := Option.map_eq_some_iff.mp taken
      refine ⟨iff_of_true ⟨once.used_well, once.once⟩ empty, fun _ => ?_⟩
      obtain ⟨-, ⟨-, rfl⟩ | ⟨body, client, reply, -⟩⟩ := step_call clock stepped
      · exact ⟨owned.given, owned.replied, owned.numbered, owned.newest,
          fun number content found => nomatch found⟩
      · cases reply
  | some reply =>
      obtain ⟨number, content⟩ := reply
      have new : GivenOnce s .call ↔ number ∉ s.given :=
        ⟨fun given => given number content slot, fun new number' content' found => by
          cases slot.symm.trans found
          exact new⟩
      rw [new]
      exact owned.call_given clock once slot taken

theorem owned_start (service : Frame) :
    Owned (slotted clock service).start ∧ RepliesOnce (slotted clock service).start :=
  ⟨{ given := rfl
     replied := rfl
     numbered := fun _ mem => nomatch mem
     newest := fun _ last => nomatch last
     slot := fun _ _ slot => nomatch slot }, rfl, List.nodup_nil⟩

/-- **At most one reply.** In a session whose caller sets its slot to the last request or to
NULL only, no reply is used after it was destroyed, none is built from a consumed `reply_to`
and no request gets two, exactly when no call is given a message that an earlier one was given. -/
theorem replies_once_iff (service : Frame) {past : List (Slotted × SlotUse)} {s : Slotted}
    (run : Run (slotted clock service) past s) :
    Always RepliesOnce past s ↔ EachStep GivenOnce past := by
  refine run.exact Owned RepliesOnce GivenOnce (owned_start clock service) ?_
  intro s use s' owned once taken
  have taken : slotStep clock s use = some s' := taken
  cases use with
  | call => exact owned.call clock once taken
  | turn turn =>
      obtain ⟨owned, once⟩ := owned.turn clock once taken
      exact ⟨iff_of_true once trivial, fun _ => owned⟩
  | store content =>
      rw [slotStep, if_neg once.proceeds] at taken
      split at taken
      · cases taken
      · rename_i idle
        obtain ⟨number, last, rfl⟩ := Option.map_eq_some_iff.mp taken
        exact ⟨iff_of_true ⟨once.used_well, once.once⟩ trivial,
          fun _ => owned.store (Bool.not_eq_true _ ▸ idle) last⟩
  | clear =>
      rw [slotStep, if_neg once.proceeds] at taken
      obtain ⟨-, taken⟩ := Option.ite_none_left_eq_some.mp taken
      obtain rfl := Option.some.inj taken
      exact ⟨iff_of_true ⟨once.used_well, once.once⟩ trivial, fun _ => owned.clear⟩
  | setHeartbeatIntv heartbeatIntv =>
      rw [slotStep, if_neg once.proceeds] at taken
      obtain ⟨session, stepped, rfl⟩ := Option.map_eq_some_iff.mp taken
      obtain ⟨-, rfl⟩ := step_setHeartbeatIntv clock stepped
      exact ⟨iff_of_true ⟨once.used_well, once.once⟩ trivial, fun _ => owned.session rfl rfl⟩
  | setReconnectDelay reconnectDelay =>
      rw [slotStep, if_neg once.proceeds] at taken
      obtain ⟨session, stepped, rfl⟩ := Option.map_eq_some_iff.mp taken
      obtain ⟨-, rfl⟩ := step_setReconnectDelay clock stepped
      exact ⟨iff_of_true ⟨once.used_well, once.once⟩ trivial, fun _ => owned.session rfl rfl⟩

end

/-! ### The session below -/

section

variable (clock : Nat → Nat)

/-- A step of the caller is a step of its session or leaves it alone. -/
theorem slotStep_session {s s' : Slotted} {use : SlotUse} (taken : slotStep clock s use = some s') :
    s'.session = s.session ∨ ∃ use', sessionStep clock s.session use' = some s'.session := by
  unfold slotStep at taken
  split at taken
  · cases taken
  cases use with
  | store content =>
      dsimp only at taken
      split at taken
      · cases taken
      · obtain ⟨number, -, rfl⟩ := Option.map_eq_some_iff.mp taken
        exact .inl rfl
  | clear =>
      obtain ⟨-, taken⟩ := Option.ite_none_left_eq_some.mp taken
      obtain rfl := Option.some.inj taken
      exact .inl rfl
  | call =>
      cases slot : s.slot with
      | none =>
          simp only [slotCall, slot] at taken
          obtain ⟨session, stepped, rfl⟩ := Option.map_eq_some_iff.mp taken
          exact .inr ⟨_, stepped⟩
      | some reply =>
          rcases slotCall_given clock slot taken with
            ⟨-, rfl⟩ | ⟨-, ⟨-, rfl⟩ | ⟨-, session, stepped, rfl⟩⟩
          · exact .inl rfl
          · exact .inl rfl
          · exact .inr ⟨_, stepped⟩
  | turn turn =>
      obtain ⟨session, stepped, rfl⟩ := Option.map_eq_some_iff.mp taken
      refine .inr ⟨.turn turn, stepped.trans ?_⟩
      split <;> rfl
  | setHeartbeatIntv heartbeatIntv =>
      obtain ⟨session, stepped, rfl⟩ := Option.map_eq_some_iff.mp taken
      exact .inr ⟨_, stepped⟩
  | setReconnectDelay reconnectDelay =>
      obtain ⟨session, stepped, rfl⟩ := Option.map_eq_some_iff.mp taken
      exact .inr ⟨_, stepped⟩

/-- A caller with a slot has a session like any other, so what holds of all sessions holds
of its own, whatever it gives to its calls. -/
theorem slotted_reachable (service : Frame) {s : Slotted}
    (reach : Reachable (slotted clock service) s) :
    Reachable (session clock service) s.session := by
  obtain ⟨below, reached, rfl⟩ := reach.simulated (U := session clock service)
    (fun s below => s.session = below) rfl fun s use s' below _ same taken => by
      subst same
      rcases slotStep_session clock taken with kept | ⟨use', stepped⟩
      · exact .inl kept
      · exact .inr ⟨use', _, stepped, rfl⟩
  exact reached

end

instance (s : Slotted) : (use : SlotUse) → Decidable (GivenOnce s use)
  | .call =>
      match slot : s.slot with
      | none => .isTrue fun number content found => nomatch slot.symm.trans found
      | some (number, _) => decidable_of_iff (number ∉ s.given)
          ⟨fun new _ _ found => by cases slot.symm.trans found; exact new,
            fun given => given _ _ slot⟩
  | .store _ | .clear | .turn _ | .setHeartbeatIntv _ | .setReconnectDelay _ => .isTrue trivial

/-- A request of client A. -/
def requestOfA : Turn := .message [[], mdpwHeader, mdpwRequest, [0x41], [], [0x71]]

/-- The call that sends the reply is interrupted; the caller empties the slot and calls again,
and the next request gets its reply too. -/
theorem replies_once_iff_two : ∃ (past : List (Slotted × SlotUse)) (s : Slotted),
    Run (slotted id [0x65]) past s ∧
      (past.map Prod.snd).reverse = [.call, .turn requestOfA, .store [[0x71]], .call,
        .turn .interrupted, .clear, .call, .turn requestOfA, .store [[0x71]], .call] ∧
      EachStep GivenOnce past ∧ Always RepliesOnce past s ∧ s.replied = [1, 0] := by
  have ran : ((slotted id [0x65]).record [] (slotted id [0x65]).start
      [.call, .turn requestOfA, .store [[0x71]], .call, .turn .interrupted, .clear, .call,
        .turn requestOfA, .store [[0x71]], .call]).map
      (fun out => ((out.1.map Prod.snd).reverse, decide (EachStep GivenOnce out.1),
        out.2.replied)) =
      some ([.call, .turn requestOfA, .store [[0x71]], .call, .turn .interrupted, .clear, .call,
        .turn requestOfA, .store [[0x71]], .call], true, [1, 0]) := by
    decide
  obtain ⟨⟨past, s⟩, done, seen⟩ := Option.map_eq_some_iff.mp ran
  simp only [Prod.mk.injEq, decide_eq_true_eq] at seen
  obtain ⟨uses, once, replied⟩ := seen
  have run := Run.start.record done
  exact ⟨past, s, run, uses, once, (replies_once_iff id [0x65] run).mpr once, replied⟩

/-- The call that sends the reply is interrupted and returns NULL; the slot still points to
the destroyed message, and the call that tries again uses it. -/
theorem destroyed_reply_used : ∃ (past : List (Slotted × SlotUse)) (s : Slotted),
    Run (slotted id [0x65]) past s ∧ s.slot = some (0, [[0x71]]) ∧ s.destroyed = [0] ∧
      s.misuse = some .destroyedReply ∧ ¬ Always RepliesOnce past s := by
  have ran : ((slotted id [0x65]).record [] (slotted id [0x65]).start
      [.call, .turn requestOfA, .store [[0x71]], .call, .turn .interrupted, .call]).map
      (fun out => (out.2.slot, out.2.destroyed, out.2.misuse)) =
        some (some (0, [[0x71]]), [0], some .destroyedReply) := by
    decide
  obtain ⟨⟨past, s⟩, done, seen⟩ := Option.map_eq_some_iff.mp ran
  simp only [Prod.mk.injEq] at seen
  obtain ⟨slot, destroyed, misuse⟩ := seen
  refine ⟨past, s, Run.start.record done, slot, destroyed, misuse, fun once => ?_⟩
  exact nomatch misuse.symm.trans once.1.used_well

end ZmqPractices.Majordomo.Mdwrk
