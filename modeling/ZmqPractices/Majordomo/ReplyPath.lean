import Mathlib.Data.List.Forall2
import ZmqPractices.Majordomo.Session

/-!
The way of a reply (`mdworker.c`, `mdwrkapi.c`, `mdbroker.c`).

The program passes each request's reply to the next call and stops on NULL, so a reply
is sent before the loop can reconnect, and to the client `reply_to` was set to by
the same request. `Answers` says this of one reply and one request, `Pairs` of all of
a session in order. On the other side the broker unwraps what the worker wrapped.
-/

namespace ZmqPractices.Majordomo

open Czmq Lib

/-! ### The broker's side -/

/-- A REPLY of a registered worker goes to the client as its header, the name of the
worker's service and the body. -/
theorem sBrokerWorkerMsg_reply {h : Helpers} (registers : h.Registers) (clock : Nat → Nat)
    {b : Broker} {sender service : Frame} {w : Worker}
    (registered : b.lookup (zframeStrhex sender) = some w)
    (serves : b.serviceOf w.addr = some service) (client : Frame) (body : Msg) :
    ∃ b', sBrokerWorkerMsg h clock b sender (mdpwReply :: zmsgWrap body client) =
      .ok (b', [.reply (client :: [] :: mdpcHeader :: service :: body)]) := by
  obtain ⟨w', found, named⟩ := Option.bind_eq_some_iff.mp serves
  have other : mdpwReply ≠ mdpwReady := by decide
  exact ⟨h.sWorkerWaiting b.read w.addr (clock b.tick), by
    simp [sBrokerWorkerMsg, zmsgPop, registered, registers.require_known registered, found,
      named, other, zmsgWrap, zmsgPush]⟩

namespace Mdwrk

/-! ### The worker's side -/

/-- The requests a session has returned: the socket and the message they came by, and
their body. -/
def requests : List Event → List (Nat × Msg × Msg)
  | [] => []
  | .turned socket (.message msg) (.returned (some body)) _ :: earlier =>
      requests earlier ++ [(socket, msg, body)]
  | _ :: earlier => requests earlier

/-- The replies it was given, with what it did with each. -/
def replies : List Event → List (Msg × List Action)
  | [] => []
  | .called (some reply) actions :: earlier => replies earlier ++ [(reply, actions)]
  | _ :: earlier => replies earlier

/-- What the last call returned, `none` before the first has. -/
def lastReturned : List Event → Option (Option Msg)
  | [] => none
  | .turned _ _ (.returned body) _ :: _ => some body
  | _ :: earlier => lastReturned earlier

/-- The program of `mdworker.c`: it begins without a reply, passes a reply to each request
it got, and stops when it gets none. -/
def Follows (s : Session) : Use → Prop
  | .call reply =>
      match lastReturned s.history with
      | none => reply = none
      | some none => False
      | some (some _) => reply ≠ none
  | _ => True

/-- The reply was sent on the socket the request came by, to the request's client. -/
def Answers (reply : Msg × List Action) (request : Nat × Msg × Msg) : Prop :=
  ∃ client content,
    request.2.1 = [] :: mdpwHeader :: mdpwRequest :: client :: content ∧
      zmsgUnwrap (client :: content) = (some client, request.2.2) ∧
      reply.2 = [.send request.1 ([] :: mdpwHeader :: mdpwReply :: zmsgWrap reply.1 client)]

/-- The replies answer the requests in order; between calls the newest request may have to
wait for its reply, on the same socket and with its client in `reply_to`. -/
inductive Pairs (s : Session) : Prop
  | answered (none_held : s.inCall = true ∨ ∀ body, lastReturned s.history ≠ some (some body))
      (all : List.Forall₂ Answers (replies s.history) (requests s.history))
  | holding {older : List (Nat × Msg × Msg)} {msg body content : Msg} {client : Frame}
      (idle : s.inCall = false) (holds : lastReturned s.history = some (some body))
      (newest : requests s.history = older ++ [(s.worker.socket, msg, body)])
      (framed : msg = [] :: mdpwHeader :: mdpwRequest :: client :: content)
      (unwrapped : zmsgUnwrap (client :: content) = (some client, body))
      (kept : s.worker.replyTo = some client)
      (rest : List.Forall₂ Answers (replies s.history) older)

variable (clock : Nat → Nat)

theorem Pairs.call {s s' : Session} {reply : Option Msg} (pairs : Pairs s)
    (follows : Follows s (.call reply)) (taken : sessionStep clock s (.call reply) = some s') :
    Pairs s' := by
  obtain ⟨idle, began⟩ := step_call clock taken
  cases pairs with
  | answered none_held all =>
      have none_held := none_held.resolve_left (by simp [idle])
      rcases began with ⟨rfl, rfl⟩ | ⟨body, client, rfl, -, rfl⟩
      · exact .answered (.inl rfl) all
      · simp only [Follows] at follows
        split at follows
        · cases follows
        · exact follows.elim
        · rename_i holds
          exact absurd holds (none_held _)
  | holding _ holds newest framed unwrapped kept rest =>
      rcases began with ⟨rfl, -⟩ | ⟨body, client, rfl, addressed, rfl⟩
      · simp [Follows, holds] at follows
      · cases kept.symm.trans addressed
        refine .answered (.inl rfl) ?_
        show List.Forall₂ Answers (replies s.history ++ [_]) (requests s.history)
        rw [newest]
        exact List.rel_append rest (.cons ⟨_, _, framed, unwrapped, rfl⟩ .nil)

theorem Pairs.turn {s s' : Session} {turn : Turn} (pairs : Pairs s)
    (taken : sessionStep clock s (.turn turn) = some s') : Pairs s' := by
  obtain ⟨inCall, out, moved, rfl⟩ := step_turn clock taken
  cases pairs with
  | holding idle => exact absurd (idle.symm.trans inCall) Bool.false_ne_true
  | answered _ all =>
      cases moved with
      | ended stops =>
          simp only [List.mem_cons, List.not_mem_nil, or_false] at stops
          rcases stops with rfl | rfl | rfl <;>
            exact .answered (.inr fun body returned => nomatch returned) all
      | @request msg body client content framed unwrapped =>
          refine .holding rfl rfl rfl framed ?_ rfl all
          obtain ⟨body', unwraps⟩ := zmsgUnwrap_cons client content
          rw [unwrapped, unwraps]
      | kept taken kept => exact .answered (.inl rfl) all
      | dismissed taken connects => exact .answered (.inl rfl) all
      | waited counts waits same => exact .answered (.inl rfl) all
      | reconnected gone connects => exact .answered (.inl rfl) all

theorem pairs_of_follows (service : Frame) {past : List (Session × Use)} {s : Session}
    (run : Run (session clock service) past s) (follows : EachStep Follows past) : Pairs s := by
  refine (run.guarded_invariant Pairs Follows ?_ ?_ follows).1
  · exact .answered (.inr fun body returned => nomatch returned) .nil
  intro s use s' pairs follows taken
  cases use with
  | setHeartbeatIntv heartbeatIntv =>
      obtain ⟨-, rfl⟩ := step_setHeartbeatIntv clock taken
      cases pairs with
      | answered none_held all => exact .answered none_held all
      | holding idle holds newest framed unwrapped kept rest =>
          exact .holding idle holds newest framed unwrapped kept rest
  | setReconnectDelay reconnectDelay =>
      obtain ⟨-, rfl⟩ := step_setReconnectDelay clock taken
      cases pairs with
      | answered none_held all => exact .answered none_held all
      | holding idle holds newest framed unwrapped kept rest =>
          exact .holding idle holds newest framed unwrapped kept rest
  | call reply => exact pairs.call clock follows taken
  | turn turn => exact pairs.turn clock taken

/-- Each reply answers the request of its number. -/
theorem Pairs.nth {s : Session} (pairs : Pairs s) {k : Nat} {reply : Msg × List Action}
    (kth : (replies s.history)[k]? = some reply) :
    ∃ request, (requests s.history)[k]? = some request ∧ Answers reply request := by
  have older : ∃ older held, older ++ held = requests s.history ∧
      List.Forall₂ Answers (replies s.history) older := by
    cases pairs with
    | answered none_held all => exact ⟨_, [], List.append_nil _, all⟩
    | holding idle holds newest framed unwrapped kept rest => exact ⟨_, _, newest.symm, rest⟩
  obtain ⟨older, held, whole, all⟩ := older
  obtain ⟨bound, rfl⟩ := List.getElem?_eq_some_iff.mp kth
  have inside : k < older.length := all.length_eq ▸ bound
  refine ⟨older[k], ?_, all.get bound inside⟩
  rw [← whole, List.getElem?_append_left inside, List.getElem?_eq_getElem inside]

/-- **The reply path.** In a session of a program that follows `mdworker.c`, the k-th reply
is sent on the socket that delivered the k-th request, to the client of that request, and
the broker makes of it the client's frame, an empty frame, its header, the name of the
worker's service and the body of the reply. -/
theorem reply_path (service : Frame) {past : List (Session × Use)} {s : Session}
    (run : Run (session clock service) past s) (follows : EachStep Follows past)
    (k : Nat) (reply : Msg) (actions : List Action)
    (kth : (replies s.history)[k]? = some (reply, actions)) :
    ∃ socket client content body frames,
      (requests s.history)[k]? =
        some (socket, [] :: mdpwHeader :: mdpwRequest :: client :: content, body) ∧
      zmsgUnwrap (client :: content) = (some client, body) ∧
      actions = [.send socket ([] :: mdpwHeader :: frames)] ∧
      ∀ (h : Helpers) (clock : Nat → Nat) (b : Broker) (sender name : Frame)
        (w : Majordomo.Worker), h.Registers → b.lookup (zframeStrhex sender) = some w →
        b.serviceOf w.addr = some name →
          ∃ b', sBrokerWorkerMsg h clock b sender frames =
            .ok (b', [.reply (client :: [] :: mdpcHeader :: name :: reply)]) := by
  obtain ⟨⟨socket, msg, body⟩, found, client, content, framed, unwrapped, sent⟩ :=
    (pairs_of_follows clock service run follows).nth kth
  subst framed
  refine ⟨socket, client, content, body, _, found, unwrapped, sent, ?_⟩
  intro h clock b sender name w registers registered serves
  exact sBrokerWorkerMsg_reply registers clock registered serves client reply

instance (s : Session) : (use : Use) → Decidable (Follows s use)
  | .call reply =>
      match returned : lastReturned s.history with
      | none => decidable_of_iff (reply = none) (by simp only [Follows, returned])
      | some none => .isFalse (by simp only [Follows, returned, not_false_eq_true])
      | some (some _) => decidable_of_iff (reply ≠ none) (by simp only [Follows, returned])
  | .setHeartbeatIntv _ | .setReconnectDelay _ | .turn _ => .isTrue trivial

/-- A request of client A, a reply with an empty frame, a reconnect, and a request of B:
the second reply goes to B on the second socket, and the broker hands it on. -/
theorem reply_path_two : ∃ (past : List (Session × Use)) (s : Session),
    Run (session id [0x65]) past s ∧ EachStep Follows past ∧
      ∃ frames, (replies s.history)[1]? = some ([[0x72]], [.send 2 ([] :: mdpwHeader :: frames)]) ∧
      ∃ b', sBrokerWorkerMsg (Helpers.plain Helpers.removeAll) id
          ⟨[⟨[0x65], [], [], 1⟩], [⟨0, zframeStrhex [0x77], [0x77], some [0x65], 0⟩], [], 1, 0⟩
          [0x77] frames = .ok (b', [.reply [[0x42], [], mdpcHeader, [0x65], [0x72]]]) := by
  have ran : ((session id [0x65]).record [] (session id [0x65]).start
      [.call none,
        .turn (.message [[], mdpwHeader, mdpwRequest, [0x41], [], [0x71]]),
        .call (some [[], [0x72]]), .turn .timeout, .turn .timeout, .turn .timeout,
        .turn (.message [[], mdpwHeader, mdpwRequest, [0x42], [], [0x71]]),
        .call (some [[0x72]])]).map
      (fun out => (decide (EachStep Follows out.1), (requests out.2.history)[1]?,
        (replies out.2.history)[1]?)) =
        some (true, some (2, [[], mdpwHeader, mdpwRequest, [0x42], [], [0x71]], [[0x71]]),
          some ([[0x72]], [.send 2 [[], mdpwHeader, mdpwReply, [0x42], [], [0x72]]])) := by
    rfl
  obtain ⟨⟨past, s⟩, done, seen⟩ := Option.map_eq_some_iff.mp ran
  simp only [Prod.mk.injEq, decide_eq_true_eq] at seen
  obtain ⟨follows, request, second⟩ := seen
  have run := Run.start.record done
  obtain ⟨socket, client, content, body, frames, found, -, sent, relayed⟩ :=
    reply_path id [0x65] run follows 1 _ _ second
  cases request.symm.trans found
  cases sent
  exact ⟨past, s, run, follows, _, second,
    relayed _ _ _ [0x77] [0x65] ⟨0, zframeStrhex [0x77], [0x77], some [0x65], 0⟩
      (Helpers.plain_queues _).toRegisters (by decide) (by decide)⟩

end Mdwrk

end ZmqPractices.Majordomo
