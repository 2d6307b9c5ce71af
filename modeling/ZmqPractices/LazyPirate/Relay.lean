import ZmqPractices.LazyPirate.Front

/-!
Relays: a queue and its workers behind the front, with connections of their own.

A message on these connections may carry a request on its way to a worker (`task`), one that
is sent back (`answer`), or neither. What is behind the front is then the requests in the
hands of the workers and what the messages carry, and each move of a relay keeps `Backed`:
a message is sent, dropped, taken up by a worker or passed on to its client.
-/

namespace ZmqPractices.LazyPirate

open Czmq Lib
open Peering (ZeroLed)

/-- The request that a message between a queue and a worker carries: the identity of the
client's socket, an empty frame and the text. -/
def requestOf : Msg → Option Sent
  | [socket, [], text] => some (socket, text)
  | _ => none

/-- The message carries a request as the clients send them. -/
def Carries (msg : Msg) : Prop :=
  ∃ socket text, msg = [socket, [], text] ∧ ZeroLed socket ∧ Plain text

namespace Backed

variable {Name Chan : Type} [DecidableEq Name] {task answer : Chan × Msg → Option Sent}
  {s : Front Name} {hands hands' processed : List Sent} {net rest : Net Chan Msg} {chan : Chan}
  {msg : Msg} {request : Sent}

/-- A message that carries nothing is sent. -/
theorem sendSilent
    (before : Backed s (hands ++ net.filterMap task) (net.filterMap answer) processed)
    (noTask : task (chan, msg) = none) (noAnswer : answer (chan, msg) = none) :
    Backed s (hands ++ (net.send chan msg).filterMap task)
      ((net.send chan msg).filterMap answer) processed := by
  rw [Net.filterMap_send, Net.filterMap_send, noTask, noAnswer, Option.toList_none,
    List.append_nil, List.append_nil]
  exact before

/-- A request in hand is sent on to a worker. -/
theorem sendTask
    (before : Backed s (request :: (hands ++ net.filterMap task)) (net.filterMap answer) processed)
    (carried : task (chan, msg) = some request) (noAnswer : answer (chan, msg) = none) :
    Backed s (hands ++ (net.send chan msg).filterMap task)
      ((net.send chan msg).filterMap answer) processed := by
  rw [Net.filterMap_send, Net.filterMap_send, carried, noAnswer, Option.toList_none,
    List.append_nil, ← List.append_assoc]
  exact before.fewer List.perm_append_comm.subperm (.refl _)

/-- A request in hand is processed and sent back. -/
theorem sendAnswer
    (before : Backed s (request :: (hands ++ net.filterMap task)) (net.filterMap answer) processed)
    (noTask : task (chan, msg) = none) (carried : answer (chan, msg) = some request) :
    Backed s (hands ++ (net.send chan msg).filterMap task)
      ((net.send chan msg).filterMap answer) (request :: processed) := by
  rw [Net.filterMap_send, Net.filterMap_send, noTask, carried, Option.toList_none, List.append_nil]
  exact before.process.fewer (.refl _) List.perm_append_comm.subperm

/-- Messages are dropped. -/
theorem drop (before : Backed s (hands ++ net.filterMap task) (net.filterMap answer) processed)
    (part : rest.Sublist net) :
    Backed s (hands ++ rest.filterMap task) (rest.filterMap answer) processed :=
  before.fewer ((part.filterMap task).append_left hands).subperm (part.filterMap answer).subperm

/-- Requests in hand are dropped. -/
theorem dropHands
    (before : Backed s (hands ++ net.filterMap task) (net.filterMap answer) processed)
    (part : hands'.Subperm hands) :
    Backed s (hands' ++ net.filterMap task) (net.filterMap answer) processed :=
  before.fewer (part.append (.refl _)) (.refl _)

variable [DecidableEq Chan]

/-- A message is received, and what it carries to be served goes into the hands. -/
theorem takeTask (before : Backed s (hands ++ net.filterMap task) (net.filterMap answer) processed)
    (received : Net.recv chan net = some (msg, rest)) :
    Backed s (hands ++ (task (chan, msg)).toList ++ rest.filterMap task) (rest.filterMap answer)
      processed := by
  have tasks := Net.filterMap_recv_perm task received
  refine before.fewer ?_ ((Net.recv_sublist received).filterMap answer).subperm
  rw [List.append_assoc]
  exact (tasks.symm.append_left hands).subperm

/-- A reply is received and goes on to its client. -/
theorem giveAnswer {socket text : Frame}
    (before : Backed s (hands ++ net.filterMap task) (net.filterMap answer) processed)
    (received : Net.recv chan net = some (msg, rest))
    (carried : answer (chan, msg) = some (socket, text)) (plain : Plain text) :
    Backed (s.give socket [[], text]) (hands ++ rest.filterMap task) (rest.filterMap answer)
      processed := by
  have tasks := ((Net.recv_sublist received).filterMap task).append_left hands
  have answers := Net.filterMap_recv_perm answer received
  rw [carried] at answers
  exact (before.fewer tasks.subperm answers.symm.subperm).give plain

end Backed

end ZmqPractices.LazyPirate
