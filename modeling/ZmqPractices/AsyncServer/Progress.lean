import ZmqPractices.AsyncServer.Answers
import ZmqPractices.Lib.Progress

/-!
How the asynchronous server gets its replies to the clients.

A request is moved twice and each of its replies three times, so there are fourteen moves at
most for a request. A message that is on its way can always be moved, except that a client
that has made its hundred polls sends a request first.
-/

namespace ZmqPractices.AsyncServer

open Czmq Lib

/-! ### Moves -/

/-- A step that takes a message from one party to the next. -/
def Label.moves : Label → Bool
  | .receive _ => true
  | .forward _ _ => true
  | .take _ _ => true
  | .reply _ => true
  | .back _ => true
  | _ => false

/-- A client goes on to its next request. -/
def Label.prepares : Label → Bool
  | .request _ => true
  | _ => false

/-- The moves that a step brings at most. -/
def Label.brings : Label → Nat
  | .request _ => 14
  | _ => 0

def hopsOf (p : Chan × Msg) : Nat :=
  match p.1 with
  | .toFrontend _ => 14
  | .toWorker _ => 13
  | .toBackend _ => 2
  | .toClient _ => 1

def Worker.left (w : Worker) : Nat := w.task.elim 0 fun t => 3 * t.replies

/-- The moves that are left at most. -/
def State.remaining (s : State) : Nat :=
  Net.weight hopsOf s.net + (s.workers.map Worker.left).sum

/-- The pool stays as it is, and the clients poll a hundred times at most for each request. -/
structure Paced (pool : Nat) (s : State) : Prop where
  threads : s.workers.map Worker.thread = List.range pool
  polls : ∀ c ∈ s.clients, c.centitick ≤ 100 ∧
    c.printed.length ≤ 100 * c.requestNum + c.centitick

section Steps

variable {pool : Nat} {s s' : State} {l : Label}

theorem left_loop (t : Task) : (t.loop).elim 0 (fun t => 3 * t.replies) = 3 * t.replies := by
  unfold Task.loop
  split
  · rename_i none_left
    rw [none_left]
    rfl
  · rfl

theorem left_sum {w : Worker} (shapes : Shapes s) (mem : w ∈ s.workers) (task : Option Task) :
    ((Table.update Worker.thread w.thread (.setTask task) s.workers).map Worker.left).sum + w.left =
      (s.workers.map Worker.left).sum + task.elim 0 fun t => 3 * t.replies :=
  Table.sum_update Worker.left shapes.workerKeys mem

/-- A move leaves one less, and a request brings fourteen. -/
theorem remaining_step (shapes : Shapes s) (moved : Moved s l s') :
    s'.remaining + (if l.moves then 1 else 0) ≤ s.remaining + l.brings := by
  unfold State.remaining
  cases moved with
  | start missing => exact Nat.le_refl _
  | timeout mem room => exact Nat.le_refl _
  | @receive c frame net mem room received =>
      have fewer : Net.weight hopsOf s.net = 1 + Net.weight hopsOf net :=
        Net.weight_recv hopsOf received
      simp only [State.setClient, Label.moves, Label.brings, if_true]
      omega
  | @request c mem full =>
      have more : Net.weight hopsOf (s.net.send (.toFrontend c.identity)
          [requestText (c.requestNum + 1)]) = Net.weight hopsOf s.net + 14 :=
        Net.weight_send hopsOf s.net _ _
      simp only [State.setClient, Label.moves, Label.brings, Bool.false_eq_true, if_false]
      omega
  | @forward client content w net mem known received =>
      have passed : Net.weight hopsOf (net.send (.toWorker w.thread) [client, content]) + 14 =
          Net.weight hopsOf s.net + 13 := weight_forward hopsOf received _ _
      simp only [Label.moves, Label.brings, if_true]
      omega
  | @take w client content net rand mem idle known received =>
      have fewer : Net.weight hopsOf s.net = 13 + Net.weight hopsOf net :=
        Net.weight_recv hopsOf received
      have hands := left_sum shapes mem (Task.loop ⟨client, content, rand % 5⟩)
      have before : w.left = 0 := by rw [Worker.left, idle]; rfl
      have after := left_loop ⟨client, content, rand % 5⟩
      have drawn := Nat.mod_lt rand (by decide : 5 > 0)
      dsimp only at after
      simp only [State.setTask, Label.moves, Label.brings, if_true]
      omega
  | @reply w t mem busy =>
      have more : Net.weight hopsOf (s.net.send (.toBackend w.thread) [t.identity, t.content]) =
          Net.weight hopsOf s.net + 2 := Net.weight_send hopsOf s.net _ _
      have hands := left_sum shapes mem (Task.loop { t with replies := t.replies - 1 })
      have before : w.left = 3 * t.replies := by rw [Worker.left, busy]; rfl
      have after := left_loop { t with replies := t.replies - 1 }
      have some_left := (shapes.tasks w mem t busy).2
      dsimp only at after
      simp only [State.setTask, Label.moves, Label.brings, if_true]
      omega
  | @back worker client content net known received =>
      have passed : Net.weight hopsOf (net.send (.toClient client) [content]) + 2 =
          Net.weight hopsOf s.net + 1 := weight_forward hopsOf received _ _
      simp only [Label.moves, Label.brings, if_true]
      omega
  | lose found =>
      have fewer := Net.weight_eraseIdx hopsOf found
      simp only [Label.moves, Label.brings, Bool.false_eq_true, if_false]
      omega

theorem polls_setClient {c : Client} {write : Client → Client} (paced : Paced pool s)
    (shapes : Shapes s) (mem : c ∈ s.clients)
    (fine : (write c).centitick ≤ 100 ∧
      (write c).printed.length ≤ 100 * (write c).requestNum + (write c).centitick) :
    ∀ c' ∈ (s.setClient c.identity write).clients, c'.centitick ≤ 100 ∧
      c'.printed.length ≤ 100 * c'.requestNum + c'.centitick := by
  intro c' mem'
  rcases Table.mem_update.mp mem' with ⟨old, -⟩ | ⟨b, inside, same, rfl⟩
  · exact paced.polls c' old
  · rw [List.inj_on_of_nodup_map shapes.clientKeys inside mem same]
    exact fine

theorem Paced.step (paced : Paced pool s) (shapes : Shapes s) (moved : Moved s l s') :
    Paced pool s' := by
  cases moved with
  | start missing =>
      exact ⟨paced.threads, List.forall_mem_cons.mpr ⟨⟨Nat.zero_le _, Nat.le_refl 0⟩, paced.polls⟩⟩
  | @receive c frame net mem room received =>
      obtain ⟨-, few⟩ := paced.polls c mem
      refine ⟨paced.threads, polls_setClient paced shapes mem ⟨room, ?_⟩⟩
      simp only [Client.print, Client.poll, List.length_append, List.length_singleton]
      omega
  | @timeout c mem room =>
      obtain ⟨-, few⟩ := paced.polls c mem
      exact ⟨paced.threads, polls_setClient paced shapes mem ⟨room, Nat.le_succ_of_le few⟩⟩
  | @request c mem full =>
      obtain ⟨-, few⟩ := paced.polls c mem
      refine ⟨paced.threads, polls_setClient paced shapes mem ⟨Nat.zero_le _, ?_⟩⟩
      simp only [Client.request]
      omega
  | forward mem known received => exact ⟨paced.threads, paced.polls⟩
  | take mem idle known received => exact ⟨(threads_setTask _ _).trans paced.threads, paced.polls⟩
  | reply mem busy => exact ⟨(threads_setTask _ _).trans paced.threads, paced.polls⟩
  | back known received => exact ⟨paced.threads, paced.polls⟩
  | lose found => exact ⟨paced.threads, paced.polls⟩

theorem Paced.start (pool : Nat) : Paced pool (asyncServer pool).start where
  threads := (List.map_map ..).trans (List.map_id _)
  polls _ mem := absurd mem List.not_mem_nil

end Steps

/-! ### There is always a move -/

/-- After one request at most, a message moves. -/
abbrev Flows (pool : Nat) : State → Prop :=
  Soon (asyncServer pool) Label.prepares Label.moves

section Flows

variable {pool : Nat} {s : State}

/-- The text of a request fits its buffer as long as its number is an `int`. -/
theorem sprintf_requestText {n : Nat} (small : n < 2 ^ 31) :
    sprintf 30 (requestText n) = some (requestText n) := by
  refine if_pos ?_
  have digits : (printed 10 n).length ≤ 10 :=
    (length_printed_le_iff (by decide) (by decide)).mpr (Nat.lt_of_lt_of_le small (by decide))
  rw [requestText, List.length_append]
  exact Nat.lt_of_le_of_lt (Nat.add_le_add_left digits _) (by decide)

/-- A client with a message on its way polls, if need be after its next request. -/
theorem Kept.soon_toClient {client : Frame} {msg : Msg} (kept : Kept s) (paced : Paced pool s)
    (small : ∀ c ∈ s.clients, c.requestNum + 1 < 2 ^ 31)
    (mem : (.toClient client, msg) ∈ s.net) : Flows pool s := by
  obtain ⟨m, net, received⟩ := Net.recv_of_mem mem
  have shaped := kept.shapes.net _ (Net.mem_of_recv received)
  obtain ⟨content, rfl, known⟩ : ∃ content, m = [content] ∧ Known s client := by
    cases shaped with
    | reply known => exact ⟨_, rfl, known⟩
  obtain ⟨c, found⟩ := known.find
  obtain ⟨inside, rfl⟩ := client_of_find found
  rcases Nat.lt_or_eq_of_le (paced.polls c inside).1 with room | full
  · refine .now (rfl : Label.moves (.receive c.identity) = true) ?_
    simp only [asyncServer, AsyncServer.step, receive, found, Option.bind_some, room, if_true,
      received]
    exact ⟨_, rfl⟩
  · have asked : ∃ s', request s c.identity = some s' ∧
        s'.clients = Table.update Client.identity c.identity .request s.clients ∧
          (.toClient c.identity, [content]) ∈ s'.net := by
      simp only [request, found, Option.bind_some, full, small c inside, and_self, if_true,
        sprintf_requestText (small c inside), Option.map_some]
      exact ⟨_, rfl, rfl, Net.mem_send.mpr (.inl (Net.mem_of_recv received))⟩
    obtain ⟨s', taken, clients, there⟩ := asked
    obtain ⟨m', net', received'⟩ := Net.recv_of_mem there
    have moved := kept.shapes.moved (l := .request c.identity) taken
    have shaped' := (kept.shapes.kept moved).net _ (Net.mem_of_recv received')
    have found' : Table.find Client.identity c.identity s'.clients = some c.request := by
      have kept : ∀ a, (Client.request a).identity = a.identity := fun _ => rfl
      rw [clients, Table.find_update_self kept, found]
      rfl
    have polled : ∃ s'', receive s' c.identity = some s'' := by
      cases shaped' with
      | reply known =>
          simp only [receive, found', Option.bind_some, Client.request, received',
            List.getLast?_singleton, Option.map_some]
          exact ⟨_, rfl⟩
    obtain ⟨s'', polled⟩ := polled
    exact .after (rfl : Label.prepares (.request c.identity) = true) taken
      (rfl : Label.moves (.receive c.identity) = true) ⟨s'', polled⟩

/-- A worker with replies left sends one. -/
theorem Kept.soon_busy {w : Worker} {t : Task} (kept : Kept s) (mem : w ∈ s.workers)
    (busy : w.task = some t) : Flows pool s := by
  have found := Table.find_of_mem kept.shapes.workerKeys mem
  refine .now (rfl : Label.moves (.reply w.thread) = true) ?_
  simp only [asyncServer, AsyncServer.step, reply, found, Option.bind_some, busy, Option.map_some]
  exact ⟨_, rfl⟩

/-- A message on any pipe can be moved. -/
theorem Kept.soon_packet {p : Chan × Msg} (kept : Kept s) (paced : Paced pool s)
    (some_worker : 0 < pool)
    (small : ∀ c ∈ s.clients, c.requestNum + 1 < 2 ^ 31) (mem : p ∈ s.net) : Flows pool s := by
  obtain ⟨chan, msg⟩ := p
  obtain ⟨m, net, received⟩ := Net.recv_of_mem mem
  have there := Net.mem_of_recv received
  have shaped := kept.shapes.net _ there
  cases chan with
  | toFrontend client =>
      have worker : (0 : Nat) ∈ s.workers.map Worker.thread :=
        paced.threads ▸ List.mem_range.mpr some_worker
      obtain ⟨w, inside, here⟩ := List.mem_map.mp worker
      have found := Table.find_of_mem kept.shapes.workerKeys inside
      refine .now (rfl : Label.moves (.forward client w.thread) = true) ?_
      simp only [asyncServer, AsyncServer.step, forward, found, Option.bind_some, received,
        Option.map_some]
      exact ⟨_, rfl⟩
  | toWorker worker =>
      obtain ⟨w, inside, rfl⟩ := List.mem_map.mp (kept.shapes.workers _ there worker rfl)
      cases busy : w.task with
      | some t => exact kept.soon_busy inside busy
      | none =>
          have found := Table.find_of_mem kept.shapes.workerKeys inside
          refine .now (rfl : Label.moves (.take w.thread 0) = true) ?_
          cases shaped with
          | task known =>
              simp only [asyncServer, AsyncServer.step, take, found, Option.bind_some, busy,
                received, takeTask, zmsgPop, Option.map_some]
              exact ⟨_, rfl⟩
  | toBackend worker =>
      refine .now (rfl : Label.moves (.back worker) = true) ?_
      cases shaped with
      | answer known =>
          obtain ⟨c, found⟩ := known.find
          simp only [asyncServer, AsyncServer.step, back, received, Option.bind_some, found]
          exact ⟨_, rfl⟩
  | toClient client => exact kept.soon_toClient paced small mem

end Flows

/-- **Replies keep moving.** In every run of a pool of at least one worker, with any number of
clients, steps in any order and any message lost, no more messages are moved than fourteen for
each request. While a message is on its way or a worker has replies left, and no client has
counted its requests to the end of `int`, a message can be moved, after one request at most:
so nothing is stuck in the server, and the replies that were drawn are not held up for ever by
anything but the loss of a message. -/
theorem replies_flow {past : List (State × Label)} (pool : Nat) {s : State}
    (run : Run (asyncServer pool) past s) :
    past.countP (fun p => p.2.moves) + s.remaining ≤ (past.map fun p => p.2.brings).sum ∧
    (∀ c ∈ s.clients, c.printed.length ≤ 100 * c.requestNum + c.centitick) ∧
    (0 < pool → (∀ c ∈ s.clients, c.requestNum + 1 < 2 ^ 31) →
      (s.net ≠ [] ∨ ∃ w ∈ s.workers, w.task ≠ none) → Flows pool s) := by
  obtain ⟨⟨kept, paced⟩, paid⟩ := run.afforded (fun s => Kept s ∧ Paced pool s) State.remaining
    Label.moves Label.brings ⟨.start pool, .start pool⟩ fun s l s' inv taken => by
      have moved := inv.1.shapes.moved taken
      exact ⟨⟨inv.1.step taken, inv.2.step inv.1.shapes moved⟩, remaining_step inv.1.shapes moved⟩
  have none_left : (asyncServer pool).start.remaining = 0 := by
    have idle : ((asyncServer pool).start.workers.map Worker.left).sum = 0 := by
      refine List.sum_eq_zero fun n found => ?_
      obtain ⟨w, mem, rfl⟩ := List.mem_map.mp found
      obtain ⟨thread, -, rfl⟩ := List.mem_map.mp mem
      rfl
    rw [State.remaining, idle]
    rfl
  refine ⟨by omega, fun c mem => (paced.polls c mem).2, fun some_worker small left => ?_⟩
  rcases left with packets | ⟨w, mem, busy⟩
  · obtain ⟨p, mem⟩ := List.exists_mem_of_ne_nil _ packets
    exact kept.soon_packet paced some_worker small mem
  · obtain ⟨t, held⟩ := Option.ne_none_iff_exists'.mp busy
    exact kept.soon_busy mem held

/-- The client has polled a hundred times when its reply arrives: it sends a request first. -/
theorem replies_flow_after_polls : ∃ (past : List (State × Label)) (s : State),
    Run (asyncServer 5) past s ∧ past.countP (fun p => p.2.moves) = 4 ∧ s.remaining = 1 ∧
      Flows 5 s := by
  have ran : ((asyncServer 5).record [] (asyncServer 5).start
      (.start 10 :: List.replicate 100 (.timeout [0x61]) ++
        [.request [0x61], .forward [0x61] 4, .take 4 6, .reply 4, .back 4] ++
          List.replicate 100 (.timeout [0x61]))).map
      (fun p => (p.1.countP fun p => p.2.moves, p.2.remaining, p.2.net.length,
        p.2.clients.map Client.requestNum)) = some (4, 1, 1, [1]) := by decide +kernel
  obtain ⟨⟨past, s⟩, done, seen⟩ := Option.map_eq_some_iff.mp ran
  have run := Run.record .start done
  simp only [Prod.mk.injEq] at seen
  obtain ⟨moved, left, packets, numbers⟩ := seen
  obtain ⟨-, -, soon⟩ := replies_flow 5 run
  refine ⟨past, s, run, moved, left, soon (by decide) (fun c mem => ?_) (.inl fun empty => ?_)⟩
  · have number : c.requestNum ∈ s.clients.map Client.requestNum := List.mem_map_of_mem mem
    rw [numbers, List.mem_singleton] at number
    rw [number]
    decide
  · rw [empty] at packets
    cases packets

end ZmqPractices.AsyncServer
