import ZmqPractices.AsyncServer.System

/-!
Where the requests and the replies of the asynchronous server are, over whole runs.

`Shaped` says what a message looks like on each pipe. Every step is then one of a few moves
(`Moved`). For one request, `asks` counts it on its way to a worker and `answers` its replies
on their way back: what was asked is on its way, was taken or was lost, and what was drawn is
still to be sent, on its way, was printed or was lost (`Kept`).
-/

namespace ZmqPractices.AsyncServer

open Czmq Lib

/-! ### Shapes -/

def Known (s : State) (client : Frame) : Prop := client ∈ s.clients.map Client.identity

/-- A message on a pipe; the identity in it or beside it is that of a client. -/
inductive Shaped (known : Frame → Prop) : Chan → Msg → Prop
  | request {client content : Frame} (here : known client) :
      Shaped known (.toFrontend client) [content]
  | task {worker : Nat} {client content : Frame} (here : known client) :
      Shaped known (.toWorker worker) [client, content]
  | answer {worker : Nat} {client content : Frame} (here : known client) :
      Shaped known (.toBackend worker) [client, content]
  | reply {client content : Frame} (here : known client) :
      Shaped known (.toClient client) [content]

structure Shapes (s : State) : Prop where
  clientKeys : (s.clients.map Client.identity).Nodup
  workerKeys : (s.workers.map Worker.thread).Nodup
  net : ∀ p ∈ s.net, Shaped (Known s) p.1 p.2
  workers : ∀ p ∈ s.net, ∀ worker, p.1 = .toWorker worker → worker ∈ s.workers.map Worker.thread
  tasks : ∀ w ∈ s.workers, ∀ t ∈ w.task, Known s t.identity ∧ 0 < t.replies

/-! ### Moves -/

/-- What a step does when the shapes are kept. -/
inductive Moved (s : State) : Label → State → Prop
  | start {thread : Nat}
      (missing : Table.find Client.identity (identityText thread) s.clients = none) :
      Moved s (.start thread) { s with clients := ⟨identityText thread, 0, 0, []⟩ :: s.clients }
  | receive {c : Client} {frame : Frame} {net : Net Chan Msg} (mem : c ∈ s.clients)
      (room : c.centitick < 100)
      (received : Net.recv (.toClient c.identity) s.net = some ([frame], net)) :
      Moved s (.receive c.identity) { s.setClient c.identity (.print frame) with net := net }
  | timeout {c : Client} (mem : c ∈ s.clients) (room : c.centitick < 100) :
      Moved s (.timeout c.identity) (s.setClient c.identity .poll)
  | request {c : Client} (mem : c ∈ s.clients) (full : c.centitick = 100) :
      Moved s (.request c.identity) { s.setClient c.identity .request with
        net := s.net.send (.toFrontend c.identity) [requestText (c.requestNum + 1)] }
  | forward {client content : Frame} {w : Worker} {net : Net Chan Msg} (mem : w ∈ s.workers)
      (known : Known s client)
      (received : Net.recv (.toFrontend client) s.net = some ([content], net)) :
      Moved s (.forward client w.thread)
        { s with net := net.send (.toWorker w.thread) [client, content] }
  | take {w : Worker} {client content : Frame} {net : Net Chan Msg} {rand : Nat}
      (mem : w ∈ s.workers) (idle : w.task = none) (known : Known s client)
      (received : Net.recv (.toWorker w.thread) s.net = some ([client, content], net)) :
      Moved s (.take w.thread rand)
        { s.setTask w.thread (Task.loop ⟨client, content, rand % 5⟩) with
          net := net
          drawn := ⟨client, content, rand % 5⟩ :: s.drawn }
  | reply {w : Worker} {t : Task} (mem : w ∈ s.workers) (busy : w.task = some t) :
      Moved s (.reply w.thread)
        { s.setTask w.thread (Task.loop { t with replies := t.replies - 1 }) with
          net := s.net.send (.toBackend w.thread) [t.identity, t.content] }
  | back {worker : Nat} {client content : Frame} {net : Net Chan Msg} (known : Known s client)
      (received : Net.recv (.toBackend worker) s.net = some ([client, content], net)) :
      Moved s (.back worker) { s with net := net.send (.toClient client) [content] }
  | lose {packet : Nat} {p : Chan × Msg} (found : s.net[packet]? = some p) :
      Moved s (.lose packet) { s with net := s.net.eraseIdx packet, lost := p :: s.lost }

section

variable {s s' : State} {l : Label}

theorem client_of_find {client : Frame} {c : Client}
    (found : Table.find Client.identity client s.clients = some c) :
    c ∈ s.clients ∧ c.identity = client :=
  ⟨Table.mem_of_find found, Table.key_of_find found⟩

theorem Known.find {client : Frame} (known : Known s client) :
    ∃ c, Table.find Client.identity client s.clients = some c := by
  obtain ⟨c, mem, rfl⟩ := List.mem_map.mp known
  exact Table.find_isSome_of_mem mem

/-- What a step is, where the messages have their shapes. -/
theorem Shapes.moved (shapes : Shapes s) (taken : step s l = some s') : Moved s l s' := by
  cases l with
  | start thread =>
      obtain ⟨-, taken⟩ := Option.ite_none_right_eq_some.mp taken
      obtain ⟨identity, written, taken⟩ := Option.bind_eq_some_iff.mp taken
      obtain ⟨-, same⟩ := Option.ite_none_right_eq_some.mp written
      obtain rfl := Option.some.inj same
      split at taken
      · cases taken
      · rename_i missing
        obtain rfl := Option.some.inj taken
        exact .start missing
  | receive client =>
      obtain ⟨c, found, taken⟩ := Option.bind_eq_some_iff.mp taken
      obtain ⟨mem, rfl⟩ := client_of_find found
      obtain ⟨room, taken⟩ := Option.ite_none_right_eq_some.mp taken
      obtain ⟨⟨msg, net⟩, received, taken⟩ := Option.bind_eq_some_iff.mp taken
      have shaped := shapes.net _ (Net.mem_of_recv received)
      cases shaped with
      | reply known =>
          obtain ⟨frame, last, rfl⟩ := Option.map_eq_some_iff.mp taken
          obtain rfl := Option.some.inj last
          exact .receive mem room received
  | timeout client =>
      obtain ⟨c, found, taken⟩ := Option.bind_eq_some_iff.mp taken
      obtain ⟨mem, rfl⟩ := client_of_find found
      obtain ⟨room, taken⟩ := Option.ite_none_right_eq_some.mp taken
      obtain rfl := Option.some.inj taken
      exact .timeout mem room
  | request client =>
      obtain ⟨c, found, taken⟩ := Option.bind_eq_some_iff.mp taken
      obtain ⟨mem, rfl⟩ := client_of_find found
      obtain ⟨⟨full, -⟩, taken⟩ := Option.ite_none_right_eq_some.mp taken
      obtain ⟨buf, written, rfl⟩ := Option.map_eq_some_iff.mp taken
      obtain ⟨-, same⟩ := Option.ite_none_right_eq_some.mp written
      obtain rfl := Option.some.inj same
      exact .request mem full
  | forward client worker =>
      obtain ⟨w, found, taken⟩ := Option.bind_eq_some_iff.mp taken
      obtain rfl := Table.key_of_find found
      obtain ⟨⟨msg, net⟩, received, rfl⟩ := Option.map_eq_some_iff.mp taken
      have shaped := shapes.net _ (Net.mem_of_recv received)
      cases shaped with
      | request known => exact .forward (Table.mem_of_find found) known received
  | take worker rand =>
      obtain ⟨w, found, taken⟩ := Option.bind_eq_some_iff.mp taken
      obtain rfl := Table.key_of_find found
      split at taken
      · cases taken
      · rename_i idle
        obtain ⟨⟨msg, net⟩, received, taken⟩ := Option.bind_eq_some_iff.mp taken
        have shaped := shapes.net _ (Net.mem_of_recv received)
        cases shaped with
        | task known =>
            obtain ⟨t, written, rfl⟩ := Option.map_eq_some_iff.mp taken
            obtain rfl := Option.some.inj written
            exact .take (Table.mem_of_find found) idle known received
  | reply worker =>
      obtain ⟨w, found, taken⟩ := Option.bind_eq_some_iff.mp taken
      obtain rfl := Table.key_of_find found
      obtain ⟨t, busy, rfl⟩ := Option.map_eq_some_iff.mp taken
      exact .reply (Table.mem_of_find found) busy
  | back worker =>
      obtain ⟨⟨msg, net⟩, received, taken⟩ := Option.bind_eq_some_iff.mp taken
      have shaped := shapes.net _ (Net.mem_of_recv received)
      cases shaped with
      | answer known =>
          obtain ⟨c, found⟩ := known.find
          simp only [found, Option.some.injEq] at taken
          subst taken
          exact .back known received
  | lose packet =>
      obtain ⟨p, found, rfl⟩ := Option.map_eq_some_iff.mp taken
      exact .lose found

/-! ### Shapes are kept -/

theorem Shaped.imp {known known' : Frame → Prop} {chan : Chan} {msg : Msg}
    (shaped : Shaped known chan msg) (more : ∀ client, known client → known' client) :
    Shaped known' chan msg := by
  cases shaped with
  | request here => exact .request (more _ here)
  | task here => exact .task (more _ here)
  | answer here => exact .answer (more _ here)
  | reply here => exact .reply (more _ here)

/-- A step of a party that leaves the clients' identities and the workers' threads as they are:
what is new on the pipes and in the workers' hands has its shape. -/
theorem Shapes.step (shapes : Shapes s)
    (clients : s'.clients.map Client.identity = s.clients.map Client.identity)
    (threads : s'.workers.map Worker.thread = s.workers.map Worker.thread)
    (sent : ∀ p ∈ s'.net, p ∈ s.net ∨ Shaped (Known s) p.1 p.2 ∧
      ∀ worker, p.1 = .toWorker worker → worker ∈ s.workers.map Worker.thread)
    (held : ∀ w ∈ s'.workers, w ∈ s.workers ∨ ∀ t ∈ w.task, Known s t.identity ∧ 0 < t.replies) :
    Shapes s' where
  clientKeys := clients ▸ shapes.clientKeys
  workerKeys := threads ▸ shapes.workerKeys
  net p mem := by
    have known : Known s' = Known s := funext fun client => by rw [Known, Known, clients]
    rw [known]
    rcases sent p mem with old | new
    · exact shapes.net p old
    · exact new.1
  workers p mem worker is := by
    rw [threads]
    rcases sent p mem with old | new
    · exact shapes.workers p old worker is
    · exact new.2 worker is
  tasks w mem t busy := by
    rw [Known, clients]
    rcases held w mem with old | new
    · exact shapes.tasks w old t busy
    · exact new t busy

theorem identities_setClient {write : Client → Client} (identity : Frame)
    (kept : ∀ c, (write c).identity = c.identity) :
    (s.setClient identity write).clients.map Client.identity = s.clients.map Client.identity :=
  Table.keys_update kept

theorem threads_setTask (worker : Nat) (task : Option Task) :
    (s.setTask worker task).workers.map Worker.thread = s.workers.map Worker.thread :=
  Table.keys_update fun _ => rfl

theorem held_setTask {worker : Nat} {task : Option Task}
    (fine : ∀ t ∈ task, Known s t.identity ∧ 0 < t.replies) :
    ∀ w ∈ (s.setTask worker task).workers, w ∈ s.workers ∨
      ∀ t ∈ w.task, Known s t.identity ∧ 0 < t.replies := by
  intro w mem
  rcases Table.mem_update.mp mem with ⟨old, -⟩ | ⟨v, -, -, rfl⟩
  · exact .inl old
  · exact .inr fine

/-- A worker goes on only where there is something to send. -/
theorem Task.loop_fine {t : Task} (known : Known s t.identity) :
    ∀ t' ∈ t.loop, Known s t'.identity ∧ 0 < t'.replies := by
  intro t' goes
  obtain ⟨some_left, same⟩ := Option.ite_none_left_eq_some.mp goes
  obtain rfl := Option.some.inj same
  exact ⟨known, Nat.pos_of_ne_zero some_left⟩

theorem Shapes.kept (shapes : Shapes s) (moved : Moved s l s') : Shapes s' := by
  cases moved with
  | start missing =>
      exact {
        clientKeys := List.nodup_cons.mpr ⟨fun mem => by
          obtain ⟨c, inside, same⟩ := List.mem_map.mp mem
          exact Table.find_eq_none.mp missing c inside same, shapes.clientKeys⟩
        workerKeys := shapes.workerKeys
        net := fun p mem => (shapes.net p mem).imp fun _ known => List.mem_cons_of_mem _ known
        workers := shapes.workers
        tasks := fun w mem t busy =>
          ⟨List.mem_cons_of_mem _ (shapes.tasks w mem t busy).1, (shapes.tasks w mem t busy).2⟩ }
  | @receive c frame net mem room received =>
      exact shapes.step (identities_setClient c.identity fun _ => rfl) rfl
        (fun p left => .inl (Net.mem_of_mem_recv received left)) fun w old => .inl old
  | @timeout c mem room =>
      exact shapes.step (identities_setClient c.identity fun _ => rfl) rfl
        (fun p left => .inl left) fun w old => .inl old
  | @request c mem full =>
      refine shapes.step (identities_setClient c.identity fun _ => rfl) rfl (fun p sent => ?_)
        fun w old => .inl old
      rcases Net.mem_send.mp sent with old | rfl
      · exact .inl old
      · exact .inr ⟨.request (List.mem_map_of_mem mem), fun _ => Chan.noConfusion⟩
  | @forward client content w net mem known received =>
      refine shapes.step rfl rfl (fun p sent => ?_) fun w old => .inl old
      rcases Net.mem_send.mp sent with old | rfl
      · exact .inl (Net.mem_of_mem_recv received old)
      · refine .inr ⟨.task known, ?_⟩
        rintro worker ⟨⟩
        exact List.mem_map_of_mem mem
  | @take w client content net rand mem idle known received =>
      exact shapes.step rfl (threads_setTask w.thread _)
        (fun p left => .inl (Net.mem_of_mem_recv received left))
        (held_setTask (Task.loop_fine known))
  | @reply w t mem busy =>
      have known := (shapes.tasks w mem t busy).1
      refine shapes.step rfl (threads_setTask w.thread _) (fun p sent => ?_)
        (held_setTask (Task.loop_fine known))
      rcases Net.mem_send.mp sent with old | rfl
      · exact .inl old
      · exact .inr ⟨.answer known, fun _ => Chan.noConfusion⟩
  | @back worker client content net known received =>
      refine shapes.step rfl rfl (fun p sent => ?_) fun w old => .inl old
      rcases Net.mem_send.mp sent with old | rfl
      · exact .inl (Net.mem_of_mem_recv received old)
      · exact .inr ⟨.reply known, fun _ => Chan.noConfusion⟩
  | lose found =>
      exact shapes.step rfl rfl (fun p left => .inl (List.mem_of_mem_eraseIdx left))
        fun w old => .inl old

/-! ### One request and its replies -/

/-- Whether this is the request. -/
def mark (key : Frame × Frame) (client content : Frame) : Nat :=
  if (client, content) = key then 1 else 0

def asks (key : Frame × Frame) : Chan × Msg → Nat
  | (.toFrontend client, [content]) => mark key client content
  | (.toWorker _, [client, content]) => mark key client content
  | _ => 0

def answers (key : Frame × Frame) : Chan × Msg → Nat
  | (.toBackend _, [client, content]) => mark key client content
  | (.toClient client, [content]) => mark key client content
  | _ => 0

def Client.asked (key : Frame × Frame) (c : Client) : Nat :=
  (List.range c.requestNum).countP fun n => (c.identity, requestText (n + 1)) = key

def Client.got (key : Frame × Frame) (c : Client) : Nat :=
  c.printed.countP fun frame => (c.identity, frame) = key

def Task.taken (key : Frame × Frame) (t : Task) : Nat := mark key t.identity t.content

def Task.owes (key : Frame × Frame) (t : Task) : Nat := t.replies * mark key t.identity t.content

def Worker.owes (key : Frame × Frame) (w : Worker) : Nat := w.task.elim 0 (Task.owes key)

structure Kept (s : State) : Prop where
  shapes : Shapes s
  bounded : ∀ t ∈ s.drawn, t.replies ≤ 4
  requests : ∀ key, (s.clients.map (Client.asked key)).sum =
    Net.weight (asks key) s.net + Net.weight (asks key) s.lost + (s.drawn.map (Task.taken key)).sum
  replies : ∀ key, (s.drawn.map (Task.owes key)).sum =
    Net.weight (answers key) s.net + Net.weight (answers key) s.lost +
      (s.workers.map (Worker.owes key)).sum + (s.clients.map (Client.got key)).sum

theorem asked_request (key : Frame × Frame) (c : Client) :
    c.request.asked key = c.asked key + mark key c.identity (requestText (c.requestNum + 1)) := by
  rw [Client.asked, Client.asked, Client.request, List.range_succ, List.countP_append,
    List.countP_singleton, mark]
  simp only [decide_eq_true_eq]

theorem got_print (key : Frame × Frame) (c : Client) (frame : Frame) :
    (c.print frame).got key = c.got key + mark key c.identity frame := by
  rw [Client.got, Client.got, Client.print, List.countP_append, List.countP_singleton, mark]
  exact congrArg _ (if_congr decide_eq_true_iff rfl rfl)

/-- Where no replies are left, none are owed. -/
theorem owes_loop (key : Frame × Frame) (t : Task) :
    (t.loop).elim 0 (Task.owes key) = t.owes key := by
  unfold Task.loop
  split
  · rename_i none_left
    rw [Task.owes, none_left, Nat.zero_mul]
    rfl
  · rfl

/-- A reply is one of those that are owed. -/
theorem owes_reply (key : Frame × Frame) {t : Task} (some_left : 0 < t.replies) :
    Task.owes key { t with replies := t.replies - 1 } + mark key t.identity t.content =
      t.owes key := by
  rw [Task.owes, Task.owes, Nat.sub_one_mul]
  have part : mark key t.identity t.content ≤ t.replies * mark key t.identity t.content :=
    Nat.le_mul_of_pos_left _ some_left
  dsimp only
  omega

/-! ### The ledger is kept -/

theorem clients_sum (part : Client → Nat) {c : Client} (shapes : Shapes s) (mem : c ∈ s.clients)
    (write : Client → Client) :
    ((Table.update Client.identity c.identity write s.clients).map part).sum + part c =
      (s.clients.map part).sum + part (write c) :=
  Table.sum_update part shapes.clientKeys mem

theorem workers_sum (key : Frame × Frame) {w : Worker} (shapes : Shapes s) (mem : w ∈ s.workers)
    (task : Option Task) :
    ((Table.update Worker.thread w.thread (.setTask task) s.workers).map (Worker.owes key)).sum +
        w.owes key =
      (s.workers.map (Worker.owes key)).sum + task.elim 0 (Task.owes key) :=
  Table.sum_update (Worker.owes key) shapes.workerKeys mem

/-- A packet goes from one pipe to another. -/
theorem weight_forward (part : Chan × Msg → Nat) {chan : Chan} {msg : Msg} {net : Net Chan Msg}
    (received : Net.recv chan s.net = some (msg, net)) (chan' : Chan) (msg' : Msg) :
    Net.weight part (net.send chan' msg') + part (chan, msg) =
      Net.weight part s.net + part (chan', msg') := by
  rw [Net.weight_send, Net.weight_recv part received]
  omega

theorem Kept.drawn_bounded (kept : Kept s) (moved : Moved s l s') :
    ∀ t ∈ s'.drawn, t.replies ≤ 4 := by
  cases moved with
  | @take w client content net rand mem idle known received =>
      refine List.forall_mem_cons.mpr ⟨?_, kept.bounded⟩
      exact Nat.le_of_lt_succ (Nat.mod_lt rand (by decide))
  | _ => exact kept.bounded

/-- What was asked is on its way, was taken or was lost. -/
theorem Kept.requests_moved (kept : Kept s) (moved : Moved s l s') (key : Frame × Frame) :
    (s'.clients.map (Client.asked key)).sum =
      Net.weight (asks key) s'.net + Net.weight (asks key) s'.lost +
        (s'.drawn.map (Task.taken key)).sum := by
  cases moved with
  | start missing => simpa [Client.asked] using kept.requests key
  | @receive c frame net mem room received =>
      have asked := clients_sum (Client.asked key) kept.shapes mem (.print frame)
      have fewer := Net.weight_recv (asks key) received
      have before := kept.requests key
      have same : (c.print frame).asked key = c.asked key := rfl
      have no_request : asks key (.toClient c.identity, [frame]) = 0 := rfl
      dsimp only [State.setClient]
      omega
  | @timeout c mem room =>
      have asked := clients_sum (Client.asked key) kept.shapes mem .poll
      have before := kept.requests key
      have same : c.poll.asked key = c.asked key := rfl
      dsimp only [State.setClient]
      omega
  | @request c mem full =>
      have asked := clients_sum (Client.asked key) kept.shapes mem .request
      have more := asked_request key c
      have sent := Net.weight_send (asks key) s.net (.toFrontend c.identity)
        [requestText (c.requestNum + 1)]
      have one : asks key (.toFrontend c.identity, [requestText (c.requestNum + 1)]) =
        mark key c.identity (requestText (c.requestNum + 1)) := rfl
      have before := kept.requests key
      dsimp only [State.setClient]
      omega
  | @forward client content w net mem known received =>
      have moved := weight_forward (asks key) received (.toWorker w.thread) [client, content]
      have same : asks key (.toFrontend client, [content]) =
        asks key (.toWorker w.thread, [client, content]) := rfl
      have before := kept.requests key
      dsimp only
      omega
  | @take w client content net rand mem idle known received =>
      have fewer := Net.weight_recv (asks key) received
      have one : asks key (.toWorker w.thread, [client, content]) =
        Task.taken key ⟨client, content, rand % 5⟩ := rfl
      have before := kept.requests key
      dsimp only [State.setTask]
      rw [List.map_cons, List.sum_cons]
      omega
  | @reply w t mem busy =>
      have sent := Net.weight_send (asks key) s.net (.toBackend w.thread) [t.identity, t.content]
      have no_request : asks key (.toBackend w.thread, [t.identity, t.content]) = 0 := rfl
      have before := kept.requests key
      dsimp only [State.setTask]
      omega
  | @back worker client content net known received =>
      have moved := weight_forward (asks key) received (.toClient client) [content]
      have same : asks key (.toBackend worker, [client, content]) =
        asks key (.toClient client, [content]) := rfl
      have before := kept.requests key
      dsimp only
      omega
  | @lose packet p found =>
      have fewer := Net.weight_eraseIdx (asks key) found
      have more : Net.weight (asks key) (p :: s.lost) = asks key p + Net.weight (asks key) s.lost :=
        rfl
      have before := kept.requests key
      dsimp only
      omega

/-- What was drawn is to be sent, is on its way, was printed or was lost. -/
theorem Kept.replies_moved (kept : Kept s) (moved : Moved s l s') (key : Frame × Frame) :
    (s'.drawn.map (Task.owes key)).sum =
      Net.weight (answers key) s'.net + Net.weight (answers key) s'.lost +
        (s'.workers.map (Worker.owes key)).sum + (s'.clients.map (Client.got key)).sum := by
  cases moved with
  | start missing => simpa [Client.got] using kept.replies key
  | @receive c frame net mem room received =>
      have got := clients_sum (Client.got key) kept.shapes mem (.print frame)
      have fewer := Net.weight_recv (answers key) received
      have before := kept.replies key
      have more := got_print key c frame
      have one : answers key (.toClient c.identity, [frame]) = mark key c.identity frame := rfl
      dsimp only [State.setClient]
      omega
  | @timeout c mem room =>
      have got := clients_sum (Client.got key) kept.shapes mem .poll
      have before := kept.replies key
      have same : c.poll.got key = c.got key := rfl
      dsimp only [State.setClient]
      omega
  | @request c mem full =>
      have got := clients_sum (Client.got key) kept.shapes mem .request
      have same : c.request.got key = c.got key := rfl
      have sent := Net.weight_send (answers key) s.net (.toFrontend c.identity)
        [requestText (c.requestNum + 1)]
      have no_reply : answers key (.toFrontend c.identity, [requestText (c.requestNum + 1)]) = 0 :=
        rfl
      have before := kept.replies key
      dsimp only [State.setClient]
      omega
  | @forward client content w net mem known received =>
      have moved := weight_forward (answers key) received (.toWorker w.thread) [client, content]
      have same : answers key (.toFrontend client, [content]) =
        answers key (.toWorker w.thread, [client, content]) := rfl
      have before := kept.replies key
      dsimp only
      omega
  | @take w client content net rand mem idle known received =>
      have hands := workers_sum key kept.shapes mem (Task.loop ⟨client, content, rand % 5⟩)
      have owes := owes_loop key ⟨client, content, rand % 5⟩
      have none_owed : w.owes key = 0 := by rw [Worker.owes, idle]; rfl
      have fewer := Net.weight_recv (answers key) received
      have no_reply : answers key (.toWorker w.thread, [client, content]) = 0 := rfl
      have before := kept.replies key
      dsimp only [State.setTask]
      rw [List.map_cons, List.sum_cons]
      omega
  | @reply w t mem busy =>
      have hands := workers_sum key kept.shapes mem
        (Task.loop { t with replies := t.replies - 1 })
      have owes := owes_loop key { t with replies := t.replies - 1 }
      have owed := owes_reply key (kept.shapes.tasks w mem t busy).2
      have had : w.owes key = t.owes key := by rw [Worker.owes, busy]; rfl
      have sent := Net.weight_send (answers key) s.net (.toBackend w.thread)
        [t.identity, t.content]
      have one : answers key (.toBackend w.thread, [t.identity, t.content]) =
        mark key t.identity t.content := rfl
      have before := kept.replies key
      dsimp only [State.setTask]
      omega
  | @back worker client content net known received =>
      have moved := weight_forward (answers key) received (.toClient client) [content]
      have same : answers key (.toBackend worker, [client, content]) =
        answers key (.toClient client, [content]) := rfl
      have before := kept.replies key
      dsimp only
      omega
  | @lose packet p found =>
      have fewer := Net.weight_eraseIdx (answers key) found
      have more : Net.weight (answers key) (p :: s.lost) =
        answers key p + Net.weight (answers key) s.lost := rfl
      have before := kept.replies key
      dsimp only
      omega

theorem Kept.step (kept : Kept s) (taken : AsyncServer.step s l = some s') : Kept s' := by
  have moved := kept.shapes.moved taken
  exact {
    shapes := kept.shapes.kept moved
    bounded := kept.drawn_bounded moved
    requests := kept.requests_moved moved
    replies := kept.replies_moved moved }

end

end ZmqPractices.AsyncServer
