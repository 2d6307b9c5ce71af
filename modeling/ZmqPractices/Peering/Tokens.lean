import ZmqPractices.Peering.Loop

/-!
The workers of one prototype broker.

A `worker_task` plugs in with a REQ socket: it sends READY, and from then on takes a
message and sends it back, in turn. The broker takes any message on `localbe` for a
sign that its sender is available. Each started worker has one token, which is in
its message to the broker, in the list, in a request on its way to the worker, or in
the worker's hands; no step makes or loses one (`one_token`).
-/

namespace ZmqPractices.Peering

open Czmq Lib

/-- A `worker_task` between two messages, or with the message it is working on. -/
inductive WorkerTask where
  | waiting
  | processing (msg : Msg)
deriving DecidableEq, Repr

/-- A broker with its workers. `up` and `down` are the connections of `localbe`, named by
the identity the ROUTER gave the worker. -/
structure Pool where
  loop : Loop
  worker : Frame → Option WorkerTask
  up : Net Frame Msg
  down : Net Frame Msg

/-- A step of a worker, of the broker reading `localbe`, or of the broker elsewhere. -/
inductive PoolStep where
  | start (worker : Frame)
  | receive (worker : Frame)
  | reply (worker : Frame)
  | localbe (worker : Frame)
  | broker (step : LoopStep)
deriving DecidableEq, Repr

def Pool.setWorker (s : Pool) (worker : Frame) (task : WorkerTask) : Pool :=
  { s with worker := Function.update s.worker worker (some task) }

/-- A ROUTER strips the first frame and sends the rest to the worker it names. -/
def toWorker (down : Net Frame Msg) : Option Output → Net Frame Msg
  | some (.localbe (worker :: msg)) => down.send worker msg
  | _ => down

/-- Take over what a step of the broker leaves and sends. -/
def Pool.brokered (s : Pool) (up : Net Frame Msg) (done : Loop × Option Output) : Pool :=
  { s with loop := done.1, up := up, down := toWorker s.down done.2 }

def poolStep (s : Pool) : PoolStep → Option Pool
  | .start worker =>
      match s.worker worker with
      | none => some { s.setWorker worker .waiting with
          up := s.up.send worker (reqSend [workerReady]) }
      | some _ => none
  | .receive worker =>
      match s.worker worker with
      | some .waiting =>
          (Net.recv worker s.down).map fun (msg, down) =>
            match reqRecv msg with
            | some task => { s.setWorker worker (.processing task) with down := down }
            | none => { s with down := down }
      | _ => none
  | .reply worker =>
      match s.worker worker with
      | some (.processing task) =>
          some { s.setWorker worker .waiting with up := s.up.send worker (reqSend task) }
      | _ => none
  | .localbe worker => do
      let (msg, up) ← Net.recv worker s.up
      let done ← s.loop.next (.localbe (worker :: msg))
      return s.brokered up done
  | .broker step =>
      match step with
      | .localbe _ => none
      | step => (s.loop.next step).map (s.brokered s.up)

/-- The broker with any number of workers; what else reaches it is up to the labels. -/
def pool (self : Frame) (peers : List Frame) : System Pool PoolStep where
  start := ⟨.start self peers, fun _ => none, [], []⟩
  step := poolStep

/-! ### What a step can do -/

inductive PoolMove (s : Pool) : Pool → Prop where
  | started (worker : Frame) (absent : s.worker worker = none) :
      PoolMove s { s.setWorker worker .waiting with
        up := s.up.send worker (reqSend [workerReady]) }
  | received {worker : Frame} {msg task : Msg} {down : Net Frame Msg}
      (waiting : s.worker worker = some .waiting)
      (received : Net.recv worker s.down = some (msg, down)) (framed : reqRecv msg = some task) :
      PoolMove s { s.setWorker worker (.processing task) with down := down }
  | dropped {worker : Frame} {msg : Msg} {down : Net Frame Msg}
      (waiting : s.worker worker = some .waiting)
      (received : Net.recv worker s.down = some (msg, down)) (unframed : reqRecv msg = none) :
      PoolMove s { s with down := down }
  | replied {worker : Frame} {task : Msg} (processing : s.worker worker = some (.processing task)) :
      PoolMove s { s.setWorker worker .waiting with up := s.up.send worker (reqSend task) }
  | localbe {worker : Frame} {msg : Msg} {up : Net Frame Msg} {loop : Loop} {out : Option Output}
      (received : Net.recv worker s.up = some (msg, up))
      (done : s.loop.next (.localbe (worker :: msg)) = some (loop, out)) :
      PoolMove s (s.brokered up (loop, out))
  | broker {step : LoopStep} {loop : Loop} {out : Option Output}
      (elsewhere : ∀ msg, step ≠ .localbe msg) (done : s.loop.next step = some (loop, out)) :
      PoolMove s (s.brokered s.up (loop, out))

theorem poolStep_move {s s' : Pool} {label : PoolStep} (taken : poolStep s label = some s') :
    PoolMove s s' := by
  cases label with
  | start worker =>
      simp only [poolStep] at taken
      split at taken
      · rename_i absent
        exact Option.some.inj taken ▸ .started worker absent
      · cases taken
  | receive worker =>
      simp only [poolStep] at taken
      split at taken
      · rename_i waiting
        obtain ⟨⟨msg, down⟩, received, rfl⟩ := Option.map_eq_some_iff.mp taken
        cases framed : reqRecv msg with
        | none => exact .dropped waiting received framed
        | some task => exact .received waiting received framed
      · cases taken
  | reply worker =>
      simp only [poolStep] at taken
      split at taken
      · rename_i processing
        exact Option.some.inj taken ▸ .replied processing
      · cases taken
  | localbe worker =>
      obtain ⟨⟨msg, up⟩, received, taken⟩ := Option.bind_eq_some_iff.mp taken
      obtain ⟨⟨loop, out⟩, done, taken⟩ := Option.bind_eq_some_iff.mp taken
      exact Option.some.inj taken ▸ .localbe received done
  | broker step =>
      simp only [poolStep] at taken
      split at taken
      · cases taken
      · rename_i elsewhere
        obtain ⟨⟨loop, out⟩, done, rfl⟩ := Option.map_eq_some_iff.mp taken
        exact .broker elsewhere done

/-! ### Tokens -/

/-- Whether a worker in this state has a request in its hands. -/
def inHands : Option WorkerTask → Nat
  | some (.processing _) => 1
  | _ => 0

/-- The workers with a message on its way to the broker, those in the list, and those
with a request on its way to them. -/
def Pool.names (s : Pool) : List Frame :=
  s.up.map Prod.fst ++ s.loop.broker.availableWorkers.items ++ s.down.map Prod.fst

/-- The tokens of a worker, wherever they are. -/
def Pool.tokens (s : Pool) (worker : Frame) : Nat :=
  s.names.count worker + inHands (s.worker worker)

def Pool.started (s : Pool) (worker : Frame) : Nat := if (s.worker worker).isSome then 1 else 0

/-- What a step of the loop does to the list of available workers: a message on
`localbe` lists its sender, a request for `localbe` takes the first one. -/
theorem LoopMove.available {s s' : Loop} {step : LoopStep} {out : Option Output}
    (move : LoopMove s step s' out) :
    (∃ worker rest, step = .localbe (worker :: rest) ∧ Output.IsReply out ∧
      s'.broker.availableWorkers.items = s.broker.availableWorkers.items ++ [worker]) ∨
    (∃ worker msg, (∀ msg, step ≠ .localbe msg) ∧ out = some (.localbe (worker :: [] :: msg)) ∧
      s.broker.availableWorkers.items = worker :: s'.broker.availableWorkers.items) ∨
    ((∀ msg, step ≠ .localbe msg) ∧ (∀ msg, out ≠ some (.localbe msg)) ∧
      s'.broker.availableWorkers.items = s.broker.availableWorkers.items) := by
  cases move with
  | localbe worker rest statefe at_ reply => exact .inl ⟨worker, rest, rfl, reply, rfl⟩
  | taken rand worker workers at_ polled capacity available =>
      exact .inr (.inl ⟨worker, _, by simp, rfl, available⟩)
  | cloudbe msg statefe at_ reply =>
      refine .inr (.inr ⟨by simp, ?_, rfl⟩)
      cases reply <;> simp
  | _ => exact .inr (.inr ⟨by simp, by simp, rfl⟩)

/-- Every worker has its token, and every request on its way has the empty frame that a
REQ socket expects. -/
structure Tokened (s : Pool) : Prop where
  tokens : ∀ worker, s.tokens worker = s.started worker
  framed : ∀ p ∈ s.down, ∃ task, p.2 = [] :: task

section Step

variable {s s' : Pool} {worker : Frame}

/-- A step of the broker moves tokens and makes none. -/
theorem Tokened.of_perm (before : Tokened s) (names : s'.names.Perm s.names)
    (workers : s'.worker = s.worker) (framed : ∀ p ∈ s'.down, ∃ task, p.2 = [] :: task) :
    Tokened s' := by
  refine ⟨fun worker => ?_, framed⟩
  have tokens := before.tokens worker
  rwa [Pool.tokens, Pool.started, ← names.count_eq, ← workers] at tokens

/-- A step of a worker leaves it with one token. -/
theorem Tokened.setWorker (before : Tokened s) (task : WorkerTask)
    (workers : s'.worker = Function.update s.worker worker (some task))
    (one : s'.names.count worker + inHands (some task) = 1)
    (others : ∀ other, other ≠ worker → s'.names.count other = s.names.count other)
    (framed : ∀ p ∈ s'.down, ∃ task, p.2 = [] :: task) : Tokened s' := by
  refine ⟨fun other => ?_, framed⟩
  by_cases same : other = worker
  · rw [same, Pool.tokens, Pool.started, workers, Function.update_self]
    exact one
  · have tokens := before.tokens other
    rwa [Pool.tokens, Pool.started, ← others other same,
      ← Function.update_of_ne same (some task) s.worker,
      ← workers] at tokens

/-- What a worker sends puts its name among the names. -/
theorem names_send (up down : Net Frame Msg) (items : List Frame) (worker : Frame) (msg : Msg) :
    ((up.send worker msg).map Prod.fst ++ items ++ down.map Prod.fst).Perm
      (worker :: (up.map Prod.fst ++ items ++ down.map Prod.fst)) := by
  simp only [Net.send, List.map_append, List.map_cons, List.map_nil, List.append_assoc,
    List.singleton_append]
  exact List.perm_middle

/-- What a worker receives takes its name out. -/
theorem names_recv (up : Net Frame Msg) {down rest : Net Frame Msg} (items : List Frame)
    {worker : Frame} {msg : Msg} (received : Net.recv worker down = some (msg, rest)) :
    (up.map Prod.fst ++ items ++ down.map Prod.fst).Perm
      (worker :: (up.map Prod.fst ++ items ++ rest.map Prod.fst)) := by
  have taken := (Net.recv_perm received).map Prod.fst
  exact (taken.append_left _).trans List.perm_middle

/-- Reading a message of a worker moves its name to the list. -/
theorem names_listed {up rest : Net Frame Msg} (down : Net Frame Msg) (items : List Frame)
    {worker : Frame} {msg : Msg} (received : Net.recv worker up = some (msg, rest)) :
    (rest.map Prod.fst ++ (items ++ [worker]) ++ down.map Prod.fst).Perm
      (up.map Prod.fst ++ items ++ down.map Prod.fst) := by
  have taken : (up.map Prod.fst).Perm (worker :: rest.map Prod.fst) :=
    (Net.recv_perm received).map Prod.fst
  apply List.Perm.append_right
  rw [← List.append_assoc]
  exact (List.perm_append_singleton _ _).trans (taken.symm.append_right items)

/-- Sending a request to the first worker of the list moves its name on. -/
theorem names_taken (up down : Net Frame Msg) (items : List Frame) (worker : Frame) (msg : Msg) :
    (up.map Prod.fst ++ items ++ (down.send worker msg).map Prod.fst).Perm
      (up.map Prod.fst ++ worker :: items ++ down.map Prod.fst) := by
  have sent : (up.map Prod.fst ++ items ++ (down.map Prod.fst ++ [worker])).Perm
      (worker :: (up.map Prod.fst ++ items ++ down.map Prod.fst)) := by
    rw [← List.append_assoc]
    exact List.perm_append_singleton _ _
  simp only [Net.send, List.map_append, List.map_cons, List.map_nil]
  exact sent.trans (List.perm_middle.symm.append_right _)

theorem Tokened.start (before : Tokened s) (absent : s.worker worker = none) :
    Tokened { s.setWorker worker .waiting with
      up := s.up.send worker (reqSend [workerReady]) } := by
  have sent := names_send s.up s.down s.loop.broker.availableWorkers.items worker
    (reqSend [workerReady])
  have none_yet := before.tokens worker
  simp only [Pool.tokens, Pool.started, absent, inHands] at none_yet
  apply before.setWorker .waiting rfl
  · have counted := sent.count_eq worker
    rw [List.count_cons_self] at counted
    exact counted.trans (congrArg (· + 1) none_yet)
  · intro other differ
    exact (sent.count_eq other).trans (List.count_cons_of_ne differ.symm)
  · exact before.framed

theorem Tokened.receive {msg : Msg} {down : Net Frame Msg} (before : Tokened s)
    (waiting : s.worker worker = some .waiting)
    (received : Net.recv worker s.down = some (msg, down)) :
    ∃ task, reqRecv msg = some task ∧
      Tokened { s.setWorker worker (.processing task) with down := down } := by
  obtain ⟨task, framed⟩ := before.framed _ (Net.mem_of_recv received)
  obtain rfl : msg = [] :: task := framed
  have taken := names_recv s.up s.loop.broker.availableWorkers.items received
  have one := before.tokens worker
  simp only [Pool.tokens, Pool.started, waiting, inHands] at one
  refine ⟨task, rfl, ?_⟩
  apply before.setWorker (.processing task) rfl
  · have counted := taken.count_eq worker
    rw [List.count_cons_self] at counted
    exact counted.symm.trans one
  · intro other differ
    exact ((taken.count_eq other).trans (List.count_cons_of_ne differ.symm)).symm
  · exact fun p mem => before.framed p (Net.mem_of_mem_recv received mem)

theorem Tokened.reply {task : Msg} (before : Tokened s)
    (processing : s.worker worker = some (.processing task)) :
    Tokened { s.setWorker worker .waiting with up := s.up.send worker (reqSend task) } := by
  have sent := names_send s.up s.down s.loop.broker.availableWorkers.items worker (reqSend task)
  have one := before.tokens worker
  simp only [Pool.tokens, Pool.started, processing, inHands] at one
  apply before.setWorker .waiting rfl
  · have counted := sent.count_eq worker
    rw [List.count_cons_self] at counted
    exact counted.trans one
  · intro other differ
    exact (sent.count_eq other).trans (List.count_cons_of_ne differ.symm)
  · exact before.framed

/-- A reply of the broker leaves the connections to the workers alone. -/
theorem toWorker_of_ne {out : Option Output} (down : Net Frame Msg)
    (elsewhere : ∀ msg, out ≠ some (.localbe msg)) : toWorker down out = down := by
  unfold toWorker
  split
  · exact absurd rfl (elsewhere _)
  · rfl

theorem Tokened.localbe {msg : Msg} {up : Net Frame Msg} {loop : Loop} {out : Option Output}
    (before : Tokened s) (received : Net.recv worker s.up = some (msg, up))
    (done : s.loop.next (.localbe (worker :: msg)) = some (loop, out)) :
    Tokened (s.brokered up (loop, out)) := by
  rcases (next_move done).available with ⟨_, _, label, reply, items⟩ | ⟨_, _, other, _⟩ | ⟨other, _⟩
  · obtain ⟨rfl, -⟩ := List.cons.inj (LoopStep.localbe.inj label)
    have down : toWorker s.down out = s.down := by
      apply toWorker_of_ne
      rintro msg rfl
      cases reply
    have moved := names_listed s.down s.loop.broker.availableWorkers.items received
    apply before.of_perm
    · simpa only [Pool.names, Pool.brokered, down, items] using moved
    · rfl
    · simpa only [Pool.brokered, down] using before.framed
  · exact absurd rfl (other _)
  · exact absurd rfl (other _)

theorem Tokened.broker {step : LoopStep} {loop : Loop} {out : Option Output}
    (before : Tokened s) (elsewhere : ∀ msg, step ≠ .localbe msg)
    (done : s.loop.next step = some (loop, out)) : Tokened (s.brokered s.up (loop, out)) := by
  rcases (next_move done).available with ⟨_, _, label, _⟩ | ⟨worker, msg, _, rfl, items⟩ |
    ⟨_, quiet, items⟩
  · exact absurd label (elsewhere _)
  · have moved := names_taken s.up s.down loop.broker.availableWorkers.items worker ([] :: msg)
    rw [← items] at moved
    apply before.of_perm
    · exact moved
    · rfl
    · intro p mem
      rcases Net.mem_send.mp mem with mem | rfl
      · exact before.framed p mem
      · exact ⟨msg, rfl⟩
  · have down := toWorker_of_ne s.down quiet
    apply before.of_perm
    · simp only [Pool.names, Pool.brokered, down, items]
      exact .refl _
    · rfl
    · simpa only [Pool.brokered, down] using before.framed

theorem Tokened.move (before : Tokened s) (move : PoolMove s s') : Tokened s' := by
  cases move with
  | started worker absent => exact before.start absent
  | received waiting received framed =>
      obtain ⟨task, framed', after⟩ := before.receive waiting received
      obtain rfl := Option.some.inj (framed.symm.trans framed')
      exact after
  | dropped waiting received unframed =>
      obtain ⟨task, framed, _⟩ := before.receive waiting received
      exact absurd (unframed.symm.trans framed) (by simp)
  | replied processing => exact before.reply processing
  | localbe received done => exact before.localbe received done
  | broker elsewhere done => exact before.broker elsewhere done

end Step

theorem tokened_of_reachable {self : Frame} {peers : List Frame} {s : Pool}
    (reach : Reachable (pool self peers) s) : Tokened s := by
  apply reach.invariant Tokened
  · exact ⟨fun _ => rfl, by simp [pool]⟩
  · exact fun s label s' before taken => before.move (poolStep_move taken)

/-- The broker of a pool runs its loop, so what is proved of one loop holds here. -/
theorem pool_reachable {self : Frame} {peers : List Frame} {s : Pool}
    (reach : Reachable (pool self peers) s) : Reachable (loop self peers) s.loop := by
  obtain ⟨l, loops, rfl⟩ : ∃ l, Reachable (loop self peers) l ∧ s.loop = l := by
    apply reach.simulated (fun s l => s.loop = l) rfl
    rintro s label s' _ _ rfl taken
    cases poolStep_move taken with
    | localbe received done => exact .inr ⟨_, _, loop_step done, rfl⟩
    | broker elsewhere done => exact .inr ⟨_, _, loop_step done, rfl⟩
    | _ => exact .inl rfl
  exact loops

/-- **Each started worker has one token.** With any number of workers and in every
reachable state, a worker that has started has its READY or a reply on its way to
`localbe`, or is in the list of available workers once, or has a request on its way to
it, or is working on one; and it is in no two of these places and in none of them
twice. A worker that has not started is in none. -/
theorem one_token {self : Frame} {peers : List Frame} {s : Pool}
    (reach : Reachable (pool self peers) s) (worker : Frame) :
    (s.worker worker ≠ none →
      (s.up.on worker).length + s.loop.broker.availableWorkers.items.count worker +
        (s.down.on worker).length + inHands (s.worker worker) = 1) ∧
    (s.worker worker = none →
      s.up.on worker = [] ∧ worker ∉ s.loop.broker.availableWorkers.items ∧
        s.down.on worker = []) := by
  have tokens := (tokened_of_reachable reach).tokens worker
  simp only [Pool.tokens, Pool.names, List.count_append, ← Net.length_on] at tokens
  constructor
  · intro started
    rw [tokens, Pool.started, if_pos (Option.isSome_iff_ne_none.mpr started)]
  · intro absent
    simp only [Pool.started, absent, inHands, Option.isSome_none, Bool.false_eq_true, if_false,
      Nat.add_zero, Nat.add_eq_zero_iff, List.length_eq_zero_iff, List.count_eq_zero] at tokens
    exact ⟨tokens.1.1, tokens.1.2, tokens.2⟩

/-- Two workers that have started, one of them with a request. -/
theorem one_token_two : ∃ s, Reachable (pool [0x41] []) s ∧
    s.loop.broker.availableWorkers.items = [[0, 2]] ∧
      s.worker [0, 1] = some (.processing [[0, 9], [], [0x71]]) ∧
      (s.up.on [0, 1]).length + s.loop.broker.availableWorkers.items.count [0, 1] +
        (s.down.on [0, 1]).length + inHands (s.worker [0, 1]) = 1 := by
  have ran : ((pool [0x41] []).exec (pool [0x41] []).start
      [.start [0, 1], .start [0, 2], .broker (.poll true false false), .localbe [0, 1],
        .broker .noStatus, .broker .publish, .broker (.poll true false false), .localbe [0, 2],
        .broker .noStatus, .broker (.request 0 (some [[0, 9], [], [0x71]]) none),
        .receive [0, 1]]).map
        (fun s => (s.loop.broker.availableWorkers.items, s.worker [0, 1])) =
      some ([[0, 2]], some (.processing [[0, 9], [], [0x71]])) := by decide
  obtain ⟨s, done, seen⟩ := Option.map_eq_some_iff.mp ran
  obtain ⟨items, task⟩ := Prod.mk.inj seen
  have reach := Reachable.start.exec done
  exact ⟨s, reach, items, task, (one_token reach [0, 1]).1 (by simp [task])⟩

end ZmqPractices.Peering
