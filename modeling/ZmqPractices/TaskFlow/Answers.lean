import Mathlib.Algebra.BigOperators.Pi
import Mathlib.Algebra.Order.Group.Multiset
import ZmqPractices.Peering.Replies
import ZmqPractices.TaskFlow.Custody

/-!
The replies of the task flow prototype, and what its parties are never asked to do.

Every reply on its way was written by a worker of the client's broker or of a peer of it, and
so was every reply a client got. With the ledgers it follows that each request is answered at
most once, and that nothing but a lost message keeps a client waiting.
-/

namespace ZmqPractices.TaskFlow

open Czmq Lib
open Peering

variable {cluster : Cluster}

/-! ### Texts -/

theorem length_hex {n : Nat} (bound : n < 2 ^ 32) : (padded 8 16 n).length = 8 := by
  have short : (printed 16 n).length ≤ 8 :=
    (length_printed_le_iff (by decide) (by decide)).mpr bound
  rw [length_padded, max_eq_left short]

theorem length_answerText (self : Frame) {socket : Nat} (bound : socket < 2 ^ 32) :
    (answerText self socket).length = self.length + 12 := by
  rw [answerText, List.length_append, List.length_append, List.length_cons, length_hex bound]
  rfl

theorem nulFree_answerText {self : Frame} (nulFree : NulFree self) (socket : Nat) :
    NulFree (answerText self socket) := by
  intro mem
  rw [answerText, List.mem_append, List.mem_append, List.mem_cons] at mem
  rcases mem with (mem | mem | mem) | mem
  · exact nulFree mem
  · exact absurd mem (by decide)
  · rcases mem_padded mem with zero | digit
    · exact absurd zero (by decide)
    · have hex : IsHexDigit 0 := isHexDigit_of_mem_printed digit
      exact absurd hex (by decide)
  · exact absurd mem (by decide)

/-- An answer fits the worker's buffer exactly when the broker's name has less than twenty
bytes. -/
theorem answer_defined_iff {w : Worker} {task : Msg} (bound : w.socket < 2 ^ 32)
    (framed : task ≠ []) : (∃ answer, w.answer task = some answer) ↔ w.self.length < 20 := by
  have length := length_answerText w.self bound
  constructor
  · rintro ⟨answer, written⟩
    have fits := (Option.ite_none_right_eq_some.mp written).1.2
    omega
  · intro short
    exact ⟨_, if_pos ⟨framed, by omega⟩⟩

/-! ### Who wrote a reply -/

/-- One of these workers wrote the text, for a client of the broker. -/
def Written (cluster : Cluster) (workers : List Worker) (self text : Frame) : Prop :=
  ∃ w ∈ workers, w.Wrote cluster self text

theorem Written.setTask {workers : List Worker} {self text : Frame}
    (written : Written cluster workers self text) (key : Frame × Frame) (task : Option Msg) :
    Written cluster (Table.update Worker.key key (.setTask task) workers) self text := by
  obtain ⟨w, mem, wrote⟩ := written
  by_cases here : w.key = key
  · exact ⟨w.setTask task, Table.mem_update.mpr (.inr ⟨w, mem, here, rfl⟩), wrote⟩
  · exact ⟨w, Table.mem_update.mpr (.inl ⟨mem, here⟩), wrote⟩

structure Texts (cluster : Cluster) (s : State) : Prop where
  onWay : ∀ p ∈ s.net, hops p.1 ≤ 3 → ∀ t ∈ tokenOf p, Written cluster s.workers t.1.1 t.2
  got : ∀ c ∈ s.clients, ∀ reply ∈ c.replies, Written cluster s.workers c.self reply
  counted : ∀ c ∈ s.clients, c.sent = c.replies.length + if c.waiting then 1 else 0

section Steps

variable {s s' : State} {l : Label}

theorem Texts.hop {self : Frame} {chan : Chan} {msg : Msg} {net : Net Chan Msg} {b : Broker}
    {out : Option Output} (texts : Texts cluster s)
    (received : Net.recv chan s.net = some (msg, net))
    (hop : Hop cluster self (s.broker self) (chan, msg) b (out.bind (address self))) :
    Texts cluster (s.routed self b (deliver self net out)) where
  onWay p mem near t carried := by
    rcases mem_deliver.mp mem with mem | sent
    · exact texts.onWay p (Net.mem_of_mem_recv received mem) near t carried
    · have token := hop.token
      rw [Option.mem_def.mp sent, Option.bind_some, Option.mem_def.mp carried] at token
      exact texts.onWay _ (Net.mem_of_recv received) (hop.reply p sent near) t token.symm
  got := texts.got
  counted := texts.counted

/-- Where keys are unique, a client's write is seen in that client only. -/
theorem mem_setClient {c d : Client} {write : Client → Client}
    (unique : (s.clients.map Client.key).Nodup) (mem : c ∈ s.clients)
    (inside : d ∈ (s.setClient c.key write).clients) : d ∈ s.clients ∨ d = write c := by
  rcases Table.mem_update.mp inside with ⟨old, -⟩ | ⟨e, old, here, rfl⟩
  · exact .inl old
  · exact .inr (congrArg write (List.inj_on_of_nodup_map unique old mem here))

theorem Texts.send {c : Client} {msg : Msg} (texts : Texts cluster s)
    (unique : (s.clients.map Client.key).Nodup) (mem : c ∈ s.clients) (idle : c.waiting = false) :
    Texts cluster { s.setClient c.key .send with
      net := s.net.send (.toLocalfe c.self c.identity) msg } where
  onWay p inside near t carried := by
    rcases Net.mem_send.mp inside with inside | rfl
    · exact texts.onWay p inside near t carried
    · have far : 7 ≤ 3 := near
      exact absurd far (by decide)
  got d inside reply given := by
    rcases mem_setClient unique mem inside with old | rfl
    · exact texts.got d old reply given
    · exact texts.got c mem reply given
  counted d inside := by
    rcases mem_setClient unique mem inside with old | rfl
    · exact texts.counted d old
    · have counted := texts.counted c mem
      rw [idle] at counted
      exact congrArg (· + 1) counted

theorem Texts.clientReceive {c : Client} {frame : Frame} {net : Net Chan Msg}
    (texts : Texts cluster s) (shapes : Shapes cluster s) (mem : c ∈ s.clients)
    (waiting : c.waiting = true)
    (received : Net.recv (.toClient c.self c.identity) s.net = some (reqSend [frame], net)) :
    Texts cluster { s.setClient c.key (.receive frame) with net := net } where
  onWay p inside := texts.onWay p (Net.mem_of_mem_recv received inside)
  got d inside reply given := by
    rcases mem_setClient shapes.clientKeys mem inside with old | rfl
    · exact texts.got d old reply given
    · rcases List.mem_append.mp given with given | given
      · exact texts.got c mem reply given
      · have near : hops (.toClient c.self c.identity) ≤ 3 := Nat.le_add_left 1 2
        obtain ⟨w, there, place, text⟩ := texts.onWay _ (Net.mem_of_recv received) near _ rfl
        refine ⟨w, there, place, ?_⟩
        have string : zframeStrdup frame = frame := by
          rw [show frame = answerText w.self w.socket from text]
          exact zframeStrdup_of_nulFree
            (nulFree_answerText (cluster.names_nulFree _ (shapes.workers w there).1) _)
        rw [List.mem_singleton.mp given, string]
        exact text
  counted d inside := by
    rcases mem_setClient shapes.clientKeys mem inside with old | rfl
    · exact texts.counted d old
    · have counted := texts.counted c mem
      rw [waiting] at counted
      show c.sent = (c.replies ++ [zframeStrdup frame]).length
      rw [List.length_append, counted]
      rfl

theorem Texts.setTask {key : Frame × Frame} {task : Option Msg} {net : Net Chan Msg}
    (texts : Texts cluster s)
    (onWay : ∀ p ∈ net, hops p.1 ≤ 3 → ∀ t ∈ tokenOf p, Written cluster s.workers t.1.1 t.2) :
    Texts cluster { s.setTask key task with net := net } where
  onWay p inside near t carried := (onWay p inside near t carried).setTask key task
  got c mem reply given := (texts.got c mem reply given).setTask key task
  counted := texts.counted

theorem Texts.workerStart {self identity : Frame} (texts : Texts cluster s) (socket : Nat) :
    Texts cluster { s with
      workers := ⟨self, identity, socket, none⟩ :: s.workers
      net := s.net.send (.toLocalbe self identity) (reqSend [workerReady]) } where
  onWay p inside near t carried := by
    rcases Net.mem_send.mp inside with inside | rfl
    · obtain ⟨w, mem, wrote⟩ := texts.onWay p inside near t carried
      exact ⟨w, List.mem_cons_of_mem _ mem, wrote⟩
    · cases carried
  got c mem reply given := by
    obtain ⟨w, mem, wrote⟩ := texts.got c mem reply given
    exact ⟨w, List.mem_cons_of_mem _ mem, wrote⟩
  counted := texts.counted

theorem Texts.step (texts : Texts cluster s) (shapes : Shapes cluster s)
    (moved : Moved cluster s l s') : Texts cluster s' := by
  cases moved with
  | hop named received hop moves => exact texts.hop received hop
  | turned quiet => exact { texts with }
  | clientStart missing named zeroLed =>
      exact { texts with
        got := List.forall_mem_cons.mpr
          ⟨fun _ absent => absurd absent List.not_mem_nil, texts.got⟩
        counted := List.forall_mem_cons.mpr ⟨rfl, texts.counted⟩ }
  | send mem idle => exact texts.send shapes.clientKeys mem idle
  | clientReceive mem waiting received => exact texts.clientReceive shapes mem waiting received
  | workerStart missing named bound => exact texts.workerStart _
  | workerReceive mem idle received =>
      exact texts.setTask fun p inside => texts.onWay p (Net.mem_of_mem_recv received inside)
  | reply mem busy shaped same wrote =>
      refine texts.setTask fun p inside near t carried => ?_
      rcases Net.mem_send.mp inside with inside | rfl
      · exact texts.onWay p inside near t carried
      · exact ⟨_, mem, wrote t carried⟩
  | lose found =>
      exact { texts with onWay := fun p mem => texts.onWay p (List.mem_of_mem_eraseIdx mem) }

end Steps

/-! ### Runs -/

/-- The invariants of the system. -/
structure Kept (cluster : Cluster) (s : State) : Prop where
  shapes : Shapes cluster s
  ledger : Ledger s
  texts : Texts cluster s

theorem Kept.start : Kept cluster (taskFlow cluster).start where
  shapes := {
    peers := fun _ => rfl
    counted := fun _ => rfl
    clientKeys := List.nodup_nil
    workerKeys := List.nodup_nil
    clients := by simp [taskFlow]
    workers := by simp [taskFlow]
    net := by simp [taskFlow]
    inHand := by simp [taskFlow] }
  ledger := ⟨rfl, rfl⟩
  texts := ⟨by simp [taskFlow], by simp [taskFlow], by simp [taskFlow]⟩

theorem Kept.step {s s' : State} {l : Label} (kept : Kept cluster s)
    (taken : (taskFlow cluster).step s l = some s') : Kept cluster s' := by
  have moved := kept.shapes.moved (step_stepped taken)
  exact ⟨kept.shapes.step moved, kept.ledger.step kept.shapes moved,
    kept.texts.step kept.shapes moved⟩

theorem kept_of_reachable {s : State} (reach : Reachable (taskFlow cluster) s) : Kept cluster s :=
  reach.invariant (Kept cluster) .start fun _ _ _ kept taken => kept.step taken

/-! ### Counts -/

section Counts

variable {M N : Type*} [AddCancelCommMonoid M] [AddCancelCommMonoid N] {s : State}

/-- Counting in a total is counting in its parts. -/
theorem total_count (count : M →+ N) (part : Chan × Msg → M) (s : State) :
    count (s.total part) = s.total fun p => count (part p) := by
  have weight (net : Net Chan Msg) :
      count (Net.weight part net) = Net.weight (fun p => count (part p)) net := by
    rw [Net.weight, map_list_sum, List.map_map]
    rfl
  have hands : count (s.workers.map fun w => w.inHand.elim 0 part).sum =
      (s.workers.map fun w => w.inHand.elim 0 fun p => count (part p)).sum := by
    rw [map_list_sum, List.map_map]
    congr 1
    refine List.map_congr_left fun w _ => ?_
    rw [Function.comp_apply]
    cases w.inHand with
    | none => exact map_zero count
    | some p => rfl
  rw [State.total, State.total, map_add, map_add, weight, weight, hands]

/-- Where a total is zero, every message that is not lost counts for nothing. -/
theorem part_of_total_zero {part : Chan × Msg → Nat} (nothing : s.total part = 0) :
    (∀ p ∈ s.net, part p = 0) ∧ ∀ w ∈ s.workers, ∀ p ∈ w.inHand, part p = 0 := by
  obtain ⟨packets, hands⟩ := Nat.add_eq_zero_iff.mp nothing
  obtain ⟨packets, -⟩ := Nat.add_eq_zero_iff.mp packets
  constructor
  · intro p mem
    exact List.sum_eq_zero_iff_forall_eq_nat.mp packets _ (List.mem_map_of_mem mem)
  · intro w mem p held
    have none_held := List.sum_eq_zero_iff_forall_eq_nat.mp hands _ (List.mem_map_of_mem mem)
    rwa [Option.mem_def.mp held, Option.elim_some] at none_held

/-- The messages of a client, wherever they are, are one while it waits and none else. -/
theorem Kept.asked_count {c : Client} (kept : Kept cluster s) (mem : c ∈ s.clients) :
    (s.total asked).count c.key = if c.waiting then 1 else 0 := by
  have owed := congrArg (Multiset.countAddMonoidHom c.key) kept.ledger.owed
  rw [map_list_sum, List.map_map, Table.sum_single kept.shapes.clientKeys mem] at owed
  · refine owed.trans ?_
    show (c.asking).count c.key = _
    unfold Client.asking
    split
    · exact Multiset.count_singleton_self _
    · exact Multiset.count_zero _
  · intro d _ other
    show (d.asking).count c.key = 0
    unfold Client.asking
    split
    · rw [Multiset.count_singleton, if_neg (Ne.symm other)]
    · exact Multiset.count_zero _

/-- How often a worker is in a broker's places. -/
def atSeat (self worker : Frame) : (Frame → Multiset Frame) →+ ℕ :=
  (Multiset.countAddMonoidHom worker).comp (Pi.evalAddMonoidHom _ self)

theorem atSeat_single (self worker self' worker' : Frame) :
    atSeat self worker (Pi.single self' {worker'}) =
      if (self', worker') = (self, worker) then 1 else 0 := by
  show Multiset.count worker ((Pi.single self' {worker'} : Frame → Multiset Frame) self) = _
  by_cases here : self = self'
  · subst here
    rw [Pi.single_eq_same, Multiset.count_singleton]
    by_cases same : worker = worker'
    · rw [if_pos same, if_pos (by rw [same])]
    · rw [if_neg same, if_neg fun eq => same (Prod.mk.inj eq).2.symm]
  · rw [Pi.single_eq_of_ne here, Multiset.count_zero, if_neg fun eq => here (Prod.mk.inj eq).1.symm]

/-- The places of a worker, in a message or in its broker's list. -/
theorem Kept.places (kept : Kept cluster s) (self worker : Frame) :
    (s.total fun p => atSeat self worker (seat p)) + (s.broker self).workers.items.count worker =
      (s.workers.map fun w => if w.key = (self, worker) then 1 else 0).sum := by
  have seats := congrArg (atSeat self worker) kept.ledger.seats
  rw [map_add, total_count, map_list_sum, List.map_map] at seats
  have list : atSeat self worker s.listed = (s.broker self).workers.items.count worker := by
    refine (Multiset.coe_count ..).trans ?_
    rw [lawful_beq_subsingleton instBEqOfDecidableEq List.instBEq]
  rw [list] at seats
  refine seats.trans (congrArg List.sum (List.map_congr_left fun w _ => ?_))
  exact atSeat_single self worker w.self w.identity

/-- A worker that was started has one place. -/
theorem Kept.one_place {w : Worker} (kept : Kept cluster s) (mem : w ∈ s.workers) :
    (s.total fun p => atSeat w.self w.identity (seat p)) +
      (s.broker w.self).workers.items.count w.identity = 1 := by
  rw [kept.places w.self w.identity, Table.sum_single kept.shapes.workerKeys mem]
  · exact if_pos rfl
  · exact fun v _ other => if_neg other

/-- Only a worker that was started has a place. -/
theorem Kept.started_of_place (kept : Kept cluster s) (self worker : Frame)
    (somewhere : (s.total fun p => atSeat self worker (seat p)) +
      (s.broker self).workers.items.count worker ≠ 0) :
    ∃ w ∈ s.workers, w.key = (self, worker) := by
  by_contra missing
  apply somewhere
  rw [kept.places self worker]
  refine List.sum_eq_zero_iff_forall_eq_nat.mpr fun n found => ?_
  obtain ⟨w, inside, rfl⟩ := List.mem_map.mp found
  exact if_neg fun same => missing ⟨w, inside, same⟩

/-- A listed worker was started, and there is nothing of it anywhere else. -/
theorem Kept.listed_idle {self worker : Frame} (kept : Kept cluster s)
    (listed : worker ∈ (s.broker self).workers.items) :
    ∃ w ∈ s.workers, w.key = (self, worker) ∧ (s.broker self).workers.items.count worker = 1 ∧
      (s.total fun p => atSeat self worker (seat p)) = 0 := by
  have counted := List.count_pos_iff.mpr listed
  obtain ⟨w, mem, here⟩ := kept.started_of_place self worker (by omega)
  obtain ⟨rfl, rfl⟩ := Prod.mk.inj here
  have one := kept.one_place mem
  exact ⟨w, mem, rfl, by omega, by omega⟩

end Counts

/-! ### What is read and who got it -/

/-- **Each request is answered at most once, by a worker nearby.** In every reachable state of
any number of peered brokers: each reply that a client got was written by a worker that was
started at the client's broker or at a peer of it; a client that waits has sent one request
more than it got replies, and another as many; and of a client that waits exactly one message,
on its way, in a worker's hands or lost, is its request or the reply, and of another none. -/
theorem answered_once {s : State} (reach : Reachable (taskFlow cluster) s) {c : Client}
    (mem : c ∈ s.clients) :
    (∀ reply ∈ c.replies, ∃ w ∈ s.workers, (w.self = c.self ∨ w.self ∈ cluster.peers c.self) ∧
      reply = answerText w.self w.socket) ∧
    c.sent = c.replies.length + (if c.waiting then 1 else 0) ∧
    (s.total asked).count c.key = if c.waiting then 1 else 0 := by
  have kept := kept_of_reachable reach
  exact ⟨kept.texts.got c mem, kept.texts.counted c mem, kept.asked_count mem⟩

/-- A request of a client of A, which a worker of B answers. -/
def throughPeer : List Label :=
  [.worker [0x42] [0, 2] (.start 0x2f), .worker [0x41] [0, 1] (.start 0x1f),
    .client [0x41] [0, 9] (.start 0x9f), .client [0x41] [0, 9] .send,
    .broker [0x42] (.localbe [0, 2]), .broker [0x41] (.localbe [0, 1]),
    .broker [0x41] (.localfe [0, 9] 5 0), .broker [0x42] (.cloudfe [0x41]),
    .worker [0x42] [0, 2] .receive, .worker [0x42] [0, 2] .reply,
    .broker [0x42] .done, .broker [0x42] (.localbe [0, 2]),
    .broker [0x41] .done, .broker [0x41] (.cloudbe [0x42]), .client [0x41] [0, 9] .receive]

theorem answered_once_by_peer : ∃ s, Reachable (taskFlow pair) s ∧ ∃ c ∈ s.clients,
    c.sent = 1 ∧ c.replies = [answerText [0x42] 0x2f] ∧ (s.total asked).count c.key = 0 := by
  have ran : ((taskFlow pair).exec (taskFlow pair).start throughPeer).map State.clients =
      some [⟨[0x41], [0, 9], 0x9f, false, 1, [answerText [0x42] 0x2f]⟩] := by decide +kernel
  obtain ⟨s, done, seen⟩ := Option.map_eq_some_iff.mp ran
  have mem : (⟨[0x41], [0, 9], 0x9f, false, 1, [answerText [0x42] 0x2f]⟩ : Client) ∈ s.clients :=
    seen ▸ List.mem_cons_self
  obtain ⟨-, -, nothing⟩ := answered_once (Reachable.start.exec done) mem
  exact ⟨s, Reachable.start.exec done, _, mem, rfl, rfl, nothing⟩

/-- **A broker can route all it reads.** In every reachable state `capacity` is the number of
listed workers; each is listed once, was started, works on nothing and has no message on its
way; and a message that a broker reads is one it can handle, a request whenever it polls the
frontends and wherever it sends it. -/
theorem routes_all {s : State} (reach : Reachable (taskFlow cluster) s) {self : Frame}
    (named : self ∈ cluster.names) :
    (s.broker self).capacity = (s.broker self).workers.items.length ∧
    (s.broker self).workers.items.Nodup ∧
    (∀ worker ∈ (s.broker self).workers.items,
      (∃ w ∈ s.workers, w.key = (self, worker) ∧ w.task = none) ∧
        ∀ msg, (.toWorker self worker, msg) ∉ s.net ∧ (.toLocalbe self worker, msg) ∉ s.net) ∧
    (∀ worker msg, (.toLocalbe self worker, msg) ∈ s.net →
      ∃ done, routeLocalbe (s.broker self) (worker :: msg) = some done) ∧
    (∀ peer msg, (.toCloudbe self peer, msg) ∈ s.net →
      ∃ done, routeCloudbe (s.broker self) (peer :: msg) = some done) ∧
    ((s.broker self).capacity ≠ 0 →
      (∀ peer msg, (.toCloudfe self peer, msg) ∈ s.net →
        ∃ done, routeRequest (s.broker self) false 0 0 (peer :: msg) = some done) ∧
      ∀ client msg, (.toLocalfe self client, msg) ∈ s.net → ∀ rand pick,
        ∃ done, routeRequest (s.broker self) true rand pick (client :: msg) = some done) := by
  have kept := kept_of_reachable reach
  have shapes := kept.shapes
  refine ⟨shapes.counted self, ?_, ?_, ?_, ?_, fun room => ⟨?_, ?_⟩⟩
  · refine List.nodup_iff_count_le_one.mpr fun worker => ?_
    by_cases listed : worker ∈ (s.broker self).workers.items
    · obtain ⟨w, mem, here, once, -⟩ := kept.listed_idle listed
      exact Nat.le_of_eq once
    · rw [List.count_eq_zero_of_not_mem listed]
      exact Nat.zero_le 1
  · intro worker listed
    obtain ⟨w, mem, here, -, nothing⟩ := kept.listed_idle listed
    obtain ⟨packets, hands⟩ := part_of_total_zero nothing
    have own : atSeat self worker (Pi.single self {worker}) = 1 :=
      (atSeat_single self worker self worker).trans (if_pos rfl)
    refine ⟨⟨w, mem, here, ?_⟩, fun msg => ⟨fun inside => ?_, fun inside => ?_⟩⟩
    · by_contra busy
      obtain ⟨task, held⟩ := Option.ne_none_iff_exists'.mp busy
      obtain ⟨rfl, rfl⟩ := Prod.mk.inj here
      have holds : (.toWorker w.self w.identity, reqSend task) ∈ w.inHand := by
        rw [Worker.inHand, held]
        rfl
      exact absurd ((hands w mem _ holds).symm.trans own) (by decide)
    · exact absurd ((packets _ inside).symm.trans own) (by decide)
    · exact absurd ((packets _ inside).symm.trans own) (by decide)
  · intro worker msg mem
    obtain ⟨b, out, done, -⟩ := routeLocalbe_hop named (shapes.peers self) (shapes.net _ mem).1
    exact ⟨_, done⟩
  · intro peer msg mem
    obtain ⟨b, out, done, -⟩ := routeCloudbe_hop named (shapes.peers self) (shapes.net _ mem).1
    exact ⟨_, done⟩
  · intro peer msg mem
    obtain ⟨b, out, done, -⟩ := cloudfe_hop named (shapes.counted self) room (shapes.net _ mem).1
    exact ⟨_, done⟩
  · intro client msg mem rand pick
    obtain ⟨b, out, done, -⟩ := localfe_hop named (shapes.peers self) (shapes.counted self) room
      (shapes.net _ mem).1 rand pick
    exact ⟨_, done⟩

/-- One of two workers is listed, and a request waits for it. -/
theorem routes_all_one_listed : ∃ s, Reachable (taskFlow pair) s ∧
    (s.broker [0x41]).workers.items = [[0, 1]] ∧ (∃ w ∈ s.workers, w.key = ([0x41], [0, 1])) ∧
      ∀ rand pick, ∃ done, routeRequest (s.broker [0x41]) true rand pick
        [[0, 9], [], requestText [0x41] 0x9f] = some done := by
  have ran : ((taskFlow pair).exec (taskFlow pair).start (throughPeer.take 6)).map
      (fun s => (s.broker [0x41], s.net)) =
      some (⟨[0x41], [[0x42]], 1, ⟨[[0, 1]], none⟩⟩,
        [(.toLocalfe [0x41] [0, 9], [[], requestText [0x41] 0x9f])]) := by decide +kernel
  obtain ⟨s, done, seen⟩ := Option.map_eq_some_iff.mp ran
  obtain ⟨broker, net⟩ := Prod.mk.inj seen
  have reach := Reachable.start.exec done
  obtain ⟨-, -, listed, -, -, requests⟩ :=
    routes_all reach (List.mem_cons_self : [0x41] ∈ pair.names)
  obtain ⟨⟨w, mem, here, -⟩, -⟩ := listed [0, 1] (by rw [broker]; exact List.mem_cons_self)
  have room : (s.broker [0x41]).capacity ≠ 0 := by
    rw [broker]
    decide
  exact ⟨s, reach, by rw [broker], ⟨w, mem, here⟩,
    (requests room).2 [0, 9] _ (net ▸ List.mem_cons_self)⟩

end ZmqPractices.TaskFlow
