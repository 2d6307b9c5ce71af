import ZmqPractices.Lib.Table
import ZmqPractices.TaskFarm.Rtreq

/-!
Every worker is fired once (`rtreq.cpp`).

The broker has a counter and no set, so what makes the firing unique is that a worker and
the broker alternate: `Placed` follows the one message of a worker from its request to the
answer, and says where "Fired!" can be. The counter is then the number of workers that
have been told, and at its end value all of them have.
-/

namespace ZmqPractices.TaskFarm

open Czmq Lib
open Peering (reqSend reqRecv)

/-! ### The place of a worker's message -/

theorem firedText_ne_workHarder : firedText ≠ workHarder := by decide

/-- What there is of one worker: itself, its messages on the way up and down, whether the
broker is answering it, and what it has been told. -/
structure View where
  worker : Worker
  up : List Msg
  down : List Msg
  answering : Bool
  told : List Frame

def Farm.view (s : Farm) (identity : Frame) : View where
  worker := s.worker identity
  up := Net.on (.up identity) s.net
  down := Net.on (.down identity) s.net
  answering := s.broker = .answering identity
  told := s.told identity

/-- A worker has nothing under way, or one request on its way to the broker, or with it, or
one answer on its way back; "Fired!" is the last thing it is told. -/
inductive Placed : View → Prop
  | ready {received : List Frame} (hired : firedText ∉ received) :
      Placed ⟨⟨.ready, received.length, received⟩, [], [], false, received⟩
  | asked {received : List Frame} (hired : firedText ∉ received) :
      Placed ⟨⟨.waiting, received.length + 1, received⟩, [reqSend [hiBoss]], [], false, received⟩
  | held {received : List Frame} (hired : firedText ∉ received) :
      Placed ⟨⟨.waiting, received.length + 1, received⟩, [], [], true, received⟩
  | told {received : List Frame} {body : Frame} (hired : firedText ∉ received)
      (text : body = workHarder ∨ body = firedText) :
      Placed ⟨⟨.waiting, received.length + 1, received⟩, [], [[[], body]], false,
        body :: received⟩
  | completed {received : List Frame} (hired : firedText ∉ received) :
      Placed ⟨⟨.completed, received.length + 1, firedText :: received⟩, [], [], false,
        firedText :: received⟩

namespace Placed

variable {v : View}

theorem of_ready (placed : Placed v) (ready : v.worker.phase = .ready) :
    ∃ received, firedText ∉ received ∧
      v = ⟨⟨.ready, received.length, received⟩, [], [], false, received⟩ := by
  cases placed with
  | ready hired => exact ⟨_, hired, rfl⟩
  | asked | held | told | completed => cases ready

theorem of_up (placed : Placed v) {msg : Msg} {rest : List Msg} (up : v.up = msg :: rest) :
    ∃ received, firedText ∉ received ∧ msg = reqSend [hiBoss] ∧ rest = [] ∧
      v = ⟨⟨.waiting, received.length + 1, received⟩, [reqSend [hiBoss]], [], false,
        received⟩ := by
  cases placed with
  | asked hired =>
      cases up
      exact ⟨_, hired, rfl, rfl, rfl⟩
  | ready | held | told | completed => cases up

theorem of_answering (placed : Placed v) (answering : v.answering = true) :
    ∃ received, firedText ∉ received ∧
      v = ⟨⟨.waiting, received.length + 1, received⟩, [], [], true, received⟩ := by
  cases placed with
  | held hired => exact ⟨_, hired, rfl⟩
  | ready | asked | told | completed => cases answering

theorem of_down (placed : Placed v) {msg : Msg} {rest : List Msg} (down : v.down = msg :: rest) :
    ∃ received body, firedText ∉ received ∧ (body = workHarder ∨ body = firedText) ∧
      msg = [[], body] ∧ rest = [] ∧
      v = ⟨⟨.waiting, received.length + 1, received⟩, [], [[[], body]], false,
        body :: received⟩ := by
  cases placed with
  | told hired text =>
      cases down
      exact ⟨_, _, hired, text, rfl, rfl, rfl⟩
  | ready | asked | held | completed => cases down

/-- Nothing comes after "Fired!". -/
theorem fired_last (placed : Placed v) : firedText ∉ v.worker.received.tail := by
  cases placed with
  | ready hired | asked hired | held hired | told hired =>
      exact fun mem => hired (List.mem_of_mem_tail mem)
  | completed hired => exact hired

/-- A worker that has been told so was told once, and all its messages are answered. -/
theorem fired_once (placed : Placed v) (told : firedText ∈ v.told) :
    v.told.count firedText = 1 ∧ v.up = [] ∧ v.answering = false ∧
      v.worker.asked = v.told.length := by
  cases placed with
  | ready hired | asked hired | held hired => exact absurd told hired
  | @told received body hired text =>
      have fired : body = firedText := by
        rcases List.mem_cons.mp told with same | mem
        · exact same.symm
        · exact absurd mem hired
      subst fired
      refine ⟨?_, rfl, rfl, rfl⟩
      rw [List.count_cons_self, List.count_eq_zero.mpr hired]
  | completed hired =>
      refine ⟨?_, rfl, rfl, rfl⟩
      rw [List.count_cons_self, List.count_eq_zero.mpr hired]

end Placed

/-! ### The farm -/

/-- Every worker has its place, nothing is on any other connection, and the counter is the
number of workers that have been told that they are fired. -/
structure Counts (identities : List Frame) (s : Farm) : Prop where
  placed : ∀ identity ∈ identities, Placed (s.view identity)
  known : ∀ packet ∈ s.net, ∃ identity ∈ identities,
    packet.1 = .up identity ∨ packet.1 = .down identity
  serves : ∀ identity, s.broker = .answering identity → identity ∈ identities
  counted : s.workersFired = identities.countP fun identity => firedText ∈ s.told identity
  exited : s.broker = .exited → s.workersFired = identities.length

variable {identities : List Frame} {endTime : Int} {s s' : Farm}

/-- A step that moves the message of one worker, and counts right. -/
theorem Counts.moved (before : Counts identities s) {identity : Frame}
    (here : Placed (s'.view identity))
    (others : ∀ other, other ≠ identity → s'.view other = s.view other)
    (known : ∀ packet ∈ s'.net, packet ∈ s.net ∨
      identity ∈ identities ∧ (packet.1 = .up identity ∨ packet.1 = .down identity))
    (serves : ∀ id, s'.broker = .answering id → id ∈ identities)
    (counted : s'.workersFired = identities.countP fun identity => firedText ∈ s'.told identity)
    (exited : s'.broker = .exited → s'.workersFired = identities.length) :
    Counts identities s' where
  placed other mem := by
    by_cases same : other = identity
    · exact same ▸ here
    · exact others other same ▸ before.placed other mem
  known packet mem := by
    rcases known packet mem with old | new
    · exact before.known packet old
    · exact ⟨identity, new⟩
  serves := serves
  counted := counted
  exited := exited

/-- A step that moves the message of one worker and fires nobody. -/
theorem Counts.move (before : Counts identities s) {identity : Frame}
    (here : Placed (s'.view identity))
    (others : ∀ other, other ≠ identity → s'.view other = s.view other)
    (known : ∀ packet ∈ s'.net, packet ∈ s.net ∨
      identity ∈ identities ∧ (packet.1 = .up identity ∨ packet.1 = .down identity))
    (serves : ∀ id, s'.broker = .answering id → id ∈ identities)
    (fired : s'.workersFired = s.workersFired)
    (told : firedText ∈ s'.told identity ↔ firedText ∈ s.told identity)
    (exited : s'.broker = .exited → s.broker = .exited) : Counts identities s' := by
  refine before.moved here others known serves ?_ fun is => fired.trans (before.exited (exited is))
  rw [fired, before.counted]
  refine List.countP_congr fun other _ => ?_
  by_cases same : other = identity
  · rw [same]
    simpa using told.symm
  · have := congrArg View.told (others other same)
    simp only [Farm.view] at this
    rw [this]

/-! ### The steps -/

theorem Counts.ask (before : Counts identities s) {identity : Frame}
    (taken : step identities endTime s (.ask identity) = some s') : Counts identities s' := by
  simp only [step] at taken
  split at taken
  case isFalse => cases taken
  rename_i asks
  obtain ⟨mem, ready⟩ := asks
  obtain ⟨received, hired, view⟩ := (before.placed identity mem).of_ready ready
  have done := Option.some.inj taken
  have moved : s'.view identity = { s.view identity with
      worker := { (s.view identity).worker with
        phase := .waiting
        asked := (s.view identity).worker.asked + 1 }
      up := (s.view identity).up ++ [reqSend [hiBoss]] } := by
    simp [← done, Farm.view, Farm.setWorker, Net.on_send_self, Net.on_send_ne]
  have others : ∀ other, other ≠ identity → s'.view other = s.view other := by
    intro other ne
    simp [← done, Farm.view, Farm.setWorker, ne, Ne.symm ne, Net.on_send_ne]
  subst done
  refine before.move ?_ others (fun packet sent => ?_) before.serves rfl Iff.rfl id
  · rw [moved, view]
    exact .asked hired
  · rcases Net.mem_send.mp sent with old | rfl
    · exact .inl old
    · exact .inr ⟨mem, .inl rfl⟩

theorem Counts.mem_of_down (before : Counts identities s) {identity : Frame} {msg : Msg}
    (mem : (.down identity, msg) ∈ s.net) : identity ∈ identities := by
  obtain ⟨other, mem, is | is⟩ := before.known _ mem
  · cases is
  · cases is
    exact mem

theorem Counts.mem_of_up (before : Counts identities s) {identity : Frame} {msg : Msg}
    (mem : (.up identity, msg) ∈ s.net) : identity ∈ identities := by
  obtain ⟨other, mem, is | is⟩ := before.known _ mem
  · cases is
    exact mem
  · cases is

/-- A worker that is answered is ready again, or has completed. -/
theorem placed_receive {received : List Frame} {body : Frame} (hired : firedText ∉ received)
    (text : body = workHarder ∨ body = firedText) :
    Placed ⟨(Worker.mk .waiting (received.length + 1) received).receive body, [], [], false,
      body :: received⟩ := by
  rcases text with rfl | rfl
  · have still : firedText ∉ workHarder :: received := by
      simpa [firedText_ne_workHarder] using hired
    exact .ready still
  · exact .completed hired

theorem Counts.receive (before : Counts identities s) {identity : Frame}
    (taken : step identities endTime s (.receive identity) = some s') : Counts identities s' := by
  simp only [step] at taken
  split at taken
  case isFalse => cases taken
  obtain ⟨⟨msg, net⟩, received, done⟩ := Option.map_eq_some_iff.mp taken
  have mem := before.mem_of_down (Net.mem_of_recv received)
  obtain ⟨had, body, hired, text, rfl, empty, view⟩ :=
    (before.placed identity mem).of_down (Net.on_recv_self received)
  have moved : s'.view identity = { s.view identity with
      worker := (s.view identity).worker.receive body
      down := Net.on (.down identity) net } := by
    simp [← done, reqRecv, Farm.view, Farm.setWorker, Net.on_recv_ne _ received]
  have others : ∀ other, other ≠ identity → s'.view other = s.view other := by
    intro other ne
    simp [← done, reqRecv, Farm.view, Farm.setWorker, ne, Net.on_recv_ne _ received, Ne.symm ne]
  subst done
  refine before.move ?_ others (fun packet left => ?_) before.serves rfl Iff.rfl id
  · rw [moved, view, empty]
    exact placed_receive hired text
  · exact .inl (Net.mem_of_mem_recv received left)

/-- What the broker reads from a worker is its identity. -/
theorem sRecv_identity {identity : Frame} (nulFree : NulFree identity)
    (fits : identity.length ≤ 255) : sRecv identity = identity := by
  rw [sRecv, List.take_of_length_le fits, zframeStrdup_of_nulFree nulFree]

theorem Counts.read (before : Counts identities s)
    (printable : ∀ identity ∈ identities, NulFree identity ∧ identity.length ≤ 255)
    {identity : Frame} (taken : step identities endTime s (.read identity) = some s') :
    Counts identities s' := by
  simp only [step] at taken
  split at taken
  case isFalse => cases taken
  rename_i receiving
  obtain ⟨⟨msg, net⟩, received, taken⟩ := Option.bind_eq_some_iff.mp taken
  have mem := before.mem_of_up (Net.mem_of_recv received)
  obtain ⟨had, hired, rfl, empty, view⟩ :=
    (before.placed identity mem).of_up (Net.on_recv_self received)
  obtain ⟨nulFree, fits⟩ := printable identity mem
  simp only [brokerRead, reqSend, sRecv_identity nulFree fits, Option.map_some,
    Option.some.injEq] at taken
  have moved : s'.view identity = { s.view identity with
      up := Net.on (.up identity) net
      answering := true } := by
    simp [← taken, Farm.view, Net.on_recv_ne _ received]
  have others : ∀ other, other ≠ identity → s'.view other = s.view other := by
    intro other ne
    simp [← taken, Farm.view, Net.on_recv_ne _ received, receiving, Ne.symm ne]
  subst taken
  refine before.move ?_ others (fun packet left => ?_) ?_ rfl Iff.rfl Broker.noConfusion
  · rw [moved, view, empty]
    exact .held hired
  · exact .inl (Net.mem_of_mem_recv received left)
  · rintro other ⟨⟩
    exact mem

/-- `s'` is `s` after the broker has answered a worker. -/
structure Answered (s s' : Farm) (identity body : Frame) : Prop where
  worker : s'.worker = s.worker
  net : s'.net = s.net.send (.down identity) [[], body]
  told : s'.told = Function.update s.told identity (body :: s.told identity)
  free : ∀ other, s'.broker ≠ .answering other

/-- An answer to a worker the socket knows. -/
theorem answered_route {identity body : Frame} (mem : identity ∈ identities) {broker : Broker}
    (free : ∀ other, broker ≠ .answering other) (workersFired : Nat) :
    Answered s { s.route identities identity body with
      broker := broker
      workersFired := workersFired } identity body where
  worker := by simp [Farm.route, mem]
  net := by simp [Farm.route, mem]
  told := by simp [Farm.route, mem]
  free := free

/-- The answer is the newest thing the worker has been told, and on its way. -/
theorem Answered.placed {identity body : Frame} (answered : Answered s s' identity body)
    (answering : s.broker = .answering identity) (placed : Placed (s.view identity))
    (text : body = workHarder ∨ body = firedText) :
    firedText ∉ s.told identity ∧ Placed (s'.view identity) ∧
      ∀ other, other ≠ identity → s'.view other = s.view other := by
  obtain ⟨received, hired, view⟩ := placed.of_answering (by simp [Farm.view, answering])
  have moved : s'.view identity = { s.view identity with
      down := (s.view identity).down ++ [[[], body]]
      answering := false
      told := body :: (s.view identity).told } := by
    simp [Farm.view, answered.worker, answered.net, answered.told, answered.free,
      Net.on_send_self, Net.on_send_ne]
  have before : s.told identity = received := congrArg View.told view
  refine ⟨before ▸ hired, ?_, fun other ne => ?_⟩
  · rw [moved, view]
    exact .told hired text
  · simp [Farm.view, answered.worker, answered.net, answered.told, answered.free, answering, ne,
      Ne.symm ne, Net.on_send_ne]

theorem Answered.known {identity body : Frame} (answered : Answered s s' identity body)
    (mem : identity ∈ identities) : ∀ packet ∈ s'.net, packet ∈ s.net ∨
      identity ∈ identities ∧ (packet.1 = .up identity ∨ packet.1 = .down identity) := by
  intro packet sent
  rw [answered.net] at sent
  rcases Net.mem_send.mp sent with old | rfl
  · exact .inl old
  · exact .inr ⟨mem, .inr rfl⟩

theorem Counts.harder (before : Counts identities s) {identity : Frame}
    (answering : s.broker = .answering identity) (answered : Answered s s' identity workHarder)
    (fired : s'.workersFired = s.workersFired) (exited : s'.broker ≠ .exited) :
    Counts identities s' := by
  have mem := before.serves identity answering
  obtain ⟨-, here, others⟩ :=
    answered.placed answering (before.placed identity mem) (.inl rfl)
  refine before.move here others (answered.known mem) ?_ fired ?_ fun is => absurd is exited
  · exact fun other is => absurd is (answered.free other)
  · rw [answered.told]
    simp [firedText_ne_workHarder]

theorem Counts.fire (before : Counts identities s) (nodup : identities.Nodup) {identity : Frame}
    (answering : s.broker = .answering identity) (answered : Answered s s' identity firedText)
    (fired : s'.workersFired = s.workersFired + 1)
    (exited : s'.broker = .exited → s'.workersFired = identities.length) :
    Counts identities s' := by
  have mem := before.serves identity answering
  obtain ⟨hired, here, others⟩ :=
    answered.placed answering (before.placed identity mem) (.inr rfl)
  refine before.moved here others (answered.known mem) ?_ ?_ exited
  · exact fun other is => absurd is (answered.free other)
  · rw [fired, before.counted]
    refine (Table.countP_insert nodup mem ?_ ?_ fun other ne => ?_).symm
    · simpa using hired
    · simp [answered.told]
    · simp [answered.told, ne]

theorem Counts.answer (before : Counts identities s) (nodup : identities.Nodup) {now : Int}
    (taken : step identities endTime s (.answer now) = some s') : Counts identities s' := by
  simp only [step] at taken
  split at taken
  case h_2 => cases taken
  rename_i identity answering
  have mem := before.serves identity answering
  split at taken
  · obtain rfl := Option.some.inj taken
    refine before.harder answering (answered_route mem ?_ _) ?_ Broker.noConfusion
    · exact fun _ => Broker.noConfusion
    · simp [Farm.route, mem]
  · obtain rfl := Option.some.inj taken
    refine before.fire nodup answering (answered_route mem ?_ _) rfl ?_
    · intro other
      split <;> exact Broker.noConfusion
    · dsimp only
      split
      · exact fun _ => ‹_›
      · exact Broker.noConfusion

theorem counts_start (identities : List Frame) (endTime : Int) :
    Counts identities (farm identities endTime).start where
  placed _ _ := .ready List.not_mem_nil
  known _ mem := nomatch mem
  serves _ is := nomatch is
  counted := by simp [farm]
  exited is := nomatch is

theorem counts_of_reachable (nodup : identities.Nodup)
    (printable : ∀ identity ∈ identities, NulFree identity ∧ identity.length ≤ 255)
    (reach : Reachable (farm identities endTime) s) : Counts identities s := by
  refine reach.invariant (Counts identities) (counts_start identities endTime) ?_
  intro s l s' before taken
  have taken : step identities endTime s l = some s' := taken
  cases l with
  | ask identity => exact before.ask taken
  | receive identity => exact before.receive taken
  | read identity => exact before.read printable taken
  | answer now => exact before.answer nodup taken

/-- When the broker has left its loop, everybody has been told, and nobody asks. -/
theorem Counts.at_exit (counts : Counts identities s) (exited : s.broker = .exited) :
    (∀ identity ∈ identities, (s.told identity).count firedText = 1 ∧
      (s.worker identity).asked = (s.told identity).length) ∧
    ∀ identity, Net.on (.up identity) s.net = [] := by
  have all : ∀ identity ∈ identities, firedText ∈ s.told identity := by
    have full := counts.counted.symm.trans (counts.exited exited)
    simpa using List.countP_eq_length.mp full
  refine ⟨fun identity mem => ?_, fun identity => ?_⟩
  · obtain ⟨once, -, -, asked⟩ := (counts.placed identity mem).fired_once (all identity mem)
    exact ⟨once, asked⟩
  · by_cases mem : identity ∈ identities
    · exact ((counts.placed identity mem).fired_once (all identity mem)).2.1
    · refine Net.on_eq_nil fun packet sent is => mem ?_
      obtain ⟨chan, msg⟩ := packet
      obtain rfl : chan = .up identity := is
      exact counts.mem_of_up sent

/-- **Everybody is fired once.** For any number of workers with distinct printable
identities, which in ZeroMQ have at most 255 bytes, any order of their steps and the
broker's and any readings of the clock:

* a worker receives "Fired!" at most once and nothing after it;
* when the broker has left its loop, every worker has been sent exactly one "Fired!", as
  many answers as it has made requests, and no request is on its way. -/
theorem fired_exactly_once (identities : List Frame) (endTime : Int) (nodup : identities.Nodup)
    (printable : ∀ identity ∈ identities, NulFree identity ∧ identity.length ≤ 255) {s : Farm}
    (reach : Reachable (farm identities endTime) s) :
    (∀ identity ∈ identities, firedText ∉ (s.worker identity).received.tail) ∧
    (s.broker = .exited →
      (∀ identity ∈ identities, (s.told identity).count firedText = 1 ∧
        (s.worker identity).asked = (s.told identity).length) ∧
      ∀ identity, Net.on (.up identity) s.net = []) := by
  have counts := counts_of_reachable nodup printable reach
  exact ⟨fun identity mem => (counts.placed identity mem).fired_last, counts.at_exit⟩

/-- Two workers, and a clock that goes back: the second is fired first. -/
theorem fired_exactly_once_two : ∃ s, Reachable (farm [[0x30], [0x31]] 5) s ∧
    s.broker = .exited ∧ (s.told [0x30]).count firedText = 1 ∧
      (s.told [0x31]).count firedText = 1 ∧ Net.on (.up [0x30]) s.net = [] := by
  have ran : ((farm [[0x30], [0x31]] 5).exec (farm [[0x30], [0x31]] 5).start
      [.ask [0x30], .ask [0x31], .read [0x31], .answer 9, .read [0x30], .answer 0,
        .receive [0x30], .ask [0x30], .read [0x30], .answer 7]).map Farm.broker =
      some .exited := by decide
  obtain ⟨s, done, exited⟩ := Option.map_eq_some_iff.mp ran
  have reach := Reachable.start.exec done
  obtain ⟨once, answered⟩ := (fired_exactly_once _ 5 (by decide) (by decide) reach).2 exited
  exact ⟨s, reach, exited, (once [0x30] (by decide)).1, (once [0x31] (by decide)).1, answered _⟩

end ZmqPractices.TaskFarm
