import ZmqPractices.Lib.Progress
import ZmqPractices.Lib.Weight
import ZmqPractices.Pipeline.System

/-!
What a batch of the pipeline comes to.

Every task is somewhere: on its way, with a worker, done with its result on its way,
counted by the sink, or lost. The sink counts `batchSize` results after one message more,
and it does not look at them; there are no more than that to count only when every one of
them has come (`batch_done`). As long as nothing is lost a batch always goes on, and takes
the same number of steps whatever their order (`batch_ends`).
-/

namespace ZmqPractices.Pipeline

open Czmq Lib

/-! ### Quantities -/

/-- The time that a task on its way asks for. -/
def timeIn (build : Build) : Chan × Frame → Int
  | (.task _, msg) => msleep build (atoi msg)
  | _ => 0

def one : Chan × Frame → Nat := fun _ => 1

def Worker.busy (w : Worker) : Nat := if w.workload.isSome then 1 else 0

/-- The time of the tasks that a worker has taken. -/
def Worker.taken (build : Build) (w : Worker) : Int := w.slept + msleep build (w.workload.getD 0)

/-- The messages that the ventilator has sent. -/
def Ventilator.sent (v : Ventilator) : Nat := v.t + if v.announced then 1 else 0

/-- The messages that the sink has received. -/
def Sink.received (sink : Sink) : Nat := sink.t + if sink.started then 1 else 0

/-- Every message of the ventilator is somewhere, and every task's share of its workload. -/
structure Conserved (build : Build) (s : State) : Prop where
  unique : (s.workers.map Worker.name).Nodup
  count : Net.weight one s.net + (s.workers.map Worker.busy).sum + Net.weight one s.lost +
    s.sink.received = s.ventilator.sent
  work : Net.weight (timeIn build) s.net + (s.workers.map (Worker.taken build)).sum +
    Net.weight (timeIn build) s.lost = msleep build s.ventilator.totalWorkload
  sent : s.ventilator.t ≤ batchSize
  least : s.ventilator.t ≤ s.ventilator.totalWorkload
  most : s.ventilator.totalWorkload ≤ 100 * s.ventilator.t
  started : 0 < s.sink.t → s.sink.started = true
  task : ∀ worker msg, (.task worker, msg) ∈ s.net →
    worker ∈ s.workers.map Worker.name ∧ ∃ k ≤ 100, msg = printed 10 k

/-! ### What the steps do to the quantities -/

theorem msleep_zero (build : Build) : msleep build 0 = 0 := by cases build <;> rfl

theorem msleep_add (build : Build) (ms ms' : Int) :
    msleep build (ms + ms') = msleep build ms + msleep build ms' := by
  cases build with
  | windows => rfl
  | posix =>
      show 1000 * ((ms + ms') * 1000) = 1000 * (ms * 1000) + 1000 * (ms' * 1000)
      omega

theorem workloadOf_range (rand : Nat) : 1 ≤ workloadOf rand ∧ workloadOf rand ≤ 100 := by
  have lt := Nat.mod_lt rand (show 0 < 100 by decide)
  unfold workloadOf
  omega

theorem length_task {k : Nat} (le : k ≤ 100) : (printed 10 k).length < bufferSize := by
  have short : (printed 10 k).length ≤ 3 :=
    (length_printed_le_iff (by decide) (by decide)).mpr (Nat.lt_of_le_of_lt le (by decide))
  exact Nat.lt_of_le_of_lt short (by decide)

/-- A worker reads the workload that the ventilator wrote, within its buffer. -/
theorem readTask_printed {k : Nat} (le : k ≤ 100) : readTask (printed 10 k) = some (k : Int) := by
  have string : zframeStrdup (printed 10 k) = printed 10 k := by
    refine List.takeWhile_eq_self_iff.mpr fun byte mem => ?_
    have digit : IsDigit byte := isDigit_of_mem_printed mem
    have other : byte ≠ 0 := fun zero => absurd (zero ▸ digit) (by decide)
    simpa using other
  rw [readTask, string, atoi_printed, if_pos (length_task le)]

theorem sum_setWorker {M : Type*} [AddCommMonoid M] (part : Worker → M) {s : State} {worker : Nat}
    {w : Worker} (write : Worker → Worker) (unique : (s.workers.map Worker.name).Nodup)
    (found : Table.find Worker.name worker s.workers = some w) :
    ((s.setWorker worker write).workers.map part).sum + part w =
      (s.workers.map part).sum + part (write w) :=
  Table.key_of_find found ▸ Table.sum_update part unique (Table.mem_of_find found)

theorem names_setWorker (s : State) (worker : Nat) (write : Worker → Worker)
    (kept : ∀ w, (write w).name = w.name) :
    (s.setWorker worker write).workers.map Worker.name = s.workers.map Worker.name :=
  Table.keys_update kept

theorem sink_received {sink sink' : Sink} (counted : sink.receive = some sink') :
    sink'.received = sink.received + 1 ∧ sink'.started = true ∧
      (sink.started = true → sink'.t ≤ batchSize) := by
  unfold Sink.receive at counted
  split at counted
  · rename_i waiting
    obtain rfl := Option.some.inj counted
    refine ⟨?_, rfl, fun started => absurd started (by simp [waiting])⟩
    simp [Sink.received, waiting]
  · rename_i started
    obtain ⟨more, same⟩ := Option.ite_none_right_eq_some.mp counted
    obtain rfl := Option.some.inj same
    have started := Bool.not_eq_false _ ▸ started
    refine ⟨?_, started, fun _ => more⟩
    simp only [Sink.received]
    omega

namespace Conserved

variable {build : Build} {s s' : State}

theorem unique_step {l : Label} (before : Conserved build s) (stepped : Stepped build s l s') :
    (s'.workers.map Worker.name).Nodup := by
  cases stepped with
  | start worker missing =>
      rw [List.map_cons, List.nodup_cons]
      refine ⟨fun mem => ?_, before.unique⟩
      obtain ⟨w, mem, same⟩ := List.mem_map.mp mem
      exact Table.find_eq_none.mp missing w mem same
  | take worker w msg net workload found idle received read =>
      exact (names_setWorker s worker (.take workload) fun _ => rfl).symm ▸ before.unique
  | finish worker w workload found busy =>
      exact (names_setWorker s worker (.finish build) fun _ => rfl).symm ▸ before.unique
  | _ => exact before.unique

/-- What a step does to the messages: one is sent, or one goes from one place to another. -/
theorem count_step {l : Label} (before : Conserved build s) (stepped : Stepped build s l s') :
    Net.weight one s'.net + (s'.workers.map Worker.busy).sum + Net.weight one s'.lost +
      s'.sink.received = s'.ventilator.sent := by
  have count := before.count
  cases stepped with
  | announce pending =>
      rw [Net.weight_send]
      simp only [Ventilator.sent, pending, one] at count ⊢
      simp only [Bool.false_eq_true, if_false, if_true] at count ⊢
      omega
  | send worker rand w connected announced more =>
      rw [Net.weight_send]
      simp only [Ventilator.sent, one] at count ⊢
      omega
  | start worker missing =>
      rw [List.map_cons, List.sum_cons]
      simp only [Worker.busy] at count ⊢
      simp only [Option.isSome_none, Bool.false_eq_true, if_false]
      omega
  | take worker w msg net workload found idle received read =>
      have counted := Net.weight_recv one received
      have hands := sum_setWorker Worker.busy (.take workload) before.unique found
      have free : w.busy = 0 := by simp [Worker.busy, idle]
      have full : (w.take workload).busy = 1 := rfl
      simp only [one] at counted
      show Net.weight one net +
        ((s.setWorker worker (.take workload)).workers.map Worker.busy).sum +
          Net.weight one s.lost + s.sink.received = s.ventilator.sent
      omega
  | finish worker w workload found busy =>
      have hands := sum_setWorker Worker.busy (.finish build) before.unique found
      have full : w.busy = 1 := by simp [Worker.busy, busy]
      have free : (w.finish build).busy = 0 := rfl
      show Net.weight one (s.net.send (.result worker) []) +
        ((s.setWorker worker (.finish build)).workers.map Worker.busy).sum + Net.weight one s.lost +
          s.sink.received = s.ventilator.sent
      rw [Net.weight_send, one]
      omega
  | collect chan msg net sink toSink received counted =>
      have fewer := Net.weight_recv one received
      have more := (sink_received counted).1
      simp only [one] at fewer
      show Net.weight one net + (s.workers.map Worker.busy).sum + Net.weight one s.lost +
        sink.received = s.ventilator.sent
      omega
  | lose packet p found =>
      have fewer := Net.weight_eraseIdx one found
      show Net.weight one (s.net.eraseIdx packet) + (s.workers.map Worker.busy).sum +
        (one p + Net.weight one s.lost) + s.sink.received = s.ventilator.sent
      omega

/-- What a step does to the workload: a worker takes what the message to it asks for. -/
theorem work_step {l : Label} (before : Conserved build s) (stepped : Stepped build s l s') :
    Net.weight (timeIn build) s'.net + (s'.workers.map (Worker.taken build)).sum +
      Net.weight (timeIn build) s'.lost = msleep build s'.ventilator.totalWorkload := by
  have work := before.work
  cases stepped with
  | announce pending =>
      rw [Net.weight_send]
      simp only [timeIn]
      omega
  | send worker rand w connected announced more =>
      rw [Net.weight_send]
      simp only [timeIn, atoi_printed]
      push_cast
      rw [msleep_add]
      omega
  | start worker missing =>
      rw [List.map_cons, List.sum_cons]
      simp only [Worker.taken] at work ⊢
      simp only [Option.getD_none, msleep_zero]
      omega
  | take worker w msg net workload found idle received read =>
      have worked := Net.weight_recv (timeIn build) received
      have takes := sum_setWorker (Worker.taken build) (.take workload) before.unique found
      -- the message to a worker holds the number that its workload is read from
      obtain ⟨-, k, high, rfl⟩ := before.task worker msg (Net.mem_of_recv received)
      obtain rfl : (k : Int) = workload := Option.some.inj ((readTask_printed high).symm.trans read)
      have free : w.taken build = w.slept := by simp [Worker.taken, idle, msleep_zero]
      have full : (w.take k).taken build = w.slept + msleep build k := rfl
      simp only [timeIn, atoi_printed] at worked
      show Net.weight (timeIn build) net +
        ((s.setWorker worker (.take k)).workers.map (Worker.taken build)).sum +
          Net.weight (timeIn build) s.lost = msleep build s.ventilator.totalWorkload
      omega
  | finish worker w workload found busy =>
      have takes := sum_setWorker (Worker.taken build) (.finish build) before.unique found
      have same : (w.finish build).taken build = w.taken build := by
        simp [Worker.taken, Worker.finish, msleep_zero]
      show Net.weight (timeIn build) (s.net.send (.result worker) []) +
        ((s.setWorker worker (.finish build)).workers.map (Worker.taken build)).sum +
          Net.weight (timeIn build) s.lost = msleep build s.ventilator.totalWorkload
      rw [Net.weight_send]
      simp only [timeIn]
      omega
  | collect chan msg net sink toSink received counted =>
      have worked := Net.weight_recv (timeIn build) received
      have nothing : timeIn build (chan, msg) = 0 := by
        cases chan with
        | task worker => cases toSink
        | announce => rfl
        | result worker => rfl
      dsimp only
      omega
  | lose packet p found =>
      have worked := Net.weight_eraseIdx (timeIn build) found
      show Net.weight (timeIn build) (s.net.eraseIdx packet) +
        (s.workers.map (Worker.taken build)).sum +
          (timeIn build p + Net.weight (timeIn build) s.lost) =
            msleep build s.ventilator.totalWorkload
      omega

/-- A task is for a worker that is there, and is a printed number. -/
theorem task_step {l : Label} (before : Conserved build s) (stepped : Stepped build s l s')
    {worker : Nat}
    {msg : Frame} (mem : (.task worker, msg) ∈ s'.net) :
    worker ∈ s'.workers.map Worker.name ∧ ∃ k ≤ 100, msg = printed 10 k := by
  cases stepped with
  | announce pending =>
      rcases Net.mem_send.mp mem with mem | same
      · exact before.task worker msg mem
      · cases same
  | send worker' rand w connected announced more =>
      rcases Net.mem_send.mp mem with mem | same
      · exact before.task worker msg mem
      · obtain ⟨here, rfl⟩ := Prod.mk.inj same
        obtain rfl := Chan.task.inj here
        refine ⟨?_, workloadOf rand, (workloadOf_range rand).2, rfl⟩
        exact Table.key_of_find connected ▸ List.mem_map_of_mem (Table.mem_of_find connected)
  | start worker' missing =>
      exact (before.task worker msg mem).imp_left fun known => List.mem_cons_of_mem _ known
  | take worker' w msg' net workload found idle received read =>
      rw [names_setWorker s worker' (.take workload) fun _ => rfl]
      exact before.task worker msg (Net.mem_of_mem_recv received mem)
  | finish worker' w workload found busy =>
      rcases Net.mem_send.mp mem with mem | same
      · rw [names_setWorker s worker' (.finish build) fun _ => rfl]
        exact before.task worker msg mem
      · cases same
  | collect chan msg' net sink toSink received counted =>
      exact before.task worker msg (Net.mem_of_mem_recv received mem)
  | lose packet p found =>
      exact before.task worker msg ((List.eraseIdx_sublist s.net packet).subset mem)

/-- The ventilator adds 1 to 100 to its workload for each task. -/
theorem tasks_step {l : Label} (before : Conserved build s) (stepped : Stepped build s l s') :
    s'.ventilator.t ≤ batchSize ∧ s'.ventilator.t ≤ s'.ventilator.totalWorkload ∧
      s'.ventilator.totalWorkload ≤ 100 * s'.ventilator.t := by
  have least := before.least
  have most := before.most
  cases stepped with
  | send worker rand w connected announced more =>
      have range := workloadOf_range rand
      refine ⟨more, ?_, ?_⟩
      · dsimp only
        omega
      · dsimp only
        omega
  | _ => exact ⟨before.sent, least, most⟩

theorem started_step {l : Label} (before : Conserved build s) (stepped : Stepped build s l s') :
    0 < s'.sink.t → s'.sink.started = true := by
  cases stepped with
  | collect chan msg net sink toSink received counted =>
      exact fun _ => (sink_received counted).2.1
  | _ => exact before.started

theorem step {l : Label} (before : Conserved build s) (stepped : Stepped build s l s') :
    Conserved build s' := by
  obtain ⟨sent, least, most⟩ := before.tasks_step stepped
  exact {
    unique := before.unique_step stepped
    count := before.count_step stepped
    work := before.work_step stepped
    sent := sent
    least := least
    most := most
    started := before.started_step stepped
    task := fun _ _ mem => before.task_step stepped mem }

theorem start : Conserved build (pipeline build).start where
  unique := List.nodup_nil
  count := rfl
  work := (msleep_zero build).symm
  sent := Nat.zero_le _
  least := le_refl 0
  most := le_refl 0
  started pos := absurd pos (lt_irrefl 0)
  task _ _ mem := absurd mem List.not_mem_nil

end Conserved

theorem conserved_of_reachable {build : Build} {s : State}
    (reach : Reachable (pipeline build) s) : Conserved build s :=
  reach.invariant (Conserved build) .start fun _ _ _ before taken =>
    before.step (step_stepped taken)

/-! ### The end of a batch -/

theorem weight_one (net : Net Chan Frame) : Net.weight one net = net.length := by
  induction net with
  | nil => rfl
  | cons p net ih =>
      show 1 + Net.weight one net = net.length + 1
      rw [ih, Nat.add_comm]

theorem Worker.idle_of_busy {w : Worker} (free : w.busy = 0) : w.workload = none := by
  unfold Worker.busy at free
  cases found : w.workload with
  | none => rfl
  | some workload => simp [found] at free

/-- When the sink has finished, all it waited for was sent, and nothing is anywhere else. -/
theorem Conserved.done {build : Build} {s : State} (kept : Conserved build s)
    (finished : s.sink.t = batchSize) :
    s.ventilator.t = batchSize ∧ s.net = [] ∧ s.lost = [] ∧ ∀ w ∈ s.workers, w.workload = none := by
  have begun := kept.started (by rw [finished]; decide)
  have count := kept.count
  have sent := kept.sent
  simp only [Sink.received, Ventilator.sent, finished, begun, if_true, weight_one] at count
  have announced : (if s.ventilator.announced = true then 1 else 0) ≤ 1 := by split <;> decide
  refine ⟨by omega, List.length_eq_zero_iff.mp (by omega), List.length_eq_zero_iff.mp (by omega),
    fun w mem => Worker.idle_of_busy ?_⟩
  have none_busy : (s.workers.map Worker.busy).sum = 0 := by omega
  exact List.sum_eq_zero_iff_forall_eq_nat.mp none_busy w.busy (List.mem_map_of_mem mem)

/-- **The sink finishes only when the batch is done**: every task has been sent and done, no
message was lost or is left, and the workers together have slept for just what `MSLEEP` makes
of the workload that the ventilator has printed. -/
theorem batch_done {build : Build} {s : State} (reach : Reachable (pipeline build) s)
    (finished : s.sink.t = batchSize) :
    s.ventilator.t = batchSize ∧ s.net = [] ∧ s.lost = [] ∧
      (∀ w ∈ s.workers, w.workload = none) ∧
      (s.workers.map Worker.slept).sum = msleep build s.ventilator.totalWorkload ∧
      100 ≤ s.ventilator.totalWorkload ∧ s.ventilator.totalWorkload ≤ 10000 := by
  have kept := conserved_of_reachable reach
  obtain ⟨sent, none_left, none_lost, idle⟩ := kept.done finished
  have work := kept.work
  have least := kept.least
  have most := kept.most
  have slept : s.workers.map (Worker.taken build) = s.workers.map Worker.slept :=
    List.map_congr_left fun w mem => by simp [Worker.taken, idle w mem, msleep_zero]
  rw [none_left, none_lost, slept] at work
  simp only [Net.weight, List.map_nil, List.sum_nil] at work
  rw [sent] at least most
  exact ⟨sent, none_left, none_lost, idle, by omega, least, most⟩

/-- Two workers take turns at the tasks of a batch. -/
def twoWorkersBatch : List Label :=
  [.start 0, .start 1, .announce, .collect .announce] ++
    (List.range 50).flatMap fun t =>
      [.send 0 t, .send 1 (2 * t), .take 1, .take 0, .finish 0, .collect (.result 0), .finish 1,
        .collect (.result 1)]

/-- Where `sleep` takes seconds, they have slept for more than forty days in all. -/
theorem batch_done_two_workers : ∃ s : State,
    s.sink.t = batchSize ∧ s.ventilator.totalWorkload = 3775 ∧ s.net = [] ∧ s.lost = [] ∧
      (s.workers.map Worker.slept).sum = 3775000000 := by
  have ran : ((pipeline .posix).exec (pipeline .posix).start twoWorkersBatch).map (fun s =>
      (s.sink.t, s.ventilator.totalWorkload)) = some (batchSize, 3775) := by decide +kernel
  obtain ⟨s, done, seen⟩ := Option.map_eq_some_iff.mp ran
  obtain ⟨finished, total⟩ := Prod.mk.inj seen
  obtain ⟨-, none_left, none_lost, -, slept, -⟩ := batch_done (Reachable.start.exec done) finished
  exact ⟨s, finished, total, none_left, none_lost, slept.trans (by rw [total]; rfl)⟩

/-! ### Steps that are left -/

/-- The steps that a message on its way has before it. -/
def stepsBefore : Chan × Frame → Nat
  | (.task _, _) => 3
  | _ => 1

def Worker.stepsBefore (w : Worker) : Nat := 2 * w.busy

/-- The steps that are left of a batch. -/
def State.remaining (s : State) : Nat :=
  (if s.ventilator.announced then 0 else 2) + 4 * (batchSize - s.ventilator.t) +
    Net.weight stepsBefore s.net + (s.workers.map Worker.stepsBefore).sum

/-- A step of the batch: not the start of a worker. -/
def Label.works : Label → Bool
  | .start _ => false
  | _ => true

def Label.keeps : Label → Bool
  | .lose _ => false
  | _ => true

theorem remaining_step {build : Build} {s s' : State} {l : Label} (kept : Conserved build s)
    (lossless : l.keeps = true) (stepped : Stepped build s l s') :
    s'.remaining + (if l.works then 1 else 0) = s.remaining := by
  have sent := kept.sent
  cases stepped with
  | announce pending =>
      have added := Net.weight_send stepsBefore s.net .announce [0x30]
      simp only [State.remaining, Label.works, pending, added, stepsBefore, Bool.false_eq_true,
        if_true, if_false]
      omega
  | send worker rand w connected announced more =>
      have added := Net.weight_send stepsBefore s.net (.task worker) (printed 10 (workloadOf rand))
      simp only [State.remaining, Label.works, added, stepsBefore, if_true]
      omega
  | start worker missing =>
      simp only [State.remaining, Label.works, List.map_cons, List.sum_cons, Bool.false_eq_true,
        if_false]
      have idle : (⟨worker, none, 0⟩ : Worker).stepsBefore = 0 := rfl
      omega
  | take worker w msg net workload found idle received read =>
      have fewer := Net.weight_recv stepsBefore received
      have hands := sum_setWorker Worker.stepsBefore (.take workload) kept.unique found
      have free : w.stepsBefore = 0 := by simp [Worker.stepsBefore, Worker.busy, idle]
      have full : (w.take workload).stepsBefore = 2 := rfl
      show (if s.ventilator.announced then 0 else 2) + 4 * (batchSize - s.ventilator.t) +
        Net.weight stepsBefore net +
          ((s.setWorker worker (.take workload)).workers.map Worker.stepsBefore).sum + 1 = _
      simp only [stepsBefore] at fewer
      unfold State.remaining
      omega
  | finish worker w workload found busy =>
      have added := Net.weight_send stepsBefore s.net (.result worker) []
      have hands := sum_setWorker Worker.stepsBefore (.finish build) kept.unique found
      have full : w.stepsBefore = 2 := by simp [Worker.stepsBefore, Worker.busy, busy]
      have free : (w.finish build).stepsBefore = 0 := rfl
      show (if s.ventilator.announced then 0 else 2) + 4 * (batchSize - s.ventilator.t) +
        Net.weight stepsBefore (s.net.send (.result worker) []) +
          ((s.setWorker worker (.finish build)).workers.map Worker.stepsBefore).sum + 1 = _
      simp only [stepsBefore] at added
      unfold State.remaining
      omega
  | collect chan msg net sink toSink received counted =>
      have fewer := Net.weight_recv stepsBefore received
      have last : stepsBefore (chan, msg) = 1 := by
        cases chan with
        | task worker => cases toSink
        | announce => rfl
        | result worker => rfl
      simp only [State.remaining, Label.works, if_true]
      omega
  | lose packet p found => cases lossless

theorem one_le_stepsBefore (net : Net Chan Frame) :
    Net.weight one net ≤ Net.weight stepsBefore net := by
  induction net with
  | nil => exact le_refl 0
  | cons p net ih =>
      have least : one p ≤ stepsBefore p := by
        obtain ⟨chan, msg⟩ := p
        cases chan <;> simp [one, stepsBefore]
      exact Nat.add_le_add least ih

theorem sum_stepsBefore (workers : List Worker) :
    (workers.map Worker.stepsBefore).sum = 2 * (workers.map Worker.busy).sum := by
  induction workers with
  | nil => rfl
  | cons w workers ih =>
      rw [List.map_cons, List.sum_cons, ih, List.map_cons, List.sum_cons, Worker.stepsBefore,
        Nat.mul_add]

/-- With nothing lost, no step is left exactly when the sink has finished. -/
theorem Conserved.remaining_eq_zero {build : Build} {s : State} (kept : Conserved build s)
    (lossless : s.lost = []) :
    s.remaining = 0 ↔ s.sink.t = batchSize := by
  constructor
  · intro done
    have count := kept.count
    have sent := kept.sent
    have begun := kept.started
    have left := one_le_stepsBefore s.net
    have busy := sum_stepsBefore s.workers
    have nothing : Net.weight one s.lost = 0 := by rw [lossless]; rfl
    unfold State.remaining at done
    unfold Sink.received Ventilator.sent at count
    cases announced : s.ventilator.announced with
    | false =>
        rw [announced] at done
        simp only [Bool.false_eq_true, if_false] at done
        omega
    | true =>
        rw [announced] at done count
        simp only [if_true] at done count
        cases started : s.sink.started with
        | true =>
            rw [started] at count
            simp only [if_true] at count
            omega
        | false =>
            rw [started] at count begun
            have zero : s.sink.t = 0 := by
              by_contra some_counted
              cases begun (Nat.pos_of_ne_zero some_counted)
            simp only [Bool.false_eq_true, if_false] at count
            have size : batchSize = 100 := rfl
            omega
  · intro finished
    obtain ⟨sent, none_left, -, idle⟩ := kept.done finished
    have begun := kept.started (by rw [finished]; decide)
    have count := kept.count
    simp only [Sink.received, Ventilator.sent, finished, begun, if_true, sent] at count
    have busy : (s.workers.map Worker.busy).sum = 0 := by
      refine List.sum_eq_zero_iff_forall_eq_nat.mpr fun n mem => ?_
      obtain ⟨w, inside, rfl⟩ := List.mem_map.mp mem
      simp [Worker.busy, idle w inside]
    have announced : s.ventilator.announced = true := by
      by_contra silent
      rw [if_neg silent] at count
      omega
    rw [State.remaining, if_pos announced, sent, none_left, sum_stepsBefore, busy]
    rfl

/-! ### What can be done next -/

section Defined

variable {build : Build} {s : State} {worker : Nat} {w : Worker}

theorem send_defined (rand : Nat) (connected : Table.find Worker.name worker s.workers = some w)
    (announced : s.ventilator.announced = true) (more : s.ventilator.t < batchSize) :
    ∃ s', (pipeline build).step s (.send worker rand) = some s' := by
  have fits : taskText (workloadOf rand) = some (printed 10 (workloadOf rand)) :=
    if_pos (length_task (workloadOf_range rand).2)
  simp only [pipeline, step, connected, Ventilator.send, if_pos (And.intro announced more), fits,
    Option.map_some]
  exact ⟨_, rfl⟩

theorem finish_defined {workload : Int} (found : Table.find Worker.name worker s.workers = some w)
    (busy : w.workload = some workload) :
    ∃ s', (pipeline build).step s (.finish worker) = some s' := by
  obtain ⟨name, _, slept⟩ := w
  obtain rfl := busy
  simp only [pipeline, step, found]
  exact ⟨_, rfl⟩

theorem take_defined (kept : Conserved build s)
    (found : Table.find Worker.name worker s.workers = some w) (idle : w.workload = none)
    {msg : Frame} (mem : (.task worker, msg) ∈ s.net) :
    ∃ s', (pipeline build).step s (.take worker) = some s' := by
  obtain ⟨name, _, slept⟩ := w
  obtain rfl := idle
  obtain ⟨task, net, received⟩ := Net.recv_of_mem mem
  obtain ⟨-, k, high, rfl⟩ := kept.task worker task (Net.mem_of_recv received)
  simp only [pipeline, step, found, received, readTask_printed high, Option.bind_eq_bind,
    Option.bind_some]
  exact ⟨_, rfl⟩

theorem collect_defined {chan : Chan} {msg : Frame} (toSink : chan.toSink = true)
    (unfinished : s.sink.t < batchSize) (mem : (chan, msg) ∈ s.net) :
    ∃ s', (pipeline build).step s (.collect chan) = some s' := by
  obtain ⟨msg', net, received⟩ := Net.recv_of_mem mem
  obtain ⟨sink, counted⟩ : ∃ sink, s.sink.receive = some sink := by
    rw [Sink.receive, if_pos unfinished]
    split <;> exact ⟨_, rfl⟩
  simp only [pipeline, step, toSink, if_true, received, counted, Option.bind_eq_bind,
    Option.bind_some]
  exact ⟨_, rfl⟩

end Defined

/-- A worker that runs finishes what it does, or takes what there is for it. -/
theorem Conserved.worker_goes_on {build : Build} {s : State} (kept : Conserved build s)
    {w : Worker} (mem : w ∈ s.workers)
    (some_work : w.workload ≠ none ∨ ∃ msg, (.task w.name, msg) ∈ s.net) :
    ∃ l s', l.works = true ∧ l.keeps = true ∧ (pipeline build).step s l = some s' := by
  have found : Table.find Worker.name w.name s.workers = some w := Table.find_of_mem kept.unique mem
  cases busy : w.workload with
  | some workload =>
      obtain ⟨s', done⟩ := finish_defined found busy
      exact ⟨.finish w.name, s', rfl, rfl, done⟩
  | none =>
      obtain ⟨msg, waits⟩ := some_work.resolve_left (not_not.mpr busy)
      obtain ⟨s', done⟩ := take_defined kept found busy waits
      exact ⟨.take w.name, s', rfl, rfl, done⟩

/-- While the sink has not finished and nothing is lost, some party can go on. -/
theorem Conserved.goes_on {build : Build} {s : State} (kept : Conserved build s)
    (lossless : s.lost = [])
    (workers : s.workers ≠ []) (unfinished : s.sink.t < batchSize) :
    ∃ l s', l.works = true ∧ l.keeps = true ∧ (pipeline build).step s l = some s' := by
  by_cases announced : s.ventilator.announced = true
  swap
  · exact ⟨.announce, _, rfl, rfl, if_neg announced⟩
  by_cases more : s.ventilator.t < batchSize
  · -- the ventilator sends the next task to the first worker
    obtain ⟨w, rest, listed⟩ := List.exists_cons_of_ne_nil workers
    have found : Table.find Worker.name w.name s.workers = some w :=
      Table.find_of_mem kept.unique (listed ▸ List.mem_cons_self)
    obtain ⟨s', done⟩ := send_defined 0 found announced more
    exact ⟨.send w.name 0, s', rfl, rfl, done⟩
  cases left : s.net with
  | cons p rest =>
      obtain ⟨chan, msg⟩ := p
      have mem : (chan, msg) ∈ s.net := left ▸ List.mem_cons_self
      cases toSink : chan.toSink with
      | true =>
          obtain ⟨s', done⟩ := collect_defined toSink unfinished mem
          exact ⟨.collect chan, s', rfl, rfl, done⟩
      | false =>
          cases chan with
          | announce => cases toSink
          | result worker => cases toSink
          | task worker =>
              obtain ⟨w, inside, rfl⟩ := List.mem_map.mp (kept.task worker msg mem).1
              exact kept.worker_goes_on inside (.inr ⟨msg, mem⟩)
  | nil =>
      by_cases busy : ∃ w ∈ s.workers, w.workload ≠ none
      · obtain ⟨w, inside, busy⟩ := busy
        exact kept.worker_goes_on inside (.inl busy)
      · -- then the sink has counted all there is
        have idle : (s.workers.map Worker.busy).sum = 0 := by
          refine List.sum_eq_zero_iff_forall_eq_nat.mpr fun n mem => ?_
          obtain ⟨w, inside, rfl⟩ := List.mem_map.mp mem
          have none_taken : w.workload = none := by
            by_contra taken
            exact busy ⟨w, inside, taken⟩
          simp [Worker.busy, none_taken]
        have nothing : s.remaining = 0 := by
          have all : batchSize - s.ventilator.t = 0 := Nat.sub_eq_zero_of_le (not_lt.mp more)
          rw [State.remaining, if_pos announced, all, left, sum_stepsBefore, idle]
          rfl
        have finished := (kept.remaining_eq_zero lossless).mp nothing
        exact absurd unfinished (by omega)

/-- **A batch without losses ends**, and in as many steps in every order: one to announce it,
four for each task and one for the start of the sink. No task overruns a worker's buffer, with
the NUL that is put behind it, and until the sink has finished there is always a step to
take. -/
theorem batch_ends {build : Build} {past : List (State × Label)} {s : State}
    (run : Run (pipeline build) past s)
    (lossless : EachStep (fun _ l => l.keeps = true) past) :
    past.countP (fun p => p.2.works) + s.remaining = 4 * batchSize + 2 ∧
      (s.remaining = 0 ↔ s.sink.t = batchSize) ∧
      (∀ worker msg, (.task worker, msg) ∈ s.net → msg.length < bufferSize) ∧
      (s.workers ≠ [] → s.sink.t < batchSize →
        ∃ l s', l.works = true ∧ l.keeps = true ∧ (pipeline build).step s l = some s') := by
  obtain ⟨⟨kept, nothing⟩, counted⟩ := run.spent
    (fun s => Conserved build s ∧ s.lost = []) (fun _ l => l.keeps = true) State.remaining
    Label.works
    ⟨.start, rfl⟩
    (by
      rintro s l s' ⟨kept, nothing⟩ keeps taken
      have stepped := step_stepped taken
      refine ⟨⟨kept.step stepped, ?_⟩, remaining_step kept keeps stepped⟩
      cases stepped with
      | lose packet p found => cases keeps
      | _ => exact nothing)
    lossless
  refine ⟨counted, kept.remaining_eq_zero nothing, fun worker msg mem => ?_, kept.goes_on nothing⟩
  obtain ⟨-, k, high, rfl⟩ := kept.task worker msg mem
  exact length_task high

/-- The first two tasks of a batch, of which the second waits for the worker. -/
def firstTasks : List Label :=
  [.announce, .start 0, .send 0 41, .send 0 6, .take 0, .collect .announce, .finish 0]

theorem batch_ends_first_tasks : ∃ (past : List (State × Label)) (s : State),
    Run (pipeline .posix) past s ∧ past.countP (fun p => p.2.works) = 6 ∧ s.remaining = 396 ∧
      (.task 0, [0x37]) ∈ s.net ∧
      (∀ worker msg, (.task worker, msg) ∈ s.net → msg.length < bufferSize) ∧
      ∃ l s', l.works = true ∧ l.keeps = true ∧ (pipeline .posix).step s l = some s' := by
  have ran : ((pipeline .posix).record [] (pipeline .posix).start firstTasks).map (fun p =>
      (p.1.all fun p => p.2.keeps, p.1.countP fun p => p.2.works, p.2.workers.length, p.2.sink.t)) =
      some (true, 6, 1, 0) := by decide
  have left : ((pipeline .posix).record [] (pipeline .posix).start firstTasks).map (·.2.net) =
      some [(.task 0, [0x37]), (.result 0, [])] := by decide
  obtain ⟨⟨past, s⟩, done, seen⟩ := Option.map_eq_some_iff.mp ran
  have run := Run.record .start done
  obtain ⟨keeps, seen⟩ := Prod.mk.inj seen
  obtain ⟨works, seen⟩ := Prod.mk.inj seen
  obtain ⟨workers, counted⟩ := Prod.mk.inj seen
  have lossless : EachStep (fun _ l => Label.keeps l = true) past := List.all_eq_true.mp keeps
  obtain ⟨total, -, fits, next⟩ := batch_ends run lossless
  have size : batchSize = 100 := rfl
  rw [done, Option.map_some] at left
  have net : s.net = [(.task 0, [0x37]), (.result 0, [])] := Option.some.inj left
  dsimp only at works counted
  refine ⟨past, s, run, works, by omega, net ▸ List.mem_cons_self, fits,
    next (fun none_there => ?_) (by omega)⟩
  rw [none_there] at workers
  cases workers

end ZmqPractices.Pipeline
