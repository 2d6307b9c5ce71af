import Mathlib.Algebra.Order.BigOperators.Group.List
import ZmqPractices.AsyncServer.Ledger

/-!
Each request is answered as often as was drawn for it.

A request of a client has a number that no other has, so it is taken once at most. What is
printed of it was drawn there: four replies at most, none for another client, and all of them
when nothing is left to do and nothing was lost.
-/

namespace ZmqPractices.AsyncServer

open Czmq Lib

variable {pool : Nat} {s : State}

theorem Kept.start (pool : Nat) : Kept (asyncServer pool).start where
  shapes :=
    { clientKeys := List.nodup_nil
      workerKeys := by
        have threads : ((List.range pool).map (Worker.mk · none)).map Worker.thread =
            List.range pool := by
          rw [List.map_map]
          exact List.map_id _
        exact threads.symm ▸ List.nodup_range
      net := fun _ mem => absurd mem List.not_mem_nil
      workers := fun _ mem => absurd mem List.not_mem_nil
      tasks := by
        intro w mem t busy
        obtain ⟨thread, -, rfl⟩ := List.mem_map.mp mem
        cases busy }
  bounded _ mem := absurd mem List.not_mem_nil
  requests _ := rfl
  replies key := by
    have idle : ((asyncServer pool).start.workers.map (Worker.owes key)).sum = 0 := by
      refine List.sum_eq_zero fun n found => ?_
      obtain ⟨w, mem, rfl⟩ := List.mem_map.mp found
      obtain ⟨thread, -, rfl⟩ := List.mem_map.mp mem
      rfl
    rw [idle]
    rfl

theorem kept_of_reachable (reach : Reachable (asyncServer pool) s) : Kept s :=
  reach.invariant Kept (.start pool) fun _ _ _ kept taken => kept.step taken

/-! ### Requests have numbers -/

theorem requestText_injective {n n' : Nat} (same : requestText n = requestText n') : n = n' := by
  have digits : printed 10 n = printed 10 n' := List.append_cancel_left same
  rw [← decimal_printed n, ← decimal_printed n', digits]

/-- A client sends a request once. -/
theorem asked_requestText (c : Client) (n : Nat) :
    c.asked (c.identity, requestText (n + 1)) = if n < c.requestNum then 1 else 0 := by
  have numbers : (List.range c.requestNum).countP
      (fun m => (c.identity, requestText (m + 1)) = (c.identity, requestText (n + 1))) =
      (List.range c.requestNum).count n := by
    refine List.countP_congr fun m _ => ?_
    simp only [Prod.mk.injEq, true_and, decide_eq_true_eq, beq_iff_eq]
    exact ⟨fun same => Nat.succ.inj (requestText_injective same), fun same => same ▸ rfl⟩
  rw [Client.asked, numbers]
  split
  · rename_i sent
    exact List.count_eq_one_of_mem List.nodup_range (List.mem_range.mpr sent)
  · rename_i unsent
    exact List.count_eq_zero.mpr fun mem => unsent (List.mem_range.mp mem)

/-- Other clients do not send it. -/
theorem sum_asked {c : Client} (shapes : Shapes s) (mem : c ∈ s.clients) (content : Frame) :
    (s.clients.map (Client.asked (c.identity, content))).sum =
      c.asked (c.identity, content) := by
  refine Table.sum_single shapes.clientKeys mem fun b _ other => ?_
  refine List.countP_eq_zero.mpr fun n _ same => other ?_
  exact (Prod.mk.inj (of_decide_eq_true same)).1

theorem sum_got {c : Client} (shapes : Shapes s) (mem : c ∈ s.clients) (content : Frame) :
    (s.clients.map (Client.got (c.identity, content))).sum = c.printed.count content := by
  have own : c.got (c.identity, content) = c.printed.count content := by
    refine List.countP_congr fun frame _ => ?_
    simp
  rw [← own]
  refine Table.sum_single shapes.clientKeys mem fun b _ other => ?_
  refine List.countP_eq_zero.mpr fun n _ same => other ?_
  exact (Prod.mk.inj (of_decide_eq_true same)).1

/-! ### What was drawn for a request -/

/-- The draws for a request. -/
def State.draws (s : State) (client content : Frame) : List Task :=
  s.drawn.filter fun t => t.identity = client ∧ t.content = content

theorem length_draws (s : State) (client content : Frame) :
    (s.draws client content).length = (s.drawn.map (Task.taken (client, content))).sum := by
  unfold State.draws
  induction s.drawn with
  | nil => rfl
  | cons t drawn ih =>
      rw [List.map_cons, List.sum_cons, List.filter_cons, ← ih, Task.taken, mark]
      by_cases same : t.identity = client ∧ t.content = content
      · simp [same, Nat.add_comm]
      · simp [same]

theorem sum_draws (s : State) (client content : Frame) :
    ((s.draws client content).map Task.replies).sum =
      (s.drawn.map (Task.owes (client, content))).sum := by
  unfold State.draws
  induction s.drawn with
  | nil => rfl
  | cons t drawn ih =>
      rw [List.map_cons, List.sum_cons, List.filter_cons, ← ih, Task.owes, mark]
      by_cases same : t.identity = client ∧ t.content = content
      · simp [same]
      · simp [same]

/-- A request is taken once at most, and printed as often as was drawn at most. -/
theorem Kept.drawn_once (kept : Kept s) {c : Client} (mem : c ∈ s.clients) (content : Frame) :
    (s.draws c.identity content).length ≤ c.asked (c.identity, content) ∧
      c.printed.count content ≤ ((s.draws c.identity content).map Task.replies).sum := by
  have requests := kept.requests (c.identity, content)
  have replies := kept.replies (c.identity, content)
  rw [sum_asked kept.shapes mem] at requests
  rw [sum_got kept.shapes mem] at replies
  rw [length_draws, sum_draws]
  omega

/-- Nothing is on its way, nobody has anything to send, and nothing was lost. -/
structure Quiet (s : State) : Prop where
  net : s.net = []
  workers : ∀ w ∈ s.workers, w.task = none
  lost : s.lost = []

theorem Kept.drawn_all (kept : Kept s) (quiet : Quiet s) {c : Client} (mem : c ∈ s.clients)
    (content : Frame) :
    (s.draws c.identity content).length = c.asked (c.identity, content) ∧
      c.printed.count content = ((s.draws c.identity content).map Task.replies).sum := by
  have requests := kept.requests (c.identity, content)
  have replies := kept.replies (c.identity, content)
  have idle : (s.workers.map (Worker.owes (c.identity, content))).sum = 0 := by
    refine List.sum_eq_zero fun n found => ?_
    obtain ⟨w, inside, rfl⟩ := List.mem_map.mp found
    rw [Worker.owes, quiet.workers w inside]
    rfl
  have empty (part : Chan × Msg → Nat) : Net.weight part [] = 0 := rfl
  rw [sum_asked kept.shapes mem, quiet.net, quiet.lost, empty] at requests
  rw [sum_got kept.shapes mem, quiet.net, quiet.lost, empty, idle] at replies
  rw [length_draws, sum_draws]
  omega

/-- **Answers are those that were drawn.** In every run, with any number of clients and
workers, steps in any order and any message lost: a client prints only replies to requests of
its own, each of which one worker has taken, and no more than that worker drew for this client
and this request, four at most. When nothing is left to do and nothing was lost, each of its
requests has been taken by one worker once, and printed exactly as often as that worker drew. -/
theorem answers_drawn (pool : Nat) {s : State} (reach : Reachable (asyncServer pool) s)
    {c : Client} (mem : c ∈ s.clients) :
    (∀ frame ∈ c.printed, ∃ n < c.requestNum, frame = requestText (n + 1) ∧
      ∃ t, s.draws c.identity frame = [t] ∧ t.replies ≤ 4 ∧ c.printed.count frame ≤ t.replies) ∧
    (Quiet s → ∀ n < c.requestNum, ∃ t, s.draws c.identity (requestText (n + 1)) = [t] ∧
      t.replies ≤ 4 ∧ c.printed.count (requestText (n + 1)) = t.replies) := by
  have kept := kept_of_reachable reach
  have bounded (content : Frame) : ∀ t ∈ s.draws c.identity content, t.replies ≤ 4 :=
    fun t found => kept.bounded t (List.mem_filter.mp found).1
  refine ⟨fun frame got => ?_, fun quiet n sent => ?_⟩
  · obtain ⟨once, printed⟩ := kept.drawn_once mem frame
    have some_printed : 0 < c.printed.count frame := List.count_pos_iff.mpr got
    cases draws : s.draws c.identity frame with
    | nil =>
        rw [draws] at printed
        exact absurd (Nat.lt_of_lt_of_le some_printed printed) (Nat.lt_irrefl 0)
    | cons t rest =>
        rw [draws] at once printed
        have asked : 0 < c.asked (c.identity, frame) := by
          rw [List.length_cons] at once
          omega
        obtain ⟨n, number, same⟩ := List.countP_pos_iff.mp asked
        have text : requestText (n + 1) = frame := (Prod.mk.inj (of_decide_eq_true same)).2
        have number := List.mem_range.mp number
        rw [← text, asked_requestText, if_pos number, List.length_cons] at once
        obtain rfl : rest = [] := List.length_eq_zero_iff.mp (by omega)
        rw [List.map_singleton, List.sum_singleton] at printed
        exact ⟨n, number, text.symm, t, rfl, bounded frame t (draws ▸ List.mem_cons_self), printed⟩
  · obtain ⟨once, printed⟩ := kept.drawn_all quiet mem (requestText (n + 1))
    rw [asked_requestText, if_pos sent] at once
    obtain ⟨t, draws⟩ := List.length_eq_one_iff.mp once
    rw [draws, List.map_singleton, List.sum_singleton] at printed
    exact ⟨t, draws, bounded _ t (draws ▸ List.mem_cons_self), printed⟩

/-- A request that is answered twice. -/
def answeredTwice : List Label :=
  .start 10 :: List.replicate 100 (.timeout [0x61]) ++
    [.request [0x61], .forward [0x61] 2, .take 2 7, .reply 2, .back 2, .reply 2, .receive [0x61],
      .back 2, .receive [0x61]]

theorem answers_drawn_twice : ∃ s c, Reachable (asyncServer 5) s ∧ c ∈ s.clients ∧ Quiet s ∧
    c.printed.count (requestText 1) = 2 ∧ ∃ t, s.draws c.identity (requestText 1) = [t] ∧
      t.replies = 2 := by
  have ran : ((asyncServer 5).exec (asyncServer 5).start answeredTwice).map
      (fun s => (s.net.length, s.lost.length, s.workers.map fun w => w.task.isSome,
        s.clients.map fun c => (c.requestNum, c.printed.count (requestText 1)))) =
      some (0, 0, List.replicate 5 false, [(1, 2)]) := by decide +kernel
  obtain ⟨s, done, seen⟩ := Option.map_eq_some_iff.mp ran
  simp only [Prod.mk.injEq] at seen
  obtain ⟨net, lost, workers, clients⟩ := seen
  have idle : ∀ w ∈ s.workers, w.task = none := by
    intro w mem
    have free : w.task.isSome ∈ s.workers.map fun w => w.task.isSome := List.mem_map_of_mem mem
    rw [workers] at free
    have empty := Option.isSome_eq_false_iff.mp (List.eq_of_mem_replicate free)
    exact Option.isNone_iff_eq_none.mp empty
  have single : ∃ c, s.clients = [c] ∧ (c.requestNum, c.printed.count (requestText 1)) = (1, 2) :=
    List.map_eq_singleton_iff.mp clients
  obtain ⟨c, is, counts⟩ := single
  obtain ⟨number, printed⟩ := Prod.mk.inj counts
  have mem : c ∈ s.clients := is ▸ List.mem_cons_self
  have quiet : Quiet s := ⟨List.length_eq_zero_iff.mp net, idle, List.length_eq_zero_iff.mp lost⟩
  have reach := Reachable.start.exec done
  obtain ⟨t, draws, -, same⟩ := (answers_drawn 5 reach mem).2 quiet 0 (number ▸ Nat.one_pos)
  exact ⟨s, c, reach, mem, quiet, printed, t, draws, same.symm.trans printed⟩

end ZmqPractices.AsyncServer
