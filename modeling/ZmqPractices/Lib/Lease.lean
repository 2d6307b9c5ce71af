import Mathlib.Data.List.Pairwise
import Mathlib.Data.List.Nodup
import Mathlib.Order.Monotone.Basic

/-!
Keys held on leases, least recently renewed first.

A history records when a key was heard from and when it was taken, newest event
first. A key is waiting when the newest event about it is that it was heard, and
its lease runs from that moment. `order` lists the waiting keys by the time they
were last heard; `live` keeps those whose lease has not run out.

The rest of the module is what a program that keeps such a list needs to know:
how `live` changes when a key is heard or taken, and that walking the list from
the front and stopping at the first key with time left (`purge`) removes exactly
the keys whose lease has run out, provided the list is sorted by deadline and
the clock does not go back between readings.
-/

namespace ZmqPractices.Lib.Lease

variable {K : Type*}

/-- What happens to a key: it is heard from at a time, or it is taken. -/
inductive Event (K : Type*) where
  | heard (key : K) (time : Nat)
  | taken (key : K)
deriving DecidableEq, Repr

def Event.key : Event K → K
  | .heard key _ => key
  | .taken key => key

/-- The times the events of a history were heard at, newest first. -/
def times (history : List (Event K)) : List Nat :=
  history.filterMap fun
    | .heard _ time => some time
    | .taken _ => none

@[simp] theorem times_nil : times ([] : List (Event K)) = [] := rfl

variable [DecidableEq K]

/-- The newest event about a key. -/
def newest (history : List (Event K)) (key : K) : Option (Event K) :=
  history.find? (·.key = key)

/-- The waiting keys with the time they were last heard, oldest first. -/
def order : List (Event K) → List (K × Nat)
  | [] => []
  | .heard key time :: history => (order history).filter (·.1 ≠ key) ++ [(key, time)]
  | .taken key :: history => (order history).filter (·.1 ≠ key)

/-- The waiting keys whose lease of length `lease` has not run out at `now`. -/
def live (lease now : Nat) (history : List (Event K)) : List (K × Nat) :=
  (order history).filter fun p => now < p.2 + lease

/-- Where every key occurs once, removing the first item with a key is removing
all of them. -/
theorem eraseP_eq_filter {α : Type*} {f : α → K} {items : List α} (nodup : (items.map f).Nodup)
    (key : K) : items.eraseP (f · = key) = items.filter (f · ≠ key) := by
  induction items with
  | nil => rfl
  | cons item items ih =>
      rw [List.map_cons, List.nodup_cons] at nodup
      by_cases same : f item = key
      · rw [List.eraseP_cons_of_pos (by simpa using same),
          List.filter_cons_of_neg (by simpa using same)]
        refine (List.filter_eq_self.mpr fun other mem => ?_).symm
        have : f other ≠ key := fun eq =>
          nodup.1 (List.mem_map.mpr ⟨other, mem, eq.trans same.symm⟩)
        simpa using this
      · rw [List.eraseP_cons_of_neg (by simpa using same),
          List.filter_cons_of_pos (by simpa using same), ih nodup.2]

/-! ### What `order` lists -/

/-- A key is listed with a time exactly when the newest event about it is that it
was heard at that time. -/
theorem mem_order {history : List (Event K)} {key : K} {time : Nat} :
    (key, time) ∈ order history ↔ newest history key = some (.heard key time) := by
  induction history with
  | nil => simp [order, newest]
  | cons event history ih =>
      by_cases same : event.key = key
      · cases event with
        | heard key' time' =>
            obtain rfl : key' = key := same
            simp [order, newest, Event.key, eq_comm]
        | taken key' =>
            obtain rfl : key' = key := same
            simp [order, newest, Event.key]
      · have other : newest (event :: history) key = newest history key := by
          simp [newest, same]
        rw [other, ← ih]
        cases event with
        | heard key' time' =>
            have : key ≠ key' := fun eq => same eq.symm
            simp [order, this]
        | taken key' =>
            have : key ≠ key' := fun eq => same eq.symm
            simp [order, this]

/-- Every waiting key is listed once. -/
theorem order_keys_nodup (history : List (Event K)) : ((order history).map Prod.fst).Nodup := by
  induction history with
  | nil => simp [order]
  | cons event history ih =>
      have kept : (((order history).filter (·.1 ≠ event.key)).map Prod.fst).Nodup :=
        ih.sublist (List.filter_sublist.map _)
      cases event with
      | heard key time =>
          rw [order, List.map_append, List.nodup_append]
          refine ⟨kept, List.nodup_singleton _, ?_⟩
          intro a mem b single eq
          obtain rfl : b = key := by simpa using single
          obtain ⟨p, listed, rfl⟩ := List.mem_map.mp mem
          exact (by simpa using (List.mem_filter.mp listed).2 : p.1 ≠ b) eq
      | taken key => exact kept

/-- Every time listed is one at which some event was heard. -/
theorem time_mem_of_mem_order {history : List (Event K)} {p : K × Nat} (mem : p ∈ order history) :
    p.2 ∈ times history := by
  have found := List.mem_of_find?_eq_some (mem_order.mp (show (p.1, p.2) ∈ order history from mem))
  exact List.mem_filterMap.mpr ⟨_, found, rfl⟩

/-- When events are recorded in the order of their times, the waiting keys are
listed by the time they were last heard. -/
theorem order_sorted {history : List (Event K)} (timed : (times history).Pairwise (· ≥ ·)) :
    (order history).Pairwise fun p q => p.2 ≤ q.2 := by
  induction history with
  | nil => simp [order]
  | cons event history ih =>
      cases event with
      | heard key time =>
          have split := List.pairwise_cons.mp timed
          rw [order, List.pairwise_append]
          refine ⟨(ih split.2).sublist List.filter_sublist, List.pairwise_singleton _ _, ?_⟩
          intro p mem q single
          obtain rfl : q = (key, time) := by simpa using single
          exact split.1 _ (time_mem_of_mem_order (List.mem_of_mem_filter mem))
      | taken key =>
          exact (ih timed).sublist List.filter_sublist

/-! ### How the live keys change -/

variable {lease now : Nat} {history : List (Event K)}

theorem mem_live {p : K × Nat} :
    p ∈ live lease now history ↔
      newest history p.1 = some (.heard p.1 p.2) ∧ now < p.2 + lease := by
  rw [live, List.mem_filter, ← mem_order]
  simp

theorem live_keys_nodup (lease now : Nat) (history : List (Event K)) :
    ((live lease now history).map Prod.fst).Nodup :=
  (order_keys_nodup history).sublist (List.filter_sublist.map _)

theorem live_sorted (lease now : Nat) (timed : (times history).Pairwise (· ≥ ·)) :
    (live lease now history).Pairwise fun p q => p.2 ≤ q.2 :=
  (order_sorted timed).sublist List.filter_sublist

/-- Hearing a key moves it to the end with a fresh lease. -/
theorem live_heard {key : K} {time : Nat} (fresh : now < time + lease) :
    live lease now (.heard key time :: history) =
      (live lease now history).filter (·.1 ≠ key) ++ [(key, time)] := by
  simp [live, order, fresh, List.filter_filter, Bool.and_comm]

/-- Taking the first live key removes it and no other. -/
theorem live_taken_head {key : K} {time : Nat} {rest : List (K × Nat)}
    (head : live lease now history = (key, time) :: rest) :
    live lease now (.taken key :: history) = rest := by
  have nodup := live_keys_nodup lease now history
  have gone : live lease now (.taken key :: history) =
      (live lease now history).filter (·.1 ≠ key) := by
    simp [live, order, List.filter_filter, Bool.and_comm]
  rw [gone, head, List.filter_cons_of_neg (by simp)]
  rw [head, List.map_cons, List.nodup_cons] at nodup
  apply List.filter_eq_self.mpr
  intro p mem
  have : p.1 ≠ key := fun eq => nodup.1 (List.mem_map.mpr ⟨p, mem, eq⟩)
  simpa using this

/-- At a later time the live keys are among the earlier ones. -/
theorem live_later {later : Nat} (after : now ≤ later) :
    (live lease now history).filter (fun p => later < p.2 + lease) = live lease later history := by
  rw [live, live, List.filter_filter]
  apply List.filter_congr
  intro p _
  have : later < p.2 + lease → now < p.2 + lease := fun h => by omega
  simpa using this

/-! ### Purging from the front -/

section Purge

variable {α : Type*}

/-- Walk the list from the front, reading the clock before each item, and stop at
the first one whose deadline is still ahead. Returns what is left and the number
of readings taken so far. -/
def purge (clock : Nat → Nat) (deadline : α → Nat) : Nat → List α → List α × Nat
  | tick, [] => ([], tick)
  | tick, item :: rest =>
      if clock tick < deadline item then (item :: rest, tick + 1)
      else purge clock deadline (tick + 1) rest

theorem le_purge_tick (clock : Nat → Nat) (deadline : α → Nat) (tick : Nat) (items : List α) :
    tick ≤ (purge clock deadline tick items).2 := by
  induction items generalizing tick with
  | nil => exact le_rfl
  | cons item rest ih =>
      rw [purge]
      split
      · exact Nat.le_succ tick
      · exact (Nat.le_succ tick).trans (ih (tick + 1))

theorem purge_sublist (clock : Nat → Nat) (deadline : α → Nat) (tick : Nat) (items : List α) :
    (purge clock deadline tick items).1.Sublist items := by
  induction items generalizing tick with
  | nil => exact .refl _
  | cons item rest ih =>
      rw [purge]
      split
      · exact .refl _
      · exact (ih (tick + 1)).cons _

/-- On a list sorted by deadline, stopping early loses nothing: what is left are
exactly the items whose deadline is after the last reading of the clock. -/
theorem purge_eq_filter {clock : Nat → Nat} (mono : Monotone clock) {deadline : α → Nat}
    {items : List α} (sorted : items.Pairwise fun a b => deadline a ≤ deadline b) (tick : Nat) :
    (purge clock deadline tick items).1 =
      items.filter fun item => clock ((purge clock deadline tick items).2 - 1) < deadline item := by
  induction items generalizing tick with
  | nil => rfl
  | cons item rest ih =>
      obtain ⟨least, sorted⟩ := List.pairwise_cons.mp sorted
      by_cases ahead : clock tick < deadline item
      · have kept : ∀ a ∈ item :: rest, clock tick < deadline a := by
          intro a mem
          rcases List.mem_cons.mp mem with rfl | mem
          · exact ahead
          · exact ahead.trans_le (least a mem)
        simp only [purge, ahead, if_true, Nat.add_sub_cancel]
        exact (List.filter_eq_self.mpr fun a mem => decide_eq_true (kept a mem)).symm
      · simp only [purge, ahead, if_false]
        have read : tick ≤ (purge clock deadline (tick + 1) rest).2 - 1 :=
          Nat.le_sub_one_of_lt (le_purge_tick clock deadline (tick + 1) rest)
        have past : ¬ clock ((purge clock deadline (tick + 1) rest).2 - 1) < deadline item :=
          fun h => ahead ((mono read).trans_lt h)
        rw [List.filter_cons_of_neg (by simpa using past)]
        exact ih sorted (tick + 1)

/-- Give one item a new deadline that no other is past. A sorted list stays sorted
exactly when no other item behind it has less time left. -/
theorem sorted_renew [DecidableEq α] {deadline : α → Nat} {items : List α} {x : α} {fresh : Nat}
    (sorted : items.Pairwise fun a b => deadline a ≤ deadline b)
    (latest : ∀ a ∈ items, deadline a ≤ fresh) :
    (items.Pairwise fun a b =>
        (if a = x then fresh else deadline a) ≤ if b = x then fresh else deadline b) ↔
      ∀ before behind, items = before ++ x :: behind →
        ∀ a ∈ behind, a ≠ x → fresh ≤ deadline a := by
  constructor
  · rintro renewed before behind rfl a mem other
    obtain ⟨_, tail, _⟩ := List.pairwise_append.mp renewed
    simpa [other] using (List.pairwise_cons.mp tail).1 a mem
  · intro ordered
    induction items with
    | nil => exact .nil
    | cons item items ih =>
        obtain ⟨least, sorted⟩ := List.pairwise_cons.mp sorted
        refine List.pairwise_cons.mpr ⟨?_, ih sorted ?_ ?_⟩
        · intro b mem
          by_cases same : b = x
          · rw [if_pos same]
            split
            · exact le_rfl
            · exact latest item List.mem_cons_self
          · rw [if_neg same]
            split
            · rename_i here
              exact ordered [] items (here ▸ rfl) b mem same
            · exact least b mem
        · intro a mem
          exact latest a (List.mem_cons_of_mem item mem)
        · rintro before behind rfl a mem other
          exact ordered (item :: before) behind rfl a mem other

end Purge

end ZmqPractices.Lib.Lease
