import Mathlib.Algebra.BigOperators.Group.List.Basic
import Mathlib.Tactic.Abel
import ZmqPractices.Lib.Channel
import ZmqPractices.Lib.Table

/-!
Quantities of a network and of a table, as sums over their packets and entries.

A packet that is sent adds its part to the sum, one that is received or lost takes its part
away, and a write to an entry exchanges the entry's part. So a quantity that only goes from
hand to hand is shown to be conserved by adding up these equations.
-/

namespace ZmqPractices.Lib

variable {M : Type*} [AddCommMonoid M]

namespace Net

variable {Chan Msg : Type*}

/-- The sum of a quantity of the packets. -/
def weight (part : Chan × Msg → M) (net : Net Chan Msg) : M := (net.map part).sum

theorem weight_send (part : Chan × Msg → M) (net : Net Chan Msg) (c : Chan) (m : Msg) :
    weight part (net.send c m) = weight part net + part (c, m) := by
  rw [weight, send, List.map_append, List.sum_append, List.map_singleton, List.sum_singleton]
  rfl

theorem weight_recv [DecidableEq Chan] (part : Chan × Msg → M) {c : Chan} {m : Msg}
    {net rest : Net Chan Msg} (taken : recv c net = some (m, rest)) :
    weight part net = part (c, m) + weight part rest := by
  rw [weight, ((recv_perm taken).map part).sum_eq, List.map_cons, List.sum_cons]
  rfl

theorem weight_eraseIdx (part : Chan × Msg → M) {net : Net Chan Msg} {n : Nat} {p : Chan × Msg}
    (found : net[n]? = some p) : weight part net = part p + weight part (net.eraseIdx n) := by
  induction net generalizing n with
  | nil => cases found
  | cons q net ih =>
      cases n with
      | zero =>
          obtain rfl := Option.some.inj found
          rfl
      | succ n =>
          have rest : weight part net = part p + weight part (net.eraseIdx n) := ih found
          show part q + weight part net = part p + (part q + weight part (net.eraseIdx n))
          rw [rest, add_left_comm]

end Net

namespace Table

variable {α K : Type*} [DecidableEq K] {key : α → K} {write : α → α} {entries : List α} {a : α}

/-- Writing to one entry exchanges its part of the sum. -/
theorem sum_update (part : α → M) (unique : (entries.map key).Nodup) (mem : a ∈ entries) :
    ((update key (key a) write entries).map part).sum + part a =
      (entries.map part).sum + part (write a) := by
  obtain ⟨before, after, rfl, written⟩ := update_split write unique mem
  rw [written]
  simp only [List.map_append, List.map_cons, List.sum_append, List.sum_cons]
  abel

omit [DecidableEq K] in
/-- The sum is the part of the one entry that has any. -/
theorem sum_single {part : α → M} (unique : (entries.map key).Nodup) (mem : a ∈ entries)
    (others : ∀ b ∈ entries, key b ≠ key a → part b = 0) :
    (entries.map part).sum = part a := by
  obtain ⟨before, after, rfl⟩ := List.append_of_mem mem
  rw [List.map_append, List.map_cons, List.nodup_append, List.nodup_cons] at unique
  obtain ⟨-, ⟨absent, -⟩, apart⟩ := unique
  have first : (before.map part).sum = 0 := by
    refine List.sum_eq_zero fun x found => ?_
    obtain ⟨b, inside, rfl⟩ := List.mem_map.mp found
    exact others b (List.mem_append_left _ inside)
      (apart _ (List.mem_map_of_mem inside) _ List.mem_cons_self)
  have last : (after.map part).sum = 0 := by
    refine List.sum_eq_zero fun x found => ?_
    obtain ⟨b, inside, rfl⟩ := List.mem_map.mp found
    exact others b (List.mem_append_right _ (List.mem_cons_of_mem _ inside))
      fun same => absent (same ▸ List.mem_map_of_mem inside)
  rw [List.map_append, List.map_cons, List.sum_append, List.sum_cons, first, last, zero_add,
    add_zero]

end Table

end ZmqPractices.Lib
