import Mathlib.Data.List.Perm.Basic
import Mathlib.Data.List.Perm.Subperm

/-!
Packets in flight on FIFO channels.

A network is one list of packets, each tagged with its channel, oldest first:
sending appends, receiving on a channel takes the oldest packet of that channel.
Order between different channels carries no meaning, so what is proved about a
whole network is proved up to permutation. `recv_split` says which packet is
received, `recv_perm` that receiving removes exactly one, and `filterMap_send` and
`filterMap_recv_perm` what that means for a quantity that is read off the packets. `on`
is the content of one channel, for statements about its order.
-/

namespace ZmqPractices.Lib

/-- The packets in flight, oldest first, each with its channel. -/
abbrev Net (Chan Msg : Type*) := List (Chan × Msg)

namespace Net

variable {Chan Msg : Type*}

/-- Put `m` at the end of channel `c`. -/
def send (net : Net Chan Msg) (c : Chan) (m : Msg) : Net Chan Msg :=
  net ++ [(c, m)]

theorem mem_send {net : Net Chan Msg} {c : Chan} {m : Msg} {p : Chan × Msg} :
    p ∈ net.send c m ↔ p ∈ net ∨ p = (c, m) := by
  simp [send]

/-- What `load` reads off the packets, after one was sent. -/
theorem filterMap_send {Load : Type*} (load : Chan × Msg → Option Load) (net : Net Chan Msg)
    (c : Chan) (m : Msg) :
    (net.send c m).filterMap load = net.filterMap load ++ (load (c, m)).toList := by
  rw [send, List.filterMap_append]
  cases found : load (c, m) <;> simp [found]

variable [DecidableEq Chan]

/-- Take the oldest packet of channel `c`. -/
def recv (c : Chan) : Net Chan Msg → Option (Msg × Net Chan Msg)
  | [] => none
  | (c', m) :: net =>
      if c' = c then some (m, net)
      else (recv c net).map fun out => (out.1, (c', m) :: out.2)

/-- The packets of channel `c`, oldest first. -/
def on (c : Chan) (net : Net Chan Msg) : List Msg :=
  net.filterMap fun p => if p.1 = c then some p.2 else none

/-- Keep only the oldest `n` packets of channel `c`: what is left of it when its
sender goes away after `n` packets have arrived. -/
def trim (c : Chan) : Nat → Net Chan Msg → Net Chan Msg
  | _, [] => []
  | 0, p :: net => if p.1 = c then trim c 0 net else p :: trim c 0 net
  | n + 1, p :: net => p :: trim c (if p.1 = c then n else n + 1) net

/-! ### Receiving takes one packet -/

/-- What is received was the first packet of its channel. -/
theorem recv_split {c : Chan} {net rest : Net Chan Msg} {m : Msg}
    (taken : recv c net = some (m, rest)) :
    ∃ before after, (∀ p ∈ before, p.1 ≠ c) ∧ net = before ++ (c, m) :: after ∧
      rest = before ++ after := by
  induction net generalizing rest with
  | nil => simp [recv] at taken
  | cons p net ih =>
      obtain ⟨c', m'⟩ := p
      by_cases same : c' = c
      · simp only [recv, same, if_true, Option.some.injEq, Prod.mk.injEq] at taken
        obtain ⟨rfl, rfl⟩ := taken
        exact ⟨[], net, fun _ mem => (nomatch mem), by rw [same]; rfl, rfl⟩
      · simp only [recv, same, if_false, Option.map_eq_some_iff, Prod.mk.injEq] at taken
        obtain ⟨⟨m₁, rest₁⟩, found, rfl, rfl⟩ := taken
        obtain ⟨before, after, others, rfl, rfl⟩ := ih found
        exact ⟨(c', m') :: before, after, List.forall_mem_cons.mpr ⟨same, others⟩, rfl, rfl⟩

theorem recv_perm {c : Chan} {net rest : Net Chan Msg} {m : Msg}
    (taken : recv c net = some (m, rest)) : net.Perm ((c, m) :: rest) := by
  obtain ⟨before, after, -, rfl, rfl⟩ := recv_split taken
  exact List.perm_middle

/-- What `load` reads off the packets, before one was received. -/
theorem filterMap_recv_perm {Load : Type*} (load : Chan × Msg → Option Load) {c : Chan}
    {net rest : Net Chan Msg} {m : Msg} (taken : recv c net = some (m, rest)) :
    (net.filterMap load).Perm ((load (c, m)).toList ++ rest.filterMap load) := by
  apply ((recv_perm taken).filterMap load).trans
  cases found : load (c, m) <;> simp [found]

theorem mem_of_recv {c : Chan} {net rest : Net Chan Msg} {m : Msg}
    (taken : recv c net = some (m, rest)) : (c, m) ∈ net :=
  (recv_perm taken).mem_iff.mpr List.mem_cons_self

/-- Where a channel has a packet, one is received. -/
theorem recv_of_mem {c : Chan} {net : Net Chan Msg} {m : Msg} (mem : (c, m) ∈ net) :
    ∃ m' rest, recv c net = some (m', rest) := by
  induction net with
  | nil => cases mem
  | cons p net ih =>
      obtain ⟨c', m'⟩ := p
      by_cases same : c' = c
      · exact ⟨m', net, by rw [recv, if_pos same]⟩
      · have inside : (c, m) ∈ net := by
          rcases List.mem_cons.mp mem with eq | inside
          · exact absurd (Prod.mk.inj eq).1.symm same
          · exact inside
        obtain ⟨m'', rest, taken⟩ := ih inside
        exact ⟨m'', (c', m') :: rest, by rw [recv, if_neg same, taken]; rfl⟩

theorem mem_of_mem_recv {c : Chan} {net rest : Net Chan Msg} {m : Msg} {p : Chan × Msg}
    (taken : recv c net = some (m, rest)) (mem : p ∈ rest) : p ∈ net :=
  (recv_perm taken).mem_iff.mpr (List.mem_cons_of_mem _ mem)

/-- Taking away any packet, wherever it is, leaves a sublist. -/
theorem recv_sublist {c : Chan} {net rest : Net Chan Msg} {m : Msg}
    (taken : recv c net = some (m, rest)) : rest.Sublist net := by
  obtain ⟨before, after, -, rfl, rfl⟩ := recv_split taken
  exact (List.sublist_cons_self _ _).append_left before

theorem trim_sublist (c : Chan) (n : Nat) (net : Net Chan Msg) : (trim c n net).Sublist net := by
  induction net generalizing n with
  | nil => exact .refl _
  | cons p net ih =>
      cases n with
      | zero =>
          rw [trim]
          split
          · exact (ih 0).cons _
          · exact (ih 0).cons_cons _
      | succ n => exact (ih _).cons_cons _

/-! ### The order on one channel -/

@[simp] theorem on_nil (c : Chan) : on c ([] : Net Chan Msg) = [] := rfl

theorem on_cons (c : Chan) (p : Chan × Msg) (net : Net Chan Msg) :
    on c (p :: net) = if p.1 = c then p.2 :: on c net else on c net := by
  by_cases same : p.1 = c <;> simp [on, same]

theorem on_append (c : Chan) (net net' : Net Chan Msg) :
    on c (net ++ net') = on c net ++ on c net' :=
  List.filterMap_append

theorem Perm.on {net net' : Net Chan Msg} (perm : net.Perm net') (c : Chan) :
    (on c net).Perm (Net.on c net') :=
  perm.filterMap _

/-- A part of the packets has a part of each channel. -/
theorem Subperm.on {net net' : Net Chan Msg} (part : net.Subperm net') (c : Chan) :
    (on c net).Subperm (Net.on c net') := by
  obtain ⟨mid, perm, sub⟩ := part
  exact ⟨Net.on c mid, perm.filterMap _, sub.filterMap _⟩

/-- The packets of a channel, counted by its name. -/
theorem length_on [BEq Chan] [LawfulBEq Chan] (c : Chan) (net : Net Chan Msg) :
    (on c net).length = (net.map Prod.fst).count c := by
  induction net with
  | nil => rfl
  | cons p net ih =>
      rw [on_cons, List.map_cons, List.count_cons, ← ih]
      by_cases same : p.1 = c
      · simp [same]
      · simp [same]

/-- A sent packet waits behind the earlier ones of its channel. -/
theorem on_send_self (net : Net Chan Msg) (c : Chan) (m : Msg) :
    on c (net.send c m) = on c net ++ [m] := by
  simp [on, send]

theorem on_send_ne {c c' : Chan} (other : c' ≠ c) (net : Net Chan Msg) (m : Msg) :
    on c (net.send c' m) = on c net := by
  simp [on, send, other]

theorem on_eq_nil {c : Chan} {net : Net Chan Msg} (others : ∀ p ∈ net, p.1 ≠ c) : on c net = [] :=
  List.filterMap_eq_nil_iff.mpr fun p mem => if_neg (others p mem)

/-- A received packet was the oldest of its channel. -/
theorem on_recv_self {c : Chan} {net rest : Net Chan Msg} {m : Msg}
    (taken : recv c net = some (m, rest)) : on c net = m :: on c rest := by
  obtain ⟨before, after, others, rfl, rfl⟩ := recv_split taken
  simp [on_append, on_cons, on_eq_nil others]

theorem on_recv_ne {c c' : Chan} (other : c' ≠ c) {net rest : Net Chan Msg} {m : Msg}
    (taken : recv c' net = some (m, rest)) : on c net = on c rest := by
  obtain ⟨before, after, -, rfl, rfl⟩ := recv_split taken
  simp [on_append, on_cons, other]

end Net

end ZmqPractices.Lib
