import Mathlib.Data.Multiset.AddSub
import ZmqPractices.Pirate.WorkerList

/-!
Which record `s_worker_ready` of `ppqueue.c` replaces.

The queue routes by the identity frame of a worker and looks its record up by the
printable `id_string`, a C string that ends at the first NUL of the frame. The
lookup is the identity's own exactly when the first record with the same string
has the same frame; all identities that begin with a NUL byte, the ones ZeroMQ
makes for a peer that sets none, have the empty string.
-/

namespace ZmqPractices.Pirate

open Czmq Lib

/-- `after` is `items` as they are, or without one record of `identity`. -/
inductive RemovedOnly (identity : Frame) : List Worker → List Worker → Prop where
  | none (items : List Worker) : RemovedOnly identity items items
  | one (before rest : List Worker) (worker : Worker) (same : worker.identity = identity) :
      RemovedOnly identity (before ++ worker :: rest) (before ++ rest)

/-- The first of the identities that prints as the new one does is the new one. -/
def FirstIsSame (identity : Frame) (identities : List Frame) : Prop :=
  ∀ other, identities.find? (zframeStrdup · = zframeStrdup identity) = some other →
    other = identity

/-- What a record of the list leaves when it is removed tells which it was. -/
theorem RemovedOnly.identity_eq {identity : Frame} {before rest : List Worker} {worker : Worker}
    (removed : RemovedOnly identity (before ++ worker :: rest) (before ++ rest)) :
    worker.identity = identity := by
  generalize whole : before ++ worker :: rest = items at removed
  generalize left : before ++ rest = after at removed
  cases removed with
  | none =>
      have := congrArg List.length (whole.trans left.symm)
      simp at this
  | one before' rest' worker' same =>
      have mine : (worker :: (before ++ rest)).Perm (before ++ worker :: rest) :=
        List.perm_middle.symm
      have theirs : (before' ++ worker' :: rest').Perm (worker' :: (before' ++ rest')) :=
        List.perm_middle
      rw [whole] at mine
      rw [← left] at theirs
      have taken : worker ::ₘ Multiset.ofList (before' ++ rest') =
          worker' ::ₘ ↑(before' ++ rest') :=
        Multiset.coe_eq_coe.mpr (left ▸ mine.trans theirs)
      exact (Multiset.cons_inj_left _).mp taken ▸ same

/-- The records that `s_worker_ready` keeps of a list that `s_worker_new` made. -/
theorem items_sWorkerReady (listed : List (Frame × Nat)) (cursor : Option Nat) (now : Nat)
    (identity : Frame) :
    (sWorkerReady (sWorkerNew now identity) ⟨listed.map record, cursor⟩).items =
      (listed.eraseP fun p => zframeStrdup p.1 = zframeStrdup identity).map record ++
        [sWorkerNew now identity] := by
  rw [sWorkerReady_eq, List.eraseP_map]
  rfl

/-- **Distinct workers are kept apart exactly by their strings.** In every list of
records, for every new identity: `s_worker_ready` removes at most one record, of
that very identity, and leaves the others in their order, if and only if the first
listed identity that agrees with the new one up to its first NUL byte, where there
is one, is the new one. -/
theorem ready_keeps_apart_iff (listed : List (Frame × Nat)) (cursor : Option Nat) (now : Nat)
    (identity : Frame) :
    (∃ kept, (sWorkerReady (sWorkerNew now identity) ⟨listed.map record, cursor⟩).items =
        kept ++ [sWorkerNew now identity] ∧ RemovedOnly identity (listed.map record) kept) ↔
      FirstIsSame identity (listed.map Prod.fst) := by
  rw [items_sWorkerReady, FirstIsSame, List.find?_map]
  cases found : listed.find? ((zframeStrdup · = zframeStrdup identity) ∘ Prod.fst) with
  | none =>
      have unmatched : ∀ p ∈ listed, ¬ zframeStrdup p.1 = zframeStrdup identity := by
        simpa using found
      rw [List.eraseP_of_forall_not (by simpa using unmatched)]
      exact ⟨fun _ _ => by simp, fun _ => ⟨_, rfl, .none _⟩⟩
  | some p =>
      obtain ⟨matched, before, rest, rfl, unmatched⟩ := List.find?_eq_some_iff_append.mp found
      have erased : (before ++ p :: rest).eraseP
          (fun p => zframeStrdup p.1 = zframeStrdup identity) = before ++ rest := by
        rw [List.eraseP_append_right _ (by simpa using unmatched)]
        exact congrArg (before ++ ·) (List.eraseP_cons_of_pos matched)
      rw [erased, List.map_append, List.map_append, List.map_cons]
      constructor
      · rintro ⟨kept, items, removed⟩ other first
        obtain rfl := List.append_cancel_right items
        obtain rfl : p.1 = other := Option.some.inj first
        exact removed.identity_eq
      · intro same
        exact ⟨_, rfl, .one _ _ _ (same p.1 rfl)⟩

/-- Identities without NUL bytes are never confused. -/
theorem firstIsSame_of_nulFree {identity : Frame} {identities : List Frame}
    (own : NulFree identity) (others : ∀ i ∈ identities, NulFree i) :
    FirstIsSame identity identities := by
  intro other first
  have mem := List.mem_of_find?_eq_some first
  have same : zframeStrdup other = zframeStrdup identity := by simpa using List.find?_some first
  rwa [zframeStrdup_of_nulFree own, zframeStrdup_of_nulFree (others other mem)] at same

/-- Of the identities ZeroMQ makes up, the list never holds two: each takes the
place of the other. -/
theorem ready_replaces_zeroLed (cursor : Option Nat) (now at_ : Nat) (identity other : Frame) :
    (sWorkerReady (sWorkerNew now (0 :: identity)) ⟨[record (0 :: other, at_)], cursor⟩).items =
      [sWorkerNew now (0 :: identity)] :=
  items_sWorkerReady [(0 :: other, at_)] cursor now (0 :: identity)

/-- A worker whose made-up identity is `00 02` drops the record of `00 01`. -/
theorem zero_led_confused :
    ¬ ∀ (listed : List (Frame × Nat)) (cursor : Option Nat) (now : Nat) (identity : Frame),
      ∃ kept, (sWorkerReady (sWorkerNew now identity) ⟨listed.map record, cursor⟩).items =
        kept ++ [sWorkerNew now identity] ∧ RemovedOnly identity (listed.map record) kept := by
  intro apart
  obtain ⟨kept, items, removed⟩ := apart [([0, 1], 0)] none 1 [0, 2]
  have alone := ready_replaces_zeroLed none 1 0 [2] [1]
  obtain rfl : kept = [] := by
    have := congrArg List.length (items.symm.trans alone)
    simpa using this
  have removed : RemovedOnly [0, 2] ([] ++ record ([0, 1], 0) :: []) ([] ++ []) := removed
  exact absurd removed.identity_eq (by decide)

end ZmqPractices.Pirate
