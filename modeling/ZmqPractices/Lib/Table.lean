import Mathlib.Data.List.Nodup
import Mathlib.Data.List.Perm.Basic

/-!
Tables: lists of entries that are looked up and written by a key.

`find` gives the first entry with a key and `update` writes to every entry with
it; where keys are unique there is at most one. The laws say what a lookup finds
after a write, and, for a quantity that each entry holds as a list, that writing
to one entry exchanges that entry's list in the concatenation of all of them.
-/

namespace ZmqPractices.Lib.Table

variable {α β K : Type*} [DecidableEq K]

/-- The first entry with this key. -/
def find (key : α → K) (k : K) (entries : List α) : Option α :=
  entries.find? (key · = k)

/-- Write to the entries with this key. -/
def update (key : α → K) (k : K) (write : α → α) (entries : List α) : List α :=
  entries.map fun a => if key a = k then write a else a

variable {key : α → K} {k : K} {write : α → α} {entries : List α} {a : α}

theorem mem_of_find (found : find key k entries = some a) : a ∈ entries :=
  List.mem_of_find?_eq_some found

theorem key_of_find (found : find key k entries = some a) : key a = k := by
  simpa using List.find?_some found

theorem find_isSome_of_mem (mem : a ∈ entries) : ∃ b, find key (key a) entries = some b :=
  Option.isSome_iff_exists.mp (List.find?_isSome.mpr ⟨a, mem, by simp⟩)

theorem find_eq_none : find key k entries = none ↔ ∀ a ∈ entries, key a ≠ k := by
  simp [find]

/-- Where keys are unique, an entry is found under its key. -/
theorem find_of_mem (unique : (entries.map key).Nodup) (mem : a ∈ entries) :
    find key (key a) entries = some a := by
  obtain ⟨b, found⟩ := (find_isSome_of_mem mem : ∃ b, find key (key a) entries = some b)
  rw [found, List.inj_on_of_nodup_map unique (mem_of_find found) mem (key_of_find found)]

/-- Entries added at the end hide no earlier one. -/
theorem find_append_of_find {more : List α} (found : find key k entries = some a) :
    find key k (entries ++ more) = some a := by
  rw [find] at found
  rw [find, List.find?_append, found, Option.some_or]

/-! ### After a write -/

theorem keys_update (kept : ∀ a, key (write a) = key a) :
    (update key k write entries).map key = entries.map key := by
  rw [update, List.map_map]
  apply List.map_congr_left
  intro a _
  simp only [Function.comp_apply]
  split
  · exact kept a
  · rfl

theorem find_update_self (kept : ∀ a, key (write a) = key a) :
    find key k (update key k write entries) = (find key k entries).map write := by
  induction entries with
  | nil => rfl
  | cons a entries ih =>
      by_cases same : key a = k
      · simp [find, update, same, kept]
      · simpa [find, update, same] using ih

theorem find_update_ne {k' : K} (kept : ∀ a, key (write a) = key a) (other : k' ≠ k) :
    find key k' (update key k write entries) = find key k' entries := by
  induction entries with
  | nil => rfl
  | cons a entries ih =>
      by_cases same : key a = k
      · have : ¬ k = k' := fun eq => other eq.symm
        simpa [find, update, same, kept, this] using ih
      · by_cases here : key a = k'
        · simp [find, update, here, other]
        · simpa [find, update, same, here] using ih

theorem find_map {f : α → α} (kept : ∀ a, key (f a) = key a) :
    find key k (entries.map f) = (find key k entries).map f := by
  rw [find, List.find?_map]
  congr 2
  funext a
  simp [kept]

/-- A write that changes no entry with the key changes nothing. -/
theorem update_eq_self (same : ∀ a ∈ entries, key a = k → write a = a) :
    update key k write entries = entries := by
  refine (List.map_congr_left fun a mem => ?_).trans (List.map_id _)
  split
  · rename_i here
    exact same a mem here
  · rfl

theorem update_update {write' : α → α} (kept : ∀ a, key (write a) = key a) :
    update key k write' (update key k write entries) =
      update key k (fun a => write' (write a)) entries := by
  rw [update, update, List.map_map]
  apply List.map_congr_left
  intro a _
  by_cases here : key a = k
  · simp [here, kept]
  · simp [here]

theorem mem_update : a ∈ update key k write entries ↔
    (a ∈ entries ∧ key a ≠ k) ∨ ∃ b ∈ entries, key b = k ∧ a = write b := by
  rw [update, List.mem_map]
  constructor
  · rintro ⟨b, mem, rfl⟩
    by_cases here : key b = k
    · exact .inr ⟨b, mem, here, if_pos here⟩
    · rw [if_neg here]
      exact .inl ⟨mem, here⟩
  · rintro (⟨mem, other⟩ | ⟨b, mem, here, rfl⟩)
    · exact ⟨a, mem, if_neg other⟩
    · exact ⟨b, mem, if_pos here⟩

/-- Lookup in the entries whose key satisfies `q`. -/
theorem find_filter (q : K → Prop) [DecidablePred q] :
    find key k (entries.filter fun a => q (key a)) = if q k then find key k entries else none := by
  rw [find, List.find?_filter]
  by_cases keeps : q k
  · rw [if_pos keeps]
    refine congrArg (List.find? · entries) (funext fun a => ?_)
    by_cases here : key a = k <;> simp [here, keeps]
  · rw [if_neg keeps, List.find?_eq_none]
    rintro a _ found
    have both : q (key a) ∧ key a = k := by simpa using found
    exact keeps (both.2 ▸ both.1)

/-- Where keys are unique, a write puts one entry in the place of another. -/
theorem update_split (write : α → α) (unique : (entries.map key).Nodup) (mem : a ∈ entries) :
    ∃ before after, entries = before ++ a :: after ∧
      update key (key a) write entries = before ++ write a :: after := by
  obtain ⟨before, after, rfl⟩ := List.append_of_mem mem
  rw [List.map_append, List.map_cons, List.nodup_append, List.nodup_cons] at unique
  obtain ⟨-, ⟨absent, -⟩, apart⟩ := unique
  refine ⟨before, after, rfl, ?_⟩
  have first : update key (key a) write before = before :=
    update_eq_self fun b inside same =>
      absurd same (apart (key b) (List.mem_map_of_mem inside) (key a) List.mem_cons_self)
  have last : update key (key a) write after = after :=
    update_eq_self fun b inside same => absurd (List.mem_map.mpr ⟨b, inside, same⟩) absent
  unfold update at first last ⊢
  rw [List.map_append, List.map_cons, if_pos rfl, first, last]

/-- Writing to one entry exchanges its part of the concatenation. -/
theorem flatMap_update_perm (part : α → List β) (unique : (entries.map key).Nodup)
    (mem : a ∈ entries) :
    ((update key (key a) write entries).flatMap part ++ part a).Perm
      (entries.flatMap part ++ part (write a)) := by
  induction entries with
  | nil => cases mem
  | cons b entries ih =>
      rw [List.map_cons, List.nodup_cons] at unique
      rcases List.mem_cons.mp mem with rfl | mem
      · have rest : update key (key a) write entries = entries :=
          update_eq_self fun b mem same => absurd (List.mem_map.mpr ⟨b, mem, same⟩) unique.1
        have head : update key (key a) write (a :: entries) = write a :: entries := by
          rw [update, List.map_cons, if_pos rfl]
          exact congrArg _ rest
        rw [head, List.flatMap_cons, List.flatMap_cons, List.append_assoc]
        apply List.perm_append_comm.trans
        rw [List.append_assoc, List.append_assoc]
        exact List.perm_append_comm_assoc _ _ _
      · have other : key b ≠ key a := fun eq =>
          unique.1 (List.mem_map.mpr ⟨a, mem, eq.symm⟩)
        have head : update key (key a) write (b :: entries) =
            b :: update key (key a) write entries := by
          rw [update, List.map_cons, if_neg other]
          rfl
        rw [head, List.flatMap_cons, List.flatMap_cons, List.append_assoc, List.append_assoc]
        exact (ih unique.2 mem).append_left _

/-- The same for a table that is a function, over a list that has the key once. -/
theorem flatMap_write_perm {names : List K} {table : K → α} (part : α → List β)
    (once : names.Nodup) (mem : k ∈ names) (a : α) :
    ((names.flatMap fun n => part (Function.update table k a n)) ++ part (table k)).Perm
      ((names.flatMap fun n => part (table n)) ++ part a) := by
  have split := List.perm_cons_erase mem
  have others : (names.erase k).flatMap (fun n => part (Function.update table k a n)) =
      (names.erase k).flatMap fun n => part (table n) := by
    refine List.flatMap_congr fun n inside => ?_
    have other : n ≠ k := fun same => once.not_mem_erase (same ▸ inside)
    rw [Function.update_of_ne other]
  have written := split.flatMap_right fun n => part (Function.update table k a n)
  have before := split.flatMap_right fun n => part (table n)
  rw [List.flatMap_cons, Function.update_self, others] at written
  rw [List.flatMap_cons] at before
  refine (written.append_right _).trans (List.Perm.trans ?_ (before.append_right _).symm)
  rw [List.append_assoc, List.append_assoc]
  apply List.perm_append_comm.trans
  rw [List.append_assoc]
  exact List.perm_append_comm_assoc _ _ _

/-- One more member of a list without duplicates has the property. -/
theorem countP_insert [DecidableEq α] {l : List α} {p q : α → Bool} (nodup : l.Nodup)
    (mem : a ∈ l) (before : p a = false) (after : q a = true)
    (others : ∀ b, b ≠ a → q b = p b) : l.countP q = l.countP p + 1 := by
  have perm := List.perm_cons_erase mem
  have same : (l.erase a).countP q = (l.erase a).countP p :=
    List.countP_congr fun b rest => by
      rw [others b (nodup.mem_erase_iff.mp rest).1]
  rw [perm.countP_eq, perm.countP_eq, List.countP_cons, List.countP_cons, same, before, after]
  simp

end ZmqPractices.Lib.Table
