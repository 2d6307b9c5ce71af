import Mathlib.Data.List.Basic

/-!
Computations that leave a trace of what they wrote, and may not return.

A call that does not return has still made the writes before the place where it stopped.
`All` says that a property holds of each write; over a sequence of computations it is
proved from its parts (`all_bind`).
-/

namespace ZmqPractices.Lib

/-- The writes in order, and the result of a computation that returns. -/
structure Traced (Write α : Type) where
  writes : List Write
  result : Option α

namespace Traced

variable {Write α β : Type}

instance : Monad (Traced Write) where
  pure a := ⟨[], some a⟩
  bind x f :=
    match x.result with
    | none => ⟨x.writes, none⟩
    | some a => ⟨x.writes ++ (f a).writes, (f a).result⟩

theorem bind_assoc' {γ : Type} (x : Traced Write α) (f : α → Traced Write β)
    (g : β → Traced Write γ) : x >>= f >>= g = x >>= fun a => f a >>= g := by
  obtain ⟨writes, result⟩ := x
  cases result with
  | none => rfl
  | some a =>
      cases same : f a with
      | mk writes' result' =>
          cases result' <;> simp [bind, same, List.append_assoc]

theorem id_map' (x : Traced Write α) : id <$> x = x := by
  obtain ⟨writes, result⟩ := x
  cases result with
  | none => rfl
  | some a => exact congrArg (Traced.mk · (some a)) (List.append_nil writes)

instance : LawfulMonad (Traced Write) := .mk' _ id_map' (fun _ _ => rfl) bind_assoc'

/-- A computation that writes nothing. -/
def ofOption (result : Option α) : Traced Write α := ⟨[], result⟩

/-- Every write has the property. -/
def All (P : Write → Prop) (x : Traced Write α) : Prop := ∀ w ∈ x.writes, P w

@[simp] theorem result_pure (a : α) : (pure a : Traced Write α).result = some a := rfl

@[simp] theorem result_ofOption (result : Option α) :
    (ofOption result : Traced Write α).result = result := rfl

@[simp] theorem result_bind (x : Traced Write α) (f : α → Traced Write β) :
    (x >>= f).result = x.result.bind fun a => (f a).result := by
  obtain ⟨writes, result⟩ := x
  cases result <;> rfl

/-- A continuation that writes nothing. -/
theorem writes_bind {x : Traced Write α} {f : α → Traced Write β}
    (silent : ∀ a, (f a).writes = []) : (x >>= f).writes = x.writes := by
  obtain ⟨writes, result⟩ := x
  cases result with
  | none => rfl
  | some a => exact (congrArg (writes ++ ·) (silent a)).trans (List.append_nil writes)

@[simp] theorem writes_map (f : α → β) (x : Traced Write α) : (f <$> x).writes = x.writes :=
  writes_bind fun _ => rfl

@[simp] theorem result_map (f : α → β) (x : Traced Write α) :
    (f <$> x).result = x.result.map f := by
  obtain ⟨writes, result⟩ := x
  cases result <;> rfl

@[simp] theorem all_pure (P : Write → Prop) (a : α) : (pure a : Traced Write α).All P :=
  fun _ mem => absurd mem List.not_mem_nil

@[simp] theorem all_ofOption (P : Write → Prop) (result : Option α) :
    (ofOption result : Traced Write α).All P :=
  fun _ mem => absurd mem List.not_mem_nil

@[simp] theorem all_singleton (P : Write → Prop) (w : Write) (result : Option α) :
    (⟨[w], result⟩ : Traced Write α).All P ↔ P w := by
  simp [All]

theorem all_bind {P : Write → Prop} {x : Traced Write α} {f : α → Traced Write β} :
    (x >>= f).All P ↔ x.All P ∧ ∀ a, x.result = some a → (f a).All P := by
  obtain ⟨writes, result⟩ := x
  cases result with
  | none =>
      refine ⟨fun all => ⟨all, fun a same => ?_⟩, fun all => all.1⟩
      cases same
  | some a =>
      have split : ((⟨writes, some a⟩ : Traced Write α) >>= f).All P ↔
          (∀ w ∈ writes, P w) ∧ ∀ w ∈ (f a).writes, P w := List.forall_mem_append
      rw [split]
      refine and_congr_right fun _ => ⟨fun all b same => ?_, fun all => all a rfl⟩
      cases same
      exact all

/-- A function of the result makes no further writes. -/
@[simp] theorem all_map {P : Write → Prop} {f : α → β} {x : Traced Write α} :
    (f <$> x).All P ↔ x.All P := by
  rw [All, writes_map, All]

end Traced

end ZmqPractices.Lib
