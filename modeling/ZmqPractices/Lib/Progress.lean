import Mathlib.Algebra.Ring.Nat
import ZmqPractices.Lib.Transition

/-!
Runs that use something up.

Where each counted step of a run lowers a measure by one and no other step changes it, the
run has counted as many steps as the measure has gone down. So a run has at most as many
counted steps as the measure of the start, and when it has them all the measure is zero.
Where steps may add to the measure, and counted steps lower it by one at least, the counted
steps are at most what was there and what was added (`Run.afforded`). That there is such a
step to make, at once or after a step that prepares for it, is `Soon`.
-/

namespace ZmqPractices.Lib

variable {State Label : Type*} {T : System State Label} {past : List (State × Label)} {s : State}

/-- The counted steps of a run and what is left of the measure make up the measure of the
start, when `Inv` and the guard are what the steps need. -/
theorem Run.spent (Inv : State → Prop) (guard : State → Label → Prop) (measure : State → Nat)
    (counts : Label → Bool) (start : Inv T.start)
    (step : ∀ s l s', Inv s → guard s l → T.step s l = some s' →
      Inv s' ∧ measure s' + (if counts l then 1 else 0) = measure s)
    (run : Run T past s) (guarded : EachStep guard past) :
    Inv s ∧ past.countP (fun p => counts p.2) + measure s = measure T.start := by
  induction run with
  | start => exact ⟨start, Nat.zero_add _⟩
  | @next past s s' l _ taken ih =>
      obtain ⟨here, before⟩ := eachStep_cons.mp guarded
      obtain ⟨inv, counted⟩ := ih before
      obtain ⟨inv', lowered⟩ := step s l s' inv here taken
      refine ⟨inv', ?_⟩
      rw [List.countP_cons]
      dsimp only at *
      omega

/-- The counted steps of a run are paid for by the measure of the start and by what the
steps brought. -/
theorem Run.afforded (Inv : State → Prop) (measure : State → Nat) (counts : Label → Bool)
    (brings : Label → Nat) (start : Inv T.start)
    (step : ∀ s l s', Inv s → T.step s l = some s' →
      Inv s' ∧ measure s' + (if counts l then 1 else 0) ≤ measure s + brings l)
    (run : Run T past s) :
    Inv s ∧ past.countP (fun p => counts p.2) + measure s ≤
      measure T.start + (past.map fun p => brings p.2).sum := by
  induction run with
  | start => exact ⟨start, Nat.le_of_eq (Nat.zero_add _)⟩
  | @next past s s' l _ taken ih =>
      obtain ⟨inv, paid⟩ := ih
      obtain ⟨inv', lowered⟩ := step s l s' inv taken
      refine ⟨inv', ?_⟩
      rw [List.countP_cons, List.map_cons, List.sum_cons]
      dsimp only at *
      omega

/-- A counted step can be made, after one step at most that prepares for it. -/
def Soon (T : System State Label) (prepares counts : Label → Bool) (s : State) : Prop :=
  ∃ (first : List Label) (l : Label) (s' : State), first.length ≤ 1 ∧
    (∀ l ∈ first, prepares l = true) ∧ counts l = true ∧ T.exec s (first ++ [l]) = some s'

namespace Soon

variable {prepares counts : Label → Bool} {l first : Label}

theorem now (counted : counts l = true) (enabled : ∃ s', T.step s l = some s') :
    Soon T prepares counts s := by
  obtain ⟨s', taken⟩ := enabled
  refine ⟨[], l, s', Nat.zero_le 1, fun l mem => absurd mem List.not_mem_nil, counted, ?_⟩
  rw [List.nil_append, System.exec, taken]
  rfl

theorem after {s₁ : State} (prepared : prepares first = true) (taken : T.step s first = some s₁)
    (counted : counts l = true) (enabled : ∃ s', T.step s₁ l = some s') :
    Soon T prepares counts s := by
  obtain ⟨s', next⟩ := enabled
  refine ⟨[first], l, s', Nat.le_refl 1, fun l mem => ?_, counted, ?_⟩
  · rw [List.mem_singleton.mp mem]
    exact prepared
  · rw [List.singleton_append, System.exec, taken, Option.bind_some, System.exec, next]
    rfl

end Soon

end ZmqPractices.Lib
