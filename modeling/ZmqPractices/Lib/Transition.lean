import Mathlib.Data.List.Basic

/-!
Labelled transition systems with executable steps, and their runs.

A step function answers `some` successor state or `none`; a run records every
state it left together with the label taken there, newest first, so that a
property of "every state reached" and a guard on "every step taken" are both
statements about one list. Three rules are used throughout:

* `Run.invariant`: an invariant of the start that every step preserves holds in
  every state of a run;
* `Run.exact`: where a step keeps a property exactly when a guard holds before
  it, a run keeps the property in all its states iff it meets the guard at all
  its steps (`Run.exact_kept` also asks something of each step);
* `Reachable.simulated`: where each step of one system is a step of another on related
  states, or leaves them related, the first reaches only what the second reaches.
-/

namespace ZmqPractices.Lib

/-- A deterministic system: one start state, and a partial step per label. -/
structure System (State Label : Type*) where
  start : State
  step : State → Label → Option State

variable {State Label : Type*}

/-- `Run T past s`: the system `T` has reached `s`; `past` lists the states it
left and the labels it took there, newest first. -/
inductive Run (T : System State Label) : List (State × Label) → State → Prop where
  | start : Run T [] T.start
  | next {past : List (State × Label)} {s s' : State} {l : Label} :
      Run T past s → T.step s l = some s' → Run T ((s, l) :: past) s'

/-- A state is reachable when some run ends in it. -/
def Reachable (T : System State Label) (s : State) : Prop :=
  ∃ past, Run T past s

/-- `P` holds in every state of the run: the ones it left and the one it is in. -/
def Always (P : State → Prop) (past : List (State × Label)) (s : State) : Prop :=
  P s ∧ ∀ p ∈ past, P p.1

/-- `guard` holds at every step of the run, on the state the step left. -/
def EachStep (guard : State → Label → Prop) (past : List (State × Label)) : Prop :=
  ∀ p ∈ past, guard p.1 p.2

theorem always_nil {P : State → Prop} {s : State} :
    Always P ([] : List (State × Label)) s ↔ P s := by
  simp [Always]

theorem always_cons {P : State → Prop} {past : List (State × Label)} {s s' : State} {l : Label} :
    Always P ((s, l) :: past) s' ↔ P s' ∧ Always P past s := by
  simp [Always]

theorem Always.imp {P Q : State → Prop} {past : List (State × Label)} {s : State}
    (always : Always P past s) (imp : ∀ s, P s → Q s) : Always Q past s :=
  ⟨imp s always.1, fun p mem => imp p.1 (always.2 p mem)⟩

theorem eachStep_nil {guard : State → Label → Prop} : EachStep guard [] := by
  simp [EachStep]

theorem eachStep_cons {guard : State → Label → Prop} {past : List (State × Label)} {s : State}
    {l : Label} : EachStep guard ((s, l) :: past) ↔ guard s l ∧ EachStep guard past := by
  simp [EachStep]

namespace Run

variable {T : System State Label} {past : List (State × Label)} {s : State}

theorem reachable (run : Run T past s) : Reachable T s := ⟨past, run⟩

/-- Every step a run lists was taken. -/
theorem defined (run : Run T past s) {p : State × Label} (mem : p ∈ past) :
    ∃ s', T.step p.1 p.2 = some s' := by
  induction run with
  | start => cases mem
  | next _ taken ih =>
      rcases List.mem_cons.mp mem with rfl | mem
      · exact ⟨_, taken⟩
      · exact ih mem

/-- The invariant rule: what holds at the start and is preserved by every step
holds in every state of a run. -/
theorem invariant (Inv : State → Prop) (start : Inv T.start)
    (step : ∀ s l s', Inv s → T.step s l = some s' → Inv s') (run : Run T past s) :
    Always Inv past s := by
  induction run with
  | start => exact always_nil.mpr start
  | next _ taken ih => exact always_cons.mpr ⟨step _ _ _ ih.1 taken, ih⟩

/-- The guarded invariant rule: in a run that meets `guard` at each step, what
every guarded step preserves holds in every state. -/
theorem guarded_invariant (Inv : State → Prop) (guard : State → Label → Prop)
    (start : Inv T.start)
    (step : ∀ s l s', Inv s → guard s l → T.step s l = some s' → Inv s')
    (run : Run T past s) (guarded : EachStep guard past) : Always Inv past s := by
  induction run with
  | start => exact always_nil.mpr start
  | next _ taken ih =>
      obtain ⟨here, before⟩ := eachStep_cons.mp guarded
      have ih := ih before
      exact always_cons.mpr ⟨step _ _ _ ih.1 here taken, ih⟩

/-- The exactness rule for states and steps. `Inv` is the auxiliary invariant the argument
needs; it has to survive only the steps that meet the guard. If, from a state with `Inv`
and `Good`, an allowed step is `kept` and leads to a `Good` state exactly when the guard
holds, then a run of allowed steps is `Good` throughout and `kept` at all its steps iff
these meet the guard. -/
theorem exact_kept (Inv Good : State → Prop) (allowed kept guard : State → Label → Prop)
    (start : Inv T.start ∧ Good T.start)
    (step : ∀ s l s', allowed s l → Inv s → Good s → T.step s l = some s' →
      (Good s' ∧ kept s l ↔ guard s l) ∧ (guard s l → Inv s'))
    (run : Run T past s) (within : EachStep allowed past) :
    Always Good past s ∧ EachStep kept past ↔ EachStep guard past := by
  suffices (Always Good past s ∧ EachStep kept past ↔ EachStep guard past) ∧
      (EachStep guard past → Inv s) from this.1
  induction run with
  | start =>
      exact ⟨iff_of_true ⟨always_nil.mpr start.2, eachStep_nil⟩ eachStep_nil, fun _ => start.1⟩
  | @next past s s' l _ taken ih =>
      obtain ⟨legal, within⟩ := eachStep_cons.mp within
      obtain ⟨same, inv⟩ := ih within
      refine ⟨⟨fun ⟨good, keeps⟩ => ?_, fun guarded => ?_⟩, fun guarded => ?_⟩
      · obtain ⟨after, before⟩ := always_cons.mp good
        obtain ⟨here, earlier⟩ := eachStep_cons.mp keeps
        have guarded := same.mp ⟨before, earlier⟩
        exact eachStep_cons.mpr
          ⟨(step s l s' legal (inv guarded) before.1 taken).1.mp ⟨after, here⟩, guarded⟩
      · obtain ⟨here, earlier⟩ := eachStep_cons.mp guarded
        obtain ⟨before, keeps⟩ := same.mpr earlier
        obtain ⟨after, keep⟩ := (step s l s' legal (inv earlier) before.1 taken).1.mpr here
        exact ⟨always_cons.mpr ⟨after, before⟩, eachStep_cons.mpr ⟨keep, keeps⟩⟩
      · obtain ⟨here, earlier⟩ := eachStep_cons.mp guarded
        exact (step s l s' legal (inv earlier) (same.mpr earlier).1.1 taken).2 here

/-- The exactness rule for states: a run of allowed steps is `Good` throughout iff all its
steps meet the guard. -/
theorem exact_within (Inv Good : State → Prop) (allowed guard : State → Label → Prop)
    (start : Inv T.start ∧ Good T.start)
    (step : ∀ s l s', allowed s l → Inv s → Good s → T.step s l = some s' →
      (Good s' ↔ guard s l) ∧ (guard s l → Inv s'))
    (run : Run T past s) (within : EachStep allowed past) :
    Always Good past s ↔ EachStep guard past := by
  have exact := run.exact_kept Inv Good allowed (fun _ _ => True) guard start
    (fun s l s' legal inv good taken => by
      simpa only [and_true] using step s l s' legal inv good taken) within
  simpa only [EachStep, implies_true, and_true] using exact

/-- The exactness rule where every step is allowed. -/
theorem exact (Inv Good : State → Prop) (guard : State → Label → Prop)
    (start : Inv T.start ∧ Good T.start)
    (step : ∀ s l s', Inv s → Good s → T.step s l = some s' →
      (Good s' ↔ guard s l) ∧ (guard s l → Inv s'))
    (run : Run T past s) : Always Good past s ↔ EachStep guard past :=
  run.exact_within Inv Good (fun _ _ => True) guard start
    (fun s l s' _ => step s l s') fun _ _ => trivial

end Run

namespace Reachable

variable {T : System State Label} {s : State}

theorem start : Reachable T T.start := ⟨[], .start⟩

theorem next {s' : State} {l : Label} (reach : Reachable T s) (taken : T.step s l = some s') :
    Reachable T s' := by
  obtain ⟨past, run⟩ := reach
  exact ⟨_, run.next taken⟩

/-- The invariant rule for reachable states. -/
theorem invariant (Inv : State → Prop) (start : Inv T.start)
    (step : ∀ s l s', Inv s → T.step s l = some s' → Inv s') (reach : Reachable T s) : Inv s := by
  obtain ⟨past, run⟩ := reach
  exact (run.invariant Inv start step).1

/-- The simulation rule. `R` relates the states of `T` to those of another system `U`. If
each step from a reachable state leaves it related as it was, or leads where a step of
`U` leads, then what `T` reaches is related to what `U` reaches. -/
theorem simulated {State' Label' : Type*} {U : System State' Label'} (R : State → State' → Prop)
    (start : R T.start U.start)
    (step : ∀ s l s' t, Reachable T s → R s t → T.step s l = some s' →
      R s' t ∨ ∃ l' t', U.step t l' = some t' ∧ R s' t')
    (reach : Reachable T s) : ∃ t, Reachable U t ∧ R s t := by
  obtain ⟨past, run⟩ := reach
  induction run with
  | start => exact ⟨U.start, .start, start⟩
  | next run taken ih =>
      obtain ⟨t, mid, related⟩ := ih
      rcases step _ _ _ t run.reachable related taken with still | ⟨l', t', moved, related'⟩
      · exact ⟨t, mid, still⟩
      · exact ⟨t', mid.next moved, related'⟩

end Reachable

/-! ### Executing a list of labels -/

/-- Run the labels from `s`, oldest first; `none` when one of them is refused. -/
def System.exec (T : System State Label) : State → List Label → Option State
  | s, [] => some s
  | s, l :: ls => (T.step s l).bind fun s' => T.exec s' ls

/-- Executing labels from a reachable state reaches a state. -/
theorem Reachable.exec {T : System State Label} {s s' : State} {labels : List Label}
    (reach : Reachable T s) (done : T.exec s labels = some s') : Reachable T s' := by
  induction labels generalizing s with
  | nil =>
      rw [System.exec, Option.some.injEq] at done
      exact done ▸ reach
  | cons l ls ih =>
      obtain ⟨mid, taken, rest⟩ := Option.bind_eq_some_iff.mp done
      exact ih (reach.next taken) rest

/-- Run the labels from `s` after `past`, and keep what a run lists. -/
def System.record (T : System State Label) :
    List (State × Label) → State → List Label → Option (List (State × Label) × State)
  | past, s, [] => some (past, s)
  | past, s, l :: ls => (T.step s l).bind fun s' => T.record ((s, l) :: past) s' ls

/-- What is recorded from a run is a run. -/
theorem Run.record {T : System State Label} {past past' : List (State × Label)} {s s' : State}
    {labels : List Label} (run : Run T past s)
    (done : T.record past s labels = some (past', s')) : Run T past' s' := by
  induction labels generalizing past s with
  | nil =>
      rw [System.record, Option.some.injEq, Prod.mk.injEq] at done
      exact done.1 ▸ done.2 ▸ run
  | cons l ls ih =>
      obtain ⟨mid, taken, rest⟩ := Option.bind_eq_some_iff.mp done
      exact ih (run.next taken) rest

instance {guard : State → Label → Prop} [∀ s l, Decidable (guard s l)]
    (past : List (State × Label)) : Decidable (EachStep guard past) :=
  inferInstanceAs (Decidable (∀ p ∈ past, guard p.1 p.2))

end ZmqPractices.Lib
