import ZmqPractices.Lib.Transition

/-!
One system that does in several steps what another does in one.

`seen` says which step of the coarse system a step of the fine one is, if it is one; the
other steps are hidden. An emulation follows the coarse system at every seen step and stays
at every hidden one, and from each state it can go on to any step the coarse system takes
there, through hidden steps that lower a rank. Then the two systems do the same:
`Emulation.exec_iff` says so of their runs, with the labels that are seen of them.
-/

namespace ZmqPractices.Lib

variable {State Label State' Label' : Type*}

/-- A step of `U`, or none. -/
def System.move (U : System State' Label') (t : State') : Option Label' → Option State'
  | none => some t
  | some k => U.step t k

theorem Reachable.move {U : System State' Label'} {t t' : State'} {k : Option Label'}
    (reach : Reachable U t) (moved : U.move t k = some t') : Reachable U t' := by
  cases k with
  | none =>
      obtain rfl := Option.some.inj moved
      exact reach
  | some k => exact reach.next moved

/-- What is seen of the labels that are executed from `s`. -/
def System.shown (T : System State Label) (seen : State → Label → Option Label') :
    State → List Label → List Label'
  | _, [] => []
  | s, l :: ls =>
      (seen s l).toList ++ (T.step s l).elim [] fun s' => T.shown seen s' ls

/-- `T` does what `U` does, and `view` and `seen` show it. -/
structure Emulation (T : System State Label) (U : System State' Label') (view : State → State')
    (seen : State → Label → Option Label') (rank : State → Label' → Nat) : Prop where
  start : view T.start = U.start
  follows : ∀ s l s', Reachable T s → T.step s l = some s' →
    U.move (view s) (seen s l) = some (view s')
  answers : ∀ s k t, Reachable T s → U.step (view s) k = some t →
    ∃ l s', T.step s l = some s' ∧
      (seen s l = some k ∨ seen s l = none ∧ rank s' k < rank s k)

namespace Emulation

variable {T : System State Label} {U : System State' Label'} {view : State → State'}
  {seen : State → Label → Option Label'} {rank : State → Label' → Nat} {s s' : State}
  {t : State'} {labels : List Label} {shown : List Label'}

/-- What is executed is executed by `U` as it is seen. -/
theorem exec_shown (emulation : Emulation T U view seen rank) (reach : Reachable T s)
    (done : T.exec s labels = some s') :
    U.exec (view s) (T.shown seen s labels) = some (view s') := by
  induction labels generalizing s with
  | nil =>
      obtain rfl := Option.some.inj done
      rfl
  | cons l labels ih =>
      obtain ⟨mid, taken, rest⟩ := Option.bind_eq_some_iff.mp done
      have rest := ih (reach.next taken) rest
      have here := emulation.follows s l mid reach taken
      rw [System.shown, taken, Option.elim_some]
      cases found : seen s l with
      | none =>
          rw [found, System.move, Option.some.injEq] at here
          rw [Option.toList_none, List.nil_append, here]
          exact rest
      | some k =>
          rw [found, System.move] at here
          rw [Option.toList_some, List.singleton_append, System.exec, here]
          exact rest

/-- A step of `U` is taken after hidden steps. -/
theorem step_shown (emulation : Emulation T U view seen rank) {k : Label'} (reach : Reachable T s)
    (taken : U.step (view s) k = some t) :
    ∃ labels s', T.exec s labels = some s' ∧ T.shown seen s labels = [k] ∧ view s' = t := by
  induction left : rank s k using Nat.strongRecOn generalizing s with
  | ind n ih =>
      obtain ⟨l, s', moved, shown | ⟨hidden, less⟩⟩ := emulation.answers s k t reach taken
      · have here := emulation.follows s l s' reach moved
        rw [shown, System.move, taken, Option.some.injEq] at here
        refine ⟨[l], s', ?_, ?_, here.symm⟩
        · rw [System.exec, moved]
          rfl
        · rw [System.shown, shown, moved]
          rfl
      · have here := emulation.follows s l s' reach moved
        rw [hidden, System.move, Option.some.injEq] at here
        obtain ⟨labels, s'', done, shown, same⟩ :=
          ih (rank s' k) (left ▸ less) (reach.next moved) (here ▸ taken) rfl
        refine ⟨l :: labels, s'', ?_, ?_, same⟩
        · rw [System.exec, moved]
          exact done
        · rw [System.shown, hidden, moved]
          exact shown

theorem exec_append (seen : State → Label → Option Label') (first second : List Label)
    (done : T.exec s first = some s') :
    T.exec s (first ++ second) = T.exec s' second ∧
      T.shown seen s (first ++ second) = T.shown seen s first ++ T.shown seen s' second := by
  induction first generalizing s with
  | nil =>
      obtain rfl := Option.some.inj done
      exact ⟨rfl, rfl⟩
  | cons l first ih =>
      obtain ⟨mid, taken, rest⟩ := Option.bind_eq_some_iff.mp done
      obtain ⟨after, shown⟩ := ih rest
      constructor
      · rw [List.cons_append, System.exec, taken]
        exact after
      · rw [List.cons_append, System.shown, System.shown, taken, Option.elim_some,
          Option.elim_some, shown, List.append_assoc]

/-- What `U` executes is seen of something that is executed. -/
theorem exec_of_shown (emulation : Emulation T U view seen rank) (reach : Reachable T s)
    (done : U.exec (view s) shown = some t) :
    ∃ labels s', T.exec s labels = some s' ∧ T.shown seen s labels = shown ∧ view s' = t := by
  induction shown generalizing s with
  | nil =>
      obtain rfl := Option.some.inj done
      exact ⟨[], s, rfl, rfl, rfl⟩
  | cons k shown ih =>
      obtain ⟨mid, taken, rest⟩ := Option.bind_eq_some_iff.mp done
      obtain ⟨first, s', ran, one, rfl⟩ := emulation.step_shown reach taken
      obtain ⟨second, s'', ran', more, same⟩ := ih (reach.exec ran) rest
      obtain ⟨after, both⟩ := exec_append seen first second ran
      exact ⟨first ++ second, s'', after.trans ran', by rw [both, one, more]; rfl, same⟩

/-- The runs of `U` are what is seen of the runs of `T`, and end in what is seen of where
these end. -/
theorem exec_iff (emulation : Emulation T U view seen rank) :
    U.exec U.start shown = some t ↔
      ∃ labels s, T.exec T.start labels = some s ∧ T.shown seen T.start labels = shown ∧
        view s = t := by
  rw [← emulation.start]
  refine ⟨emulation.exec_of_shown .start, ?_⟩
  rintro ⟨labels, s, done, rfl, rfl⟩
  exact emulation.exec_shown .start done

end Emulation

end ZmqPractices.Lib
