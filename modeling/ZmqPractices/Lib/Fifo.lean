import ZmqPractices.Lib.Transition

/-!
Queues over a run.

A system keeps a queue: each step puts items at its end and takes items off its front. Over a
run, what entered the queue is, in order, what left it and what it still holds.
-/

namespace ZmqPractices.Lib

variable {State Label Item : Type*} {T : System State Label} {past : List (State × Label)}
  {s : State}

/-- What the steps of a run did, oldest first. -/
def collected (did : State → Label → List Item) (past : List (State × Label)) : List Item :=
  past.reverse.flatMap fun p => did p.1 p.2

theorem collected_cons (did : State → Label → List Item) (past : List (State × Label)) (s : State)
    (l : Label) : collected did ((s, l) :: past) = collected did past ++ did s l := by
  simp [collected]

/-- The queue rule. If each step from a state with `Inv` keeps it and only appends to the
queue and takes off its front, then what has left and what is held is what has entered. -/
theorem Run.fifo (Inv : State → Prop) (held : State → List Item)
    (enters leaves : State → Label → List Item) (start : Inv T.start ∧ held T.start = [])
    (step : ∀ s l s', Inv s → T.step s l = some s' →
      Inv s' ∧ held s ++ enters s l = leaves s l ++ held s')
    (run : Run T past s) :
    Inv s ∧ collected enters past = collected leaves past ++ held s := by
  induction run with
  | start => exact ⟨start.1, start.2.symm⟩
  | @next past s s' l run taken ih =>
      obtain ⟨inv, before⟩ := ih
      obtain ⟨inv', here⟩ := step s l s' inv taken
      refine ⟨inv', ?_⟩
      rw [collected_cons, collected_cons, before, List.append_assoc, List.append_assoc, here]

end ZmqPractices.Lib
