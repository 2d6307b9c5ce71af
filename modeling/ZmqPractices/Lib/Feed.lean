import Mathlib.Data.List.Infix
import ZmqPractices.Lib.Transition

/-!
Publishers and their subscribers.

A subscriber has connections, each of them to what one publisher says. What is said is
put on every connection to the publisher and heard from there, or lost. So what has been
heard from a connection, and what is left on it, is in order some of what was said
(`Feed.heardOn_sublist`).
-/

namespace ZmqPractices.Lib

variable {Pub Sub Item : Type*}

/-- What each publisher has said, what is on each connection, and what each subscriber has
heard, with the connection it came from; oldest first. -/
@[ext] structure Feed (Pub Sub Item : Type*) where
  said : Pub → List Item
  queue : Sub → Nat → List Item
  heard : Sub → List (Nat × Item)

inductive FeedStep (Pub Sub Item : Type*) where
  | publish (publisher : Pub) (item : Item)
  | take (subscriber : Sub) (connection : Nat)
  | lose (subscriber : Sub) (connection : Nat) (position : Nat)

namespace Feed

/-- What has been heard from a connection. -/
def heardOn (s : Feed Pub Sub Item) (subscriber : Sub) (connection : Nat) : List Item :=
  ((s.heard subscriber).filter fun p => p.1 = connection).map Prod.snd

variable [DecidableEq Pub] [DecidableEq Sub]

/-- Put items on one connection in the place of those that are there. -/
def setQueue (queue : Sub → Nat → List Item) (subscriber : Sub) (connection : Nat)
    (items : List Item) : Sub → Nat → List Item :=
  Function.update queue subscriber (Function.update (queue subscriber) connection items)

@[simp] theorem setQueue_self (queue : Sub → Nat → List Item) (subscriber : Sub)
    (connection : Nat) (items : List Item) :
    setQueue queue subscriber connection items subscriber connection = items := by
  rw [setQueue, Function.update_self, Function.update_self]

theorem setQueue_of_ne {queue : Sub → Nat → List Item} {subscriber subscriber' : Sub}
    {connection connection' : Nat} {items : List Item}
    (other : ¬ (subscriber' = subscriber ∧ connection' = connection)) :
    setQueue queue subscriber connection items subscriber' connection' =
      queue subscriber' connection' := by
  unfold setQueue
  by_cases same : subscriber' = subscriber
  · subst same
    rw [Function.update_self, Function.update_of_ne fun here => other ⟨rfl, here⟩]
  · rw [Function.update_of_ne same]

section

-- whose words a connection carries
variable (carries : Sub → Nat → Pub → Prop) [∀ q i p, Decidable (carries q i p)]

def step (s : Feed Pub Sub Item) : FeedStep Pub Sub Item → Option (Feed Pub Sub Item)
  | .publish publisher item =>
      some { s with
        said := Function.update s.said publisher (s.said publisher ++ [item])
        queue := fun q i => if carries q i publisher then s.queue q i ++ [item] else s.queue q i }
  | .take subscriber connection =>
      match s.queue subscriber connection with
      | [] => none
      | item :: items =>
          some { s with
            queue := setQueue s.queue subscriber connection items
            heard := Function.update s.heard subscriber
              (s.heard subscriber ++ [(connection, item)]) }
  | .lose subscriber connection position =>
      some { s with
        queue := setQueue s.queue subscriber connection
          ((s.queue subscriber connection).eraseIdx position) }

def system : System (Feed Pub Sub Item) (FeedStep Pub Sub Item) where
  start := ⟨fun _ => [], fun _ _ => [], fun _ => []⟩
  step := step carries

/-- Where a connection carries the words of one publisher at most, what was heard from it and
what is on it are some of them, in order; and nothing comes from a connection to nobody. -/
structure InOrder (s : Feed Pub Sub Item) : Prop where
  sublist : ∀ q i p, carries q i p → (s.heardOn q i ++ s.queue q i).Sublist (s.said p)
  silent : ∀ q i, (∀ p, ¬ carries q i p) → s.heardOn q i ++ s.queue q i = []

end

variable {carries : Sub → Nat → Pub → Prop} [∀ q i p, Decidable (carries q i p)]
  {s s' : Feed Pub Sub Item}

omit [DecidableEq Pub] in
theorem heardOn_take {subscriber : Sub} {connection : Nat} {item : Item} {items : List Item}
    (next : s.queue subscriber connection = item :: items) (q : Sub) (i : Nat) :
    let taken : Feed Pub Sub Item := { s with
      queue := setQueue s.queue subscriber connection items
      heard := Function.update s.heard subscriber (s.heard subscriber ++ [(connection, item)]) }
    taken.heardOn q i ++ taken.queue q i = s.heardOn q i ++ s.queue q i := by
  intro taken
  by_cases here : q = subscriber
  · subst here
    by_cases same : i = connection
    · subst same
      simp [taken, heardOn, next]
    · have other : ¬ (q = q ∧ i = connection) := fun both => same both.2
      simp [taken, heardOn, setQueue_of_ne other, Ne.symm same]
  · have other : ¬ (q = subscriber ∧ i = connection) := fun both => here both.1
    simp [taken, heardOn, setQueue_of_ne other, here]

theorem InOrder.step (unique : ∀ q i p p', carries q i p → carries q i p' → p = p')
    (inOrder : InOrder carries s) {l : FeedStep Pub Sub Item}
    (taken : Feed.step carries s l = some s') : InOrder carries s' := by
  cases l with
  | publish publisher item =>
      obtain rfl := Option.some.inj taken
      refine ⟨fun q i p carried => ?_, fun q i silent => ?_⟩
      · have before := inOrder.sublist q i p carried
        by_cases same : p = publisher
        · subst same
          simp only [carried, if_true, Function.update_self]
          rw [← List.append_assoc]
          exact before.append (List.Sublist.refl _)
        · have other : ¬ carries q i publisher := fun both =>
            same (unique q i p publisher carried both)
          simp only [other, if_false, Function.update_of_ne same]
          exact before
      · simp only [silent publisher, if_false]
        exact inOrder.silent q i silent
  | take subscriber connection =>
      simp only [Feed.step] at taken
      split at taken
      · cases taken
      · rename_i item items next
        obtain rfl := Option.some.inj taken
        refine ⟨fun q i p carried => ?_, fun q i silent => ?_⟩
        · rw [heardOn_take next q i]
          exact inOrder.sublist q i p carried
        · rw [heardOn_take next q i]
          exact inOrder.silent q i silent
  | lose subscriber connection position =>
      obtain rfl := Option.some.inj taken
      have fewer (q : Sub) (i : Nat) : (setQueue s.queue subscriber connection
          ((s.queue subscriber connection).eraseIdx position) q i).Sublist (s.queue q i) := by
        by_cases here : q = subscriber ∧ i = connection
        · obtain ⟨rfl, rfl⟩ := here
          rw [setQueue_self]
          exact List.eraseIdx_sublist _ _
        · rw [setQueue_of_ne here]
      refine ⟨fun q i p carried => ?_, fun q i silent => ?_⟩
      · exact ((List.Sublist.refl _).append (fewer q i)).trans (inOrder.sublist q i p carried)
      · have empty := inOrder.silent q i silent
        exact List.sublist_nil.mp (empty ▸ (List.Sublist.refl _).append (fewer q i))

theorem inOrder_of_reachable (unique : ∀ q i p p', carries q i p → carries q i p' → p = p')
    (reach : Reachable (system carries) s) : InOrder carries s :=
  reach.invariant (InOrder carries)
    ⟨fun _ _ _ _ => List.Sublist.refl _, fun _ _ _ => rfl⟩
    fun _ _ _ inOrder taken => inOrder.step unique taken

end Feed

end ZmqPractices.Lib
