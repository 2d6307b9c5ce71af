import Mathlib.Data.List.Basic

/-!
CZMQ's `zlist`: a list of items with one cursor.

The cursor is the position `zlist_first` and `zlist_next` walk with. Removing
the item under it moves it to the predecessor, or leaves no cursor at the head;
`zlist_next` without a cursor starts again at the head. A loop that removes
while it walks therefore visits the item after the removed one next, which
`next_remove_head` states for the head.
-/

namespace ZmqPractices.Czmq

/-- A `zlist`: its items, and the index under the cursor if it has one. -/
structure ZList (α : Type*) where
  items : List α
  cursor : Option Nat
deriving DecidableEq, Repr

namespace ZList

variable {α : Type*}

/-- `zlist_new`. -/
def new : ZList α := ⟨[], none⟩

/-- `zlist_size`. -/
def size (list : ZList α) : Nat := list.items.length

/-- `zlist_first`: put the cursor on the head and return its item, or NULL. -/
def first (list : ZList α) : Option α × ZList α :=
  match list.items with
  | [] => (none, { list with cursor := none })
  | item :: _ => (some item, { list with cursor := some 0 })

/-- `zlist_next`: advance the cursor, from no cursor to the head. -/
def next (list : ZList α) : Option α × ZList α :=
  match list.cursor with
  | none => list.first
  | some i =>
      match list.items[i + 1]? with
      | none => (none, { list with cursor := none })
      | some item => (some item, { list with cursor := some (i + 1) })

/-- `zlist_append`: a new last item; the cursor is reset. -/
def append (list : ZList α) (item : α) : ZList α :=
  ⟨list.items ++ [item], none⟩

/-- `zlist_push`: a new first item; the cursor is reset. -/
def push (list : ZList α) (item : α) : ZList α :=
  ⟨item :: list.items, none⟩

/-- `zlist_pop`: take the head, or NULL; the cursor is reset. -/
def pop (list : ZList α) : Option α × ZList α :=
  match list.items with
  | [] => (none, ⟨[], none⟩)
  | item :: rest => (some item, ⟨rest, none⟩)

variable [DecidableEq α]

/-- Where the cursor goes when the item at index `removed` is unlinked. -/
def cursorAfterRemove (cursor : Option Nat) (removed : Nat) : Option Nat :=
  match cursor with
  | none => none
  | some i =>
      if i = removed then (if i = 0 then none else some (i - 1))
      else if removed < i then some (i - 1)
      else some i

/-- `zlist_remove`: unlink the first occurrence of the item. -/
def remove (list : ZList α) (item : α) : ZList α :=
  if item ∈ list.items then
    ⟨list.items.erase item, cursorAfterRemove list.cursor (list.items.idxOf item)⟩
  else list

omit [DecidableEq α] in
@[simp] theorem size_mk (items : List α) (cursor : Option Nat) :
    (mk items cursor).size = items.length := rfl

omit [DecidableEq α] in
@[simp] theorem items_append (list : ZList α) (item : α) :
    (list.append item).items = list.items ++ [item] := rfl

omit [DecidableEq α] in
@[simp] theorem items_push (list : ZList α) (item : α) :
    (list.push item).items = item :: list.items := rfl

/-- `zlist_remove` takes out the first occurrence, wherever the cursor is. -/
@[simp] theorem items_remove (list : ZList α) (item : α) :
    (list.remove item).items = list.items.erase item := by
  by_cases mem : item ∈ list.items
  · simp [remove, mem]
  · simp [remove, mem, List.erase_of_not_mem mem]

/-- Removing the head under the cursor leaves no cursor, so the walk goes on at
the new head. -/
theorem next_remove_head (item : α) (rest : List α) :
    ((mk (item :: rest) (some 0)).remove item).next = (mk rest none).first := by
  simp [remove, cursorAfterRemove, next]

end ZList

end ZmqPractices.Czmq
