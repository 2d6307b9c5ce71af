import Mathlib.Data.List.Basic

/-!
Messages that are received part by part.

A receive hands over the next part of the message it is at, and takes another message only
when there is no part left.
-/

namespace ZmqPractices.Lib

variable {Part Rest : Type*}

/-- The part that is handed over, the parts that are left of its message, and what is left of
the messages; `next` is what is received where a new message is needed. -/
def recvPart (parts : List Part) (next : Option (List Part × Rest)) (rest : Rest) :
    Option (Part × List Part × Rest) :=
  match parts with
  | part :: parts => some (part, parts, rest)
  | [] =>
      match next with
      | some (part :: parts, rest) => some (part, parts, rest)
      | _ => none

@[simp] theorem recvPart_cons (part : Part) (parts : List Part) (next : Option (List Part × Rest))
    (rest : Rest) : recvPart (part :: parts) next rest = some (part, parts, rest) := rfl

/-- Between two messages, the first part of the next one is handed over. -/
theorem recvPart_nil {next : Option (List Part × Rest)} {rest rest' : Rest} {part : Part}
    {parts : List Part} :
    recvPart [] next rest = some (part, parts, rest') ↔ next = some (part :: parts, rest') := by
  constructor
  · intro handed
    cases next with
    | none => cases handed
    | some message =>
        obtain ⟨parts', rest''⟩ := message
        cases parts' with
        | nil => cases handed
        | cons part' parts' =>
            cases handed
            rfl
  · rintro rfl
    rfl

end ZmqPractices.Lib
