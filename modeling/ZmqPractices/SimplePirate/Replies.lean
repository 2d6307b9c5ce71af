import ZmqPractices.SimplePirate.Queue

/-!
Which replies the Simple Pirate queue forwards.

Behind the envelope a reply begins with the identity of its client, which the client
may choose. The queue looks at the first byte of that frame only, and takes every
reply whose client's identity begins with the byte of READY for READY.
-/

namespace ZmqPractices.SimplePirate

open Czmq Lib

variable {q : Queue} {identity : Frame} {frames : Msg}

/-- A message of a worker is taken in as READY when that is all there is behind the
envelope, and otherwise goes to the frontend as it is. -/
def Relayed (q : Queue) (identity : Frame) (frames : Msg) : Prop :=
  (backendMessage q (identity :: [] :: frames)).map Prod.snd =
    some (if frames = [workerReady] then none else some (.frontend frames))

/-- Behind the envelope there is READY alone, or a frame that does not begin like it. -/
def ToldApart (frames : Msg) : Prop :=
  frames = [workerReady] ∨ ∃ byte bytes rest, frames = (byte :: bytes) :: rest ∧ byte ≠ 1

/-- What the queue sends on for a message of a worker: nothing when the first byte behind
the envelope is that of READY. -/
theorem backendMessage_envelope (byte : UInt8) (bytes : Frame) (rest : Msg) :
    (backendMessage q (identity :: [] :: (byte :: bytes) :: rest)).map Prod.snd =
      some (if byte = 1 then none else some (.frontend ((byte :: bytes) :: rest))) := by
  have compared : memcmpData (some (byte :: bytes)) workerReady = some (byte == 1) :=
    memcmpData_byte.mpr ⟨byte, bytes, rfl, rfl⟩
  simp [backendMessage, zmsgFirst, compared]

/-- **Replies are relayed when they are told apart by a byte.** Whatever follows the
envelope of a worker's message, the queue takes it in as READY exactly when it is, and
sends it on unchanged otherwise, if and only if it is READY or its first frame begins
with another byte. -/
theorem relayed_iff (q : Queue) (identity : Frame) (frames : Msg) :
    Relayed q identity frames ↔ ToldApart frames := by
  match frames with
  | [] =>
      apply iff_of_false
      · rintro ⟨⟩
      · rintro (ready | ⟨_, _, _, ⟨⟩, _⟩)
        simp [workerReady] at ready
  | [] :: rest =>
      apply iff_of_false
      · rintro ⟨⟩
      · rintro (ready | ⟨_, _, _, ⟨⟩, _⟩)
        simp [workerReady] at ready
  | (byte :: bytes) :: rest =>
      rw [Relayed, backendMessage_envelope]
      by_cases begins : byte = 1
      · subst begins
        by_cases signal : (1 :: bytes) :: rest = [workerReady]
        · simp [ToldApart, signal]
        · simp [ToldApart, signal]
      · have other : (byte :: bytes) :: rest ≠ [workerReady] := by
          rintro ⟨⟩
          exact begins rfl
        simp [ToldApart, begins, other]

/-- A client names itself `01 43`: the reply to its request goes nowhere. -/
theorem reply_swallowed :
    ¬ Relayed .start [0x57] [[0x01, 0x43], [], [0x71]] ∧
      backendMessage .start [[0x57], [], [0x01, 0x43], [], [0x71]] =
        some (⟨⟨[[0x57]], none⟩, [[0x57]]⟩, none) := by
  refine ⟨fun relayed => ?_, by decide⟩
  have sent : some (none : Option Output) = some (some _) := relayed
  cases sent

end ZmqPractices.SimplePirate
