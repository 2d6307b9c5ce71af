import ZmqPractices.Pirate.Queue
import ZmqPractices.SimplePirate.Queue

/-!
What a peer on the backend can do to the pirate queues with a message.

The backends are TCP sockets, so any frames may follow an identity. `zmsg_unwrap` takes
a second frame off when it is empty; what it leaves is looked at by `memcmp` on the
first byte. `spqueue.cpp` looks without a guard, `ppqueue.c` only where one frame is
left, but that frame may have no byte (`harmless_iff`).
-/

namespace ZmqPractices.Pirate

open Czmq

/-- The backend branch of `spqueue.cpp` survives a message that has a byte behind its
envelope. -/
theorem simple_survives_iff (q : SimplePirate.Queue) (identity frame : Frame) (frames : Msg) :
    (SimplePirate.backendMessage q (identity :: frame :: frames)).isSome ↔
      frame ≠ [] ∨ ∃ next rest, frames = next :: rest ∧ next ≠ [] := by
  simp only [SimplePirate.backendMessage, zmsgUnwrap_content, Option.isSome_map,
    SimplePirate.workerReady, isSome_memcmpData]
  by_cases empty : frame = []
  · simp [empty]
  · simp [empty]

/-- **Malformed messages are harmless but for the empty ones.** Whatever frames follow the
identity, the backend branch of `spqueue.cpp` takes a first frame that is there and
compares a byte that it contains if and only if the frame behind the identity is not
empty or the one after it is there and not empty; that of `ppqueue.c` if and only if
there are not exactly two empty frames. -/
theorem harmless_iff (clock : Nat → Nat) (simple : SimplePirate.Queue) (paranoid : Queue)
    (identity frame : Frame) (frames : Msg) :
    ((SimplePirate.backendMessage simple (identity :: frame :: frames)).isSome ↔
      frame ≠ [] ∨ ∃ next rest, frames = next :: rest ∧ next ≠ []) ∧
    ((backendBranch clock paranoid (identity :: frame :: frames)).isSome ↔
      ¬ (frame = [] ∧ frames = [[]])) :=
  ⟨simple_survives_iff simple identity frame frames,
    paranoid_survives_iff clock paranoid identity frame frames⟩

/-- An identity with one empty frame is the end of `spqueue.cpp`, one with two the end of
`ppqueue.c`. -/
theorem empty_frames_fatal :
    SimplePirate.backendMessage .start [[0x57], []] = none ∧
      backendBranch id (.start id) [[0x57], [], []] = none := by
  decide

end ZmqPractices.Pirate
