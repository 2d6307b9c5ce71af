import Mathlib.Data.List.TakeWhile

/-!
Frames, C strings and multipart messages, as CZMQ's `zframe` and `zmsg` handle
them.

A frame is its bytes; a message is its frames, first one first; a socket
identity is a frame. Strings in the sources are C strings, so a frame becomes a
string by being cut at its first NUL (`zframeStrdup`), and two strings are equal
when their bytes before the NUL are. A pointer that may be NULL is an `Option`.
-/

namespace ZmqPractices.Czmq

/-- The bytes of one frame. -/
abbrev Frame := List UInt8

/-- A multipart message. -/
abbrev Msg := List Frame

instance instDecidableMemFrames (frame : Frame) (frames : List Frame) :
    Decidable (frame ∈ frames) :=
  inferInstance

/-! ### Frames -/

/-- `zframe_strdup`: the frame's bytes as a C string, which ends at the first NUL. -/
def zframeStrdup (frame : Frame) : Frame :=
  frame.takeWhile (· ≠ 0)

/-- `streq` on two C strings. -/
def streq (a b : Frame) : Bool := a == b

/-- `zframe_streq`: the frame holds exactly the string's bytes. -/
def zframeStreq (frame string : Frame) : Bool := frame == string

/-- `memcmp (zframe_data (frame), prefix, n) == 0` on a frame of at least `n`
bytes, guarded by `zframe_size (frame) >= n` as the sources guard it. -/
def startsWith (frame bytes : Frame) : Bool := bytes.isPrefixOf frame

/-- `memcmp (zframe_data (frame), bytes, n) == 0` without such a guard: `none` where it
would read through NULL or past the end of the frame. -/
def memcmpData (frame : Option Frame) (bytes : Frame) : Option Bool :=
  match frame with
  | none => none
  | some frame => if bytes.length ≤ frame.length then some (startsWith frame bytes) else none

/-- The upper-case digit that stands for `n < 16`. -/
def hexDigit (n : UInt8) : UInt8 := if n < 10 then 0x30 + n else 0x37 + n

/-- `zframe_strhex`: two hexadecimal digits per byte, as a C string. -/
def zframeStrhex (frame : Frame) : Frame :=
  frame.flatMap fun byte => [hexDigit (byte / 16), hexDigit (byte % 16)]

/-- A C string has no NUL among its bytes. -/
def NulFree (frame : Frame) : Prop := (0 : UInt8) ∉ frame

instance (frame : Frame) : Decidable (NulFree frame) :=
  inferInstanceAs (Decidable (_ ∉ _))

@[simp] theorem streq_iff {a b : Frame} : streq a b = true ↔ a = b := by
  simp [streq]

@[simp] theorem zframeStreq_iff {frame string : Frame} :
    zframeStreq frame string = true ↔ frame = string := by
  simp [zframeStreq]

/-- A comparison of one byte is defined on a frame that has one. -/
theorem memcmpData_byte {frame : Option Frame} {byte : UInt8} {same : Bool} :
    memcmpData frame [byte] = some same ↔
      ∃ first rest, frame = some (first :: rest) ∧ same = (first == byte) := by
  match frame with
  | none => simp [memcmpData]
  | some [] => simp [memcmpData]
  | some (first :: rest) =>
      simp only [memcmpData, startsWith, List.length_cons, List.length_nil, Nat.zero_add,
        Nat.le_add_left, if_true, List.isPrefixOf, Bool.and_true, Option.some.injEq]
      constructor
      · rintro rfl
        exact ⟨first, rest, rfl, Bool.beq_comm⟩
      · rintro ⟨_, _, ⟨⟩, rfl⟩
        exact Bool.beq_comm

/-- A frame without NUL bytes is its own string. -/
theorem zframeStrdup_of_nulFree {frame : Frame} (nulFree : NulFree frame) :
    zframeStrdup frame = frame := by
  apply List.takeWhile_eq_self_iff.mpr
  intro byte mem
  have : byte ≠ 0 := fun zero => nulFree (zero ▸ mem)
  simpa using this

/-! ### Messages -/

/-- `zmsg_size`: the number of frames. -/
def zmsgSize (msg : Msg) : Nat := msg.length

/-- `zmsg_pop`: the first frame, or NULL, and what is left. -/
def zmsgPop : Msg → Option Frame × Msg
  | [] => (none, [])
  | frame :: rest => (some frame, rest)

/-- `zmsg_first`: the first frame, or NULL. -/
def zmsgFirst (msg : Msg) : Option Frame := msg.head?

/-- `zmsg_push`, `zmsg_pushmem` and `zmsg_pushstr`: a new first frame. -/
def zmsgPush (msg : Msg) (frame : Frame) : Msg := frame :: msg

/-- `zmsg_wrap`: push an empty frame, then the given one. -/
def zmsgWrap (msg : Msg) (frame : Frame) : Msg :=
  zmsgPush (zmsgPush msg []) frame

/-- `zmsg_unwrap`: pop the first frame, and the one after it when that is empty. -/
def zmsgUnwrap (msg : Msg) : Option Frame × Msg :=
  match zmsgPop msg with
  | (frame, [] :: rest) => (frame, rest)
  | (frame, rest) => (frame, rest)

@[simp] theorem zmsgSize_cons (frame : Frame) (msg : Msg) :
    zmsgSize (frame :: msg) = zmsgSize msg + 1 := rfl

@[simp] theorem zmsgPop_cons (frame : Frame) (msg : Msg) :
    zmsgPop (frame :: msg) = (some frame, msg) := rfl

@[simp] theorem zmsgUnwrap_empty_delimiter (frame : Frame) (msg : Msg) :
    zmsgUnwrap (frame :: [] :: msg) = (some frame, msg) := rfl

@[simp] theorem zmsgUnwrap_cons_cons (frame : Frame) (byte : UInt8) (bytes : Frame) (msg : Msg) :
    zmsgUnwrap (frame :: (byte :: bytes) :: msg) = (some frame, (byte :: bytes) :: msg) := rfl

/-- Unwrapping inverts wrapping, whatever the message. -/
theorem zmsgUnwrap_zmsgWrap (msg : Msg) (frame : Frame) :
    zmsgUnwrap (zmsgWrap msg frame) = (some frame, msg) := rfl

/-- `zmsg_unwrap` gives the first frame of every message that has one. -/
theorem zmsgUnwrap_cons (frame : Frame) (msg : Msg) :
    ∃ content, zmsgUnwrap (frame :: msg) = (some frame, content) := by
  match msg with
  | [] => exact ⟨[], rfl⟩
  | [] :: rest => exact ⟨rest, rfl⟩
  | (byte :: bytes) :: rest => exact ⟨(byte :: bytes) :: rest, rfl⟩

end ZmqPractices.Czmq
