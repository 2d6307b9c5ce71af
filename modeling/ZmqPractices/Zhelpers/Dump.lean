import ZmqPractices.Czmq.Message
import ZmqPractices.Lib.Printed

/-!
What `s_dump` prints (`zhelpers.h`).

Each part of a message is a line: its size, and its bytes as they are if all of them can be
printed, or two hexadecimal digits for each. A line does not say which of the two it is, but
its length beside the size does: so the message can be read off what was printed.
-/

namespace ZmqPractices.Zhelpers

open Czmq Lib

/-- `is_text`. -/
def isText (data : Frame) : Bool := data.all fun byte => 32 ≤ byte && byte ≤ 127

/-- The message as text or binary. -/
def dumpData (data : Frame) : List UInt8 := if isText data then data else zframeStrhex data

/-- `[%03d] `, the data and a new line. -/
def dumpPart (data : Frame) : List UInt8 :=
  0x5b :: padded 3 10 data.length ++ 0x5d :: 0x20 :: dumpData data ++ [0x0a]

/-- A line of forty dashes, and then all parts of the message. -/
def sDump (msg : Msg) : List UInt8 :=
  List.replicate 40 0x2d ++ 0x0a :: msg.flatMap dumpPart

/-! ### Lines -/

theorem hexDigit_lt {n : UInt8} (lt : n.toNat < 16) :
    hexDigit n ≠ 0x0a ∧ ∀ m : UInt8, m.toNat < 16 → hexDigit n = hexDigit m → n = m := by
  have bytes : ∀ a : Fin 16, hexDigit (UInt8.ofNat a) ≠ 0x0a ∧
      ∀ b : Fin 16, hexDigit (UInt8.ofNat a) = hexDigit (UInt8.ofNat b) → a = b := by decide
  have small (k : UInt8) (bound : k.toNat < 16) : ∃ a : Fin 16, k = UInt8.ofNat a :=
    ⟨⟨k.toNat, bound⟩, (UInt8.ofNat_toNat).symm⟩
  obtain ⟨a, rfl⟩ := small n lt
  refine ⟨(bytes a).1, fun m bound same => ?_⟩
  obtain ⟨b, rfl⟩ := small m bound
  rw [(bytes a).2 b same]

theorem div_lt (byte : UInt8) : (byte / 16).toNat < 16 := by
  rw [UInt8.toNat_div]
  have := byte.toNat_lt
  exact Nat.div_lt_of_lt_mul this

theorem mod_lt (byte : UInt8) : (byte % 16).toNat < 16 := by
  rw [UInt8.toNat_mod]
  exact Nat.mod_lt _ (by decide)

theorem length_zframeStrhex (data : Frame) : (zframeStrhex data).length = 2 * data.length := by
  induction data with
  | nil => rfl
  | cons byte data ih =>
      rw [zframeStrhex, List.flatMap_cons, List.length_append, List.length_cons, ← zframeStrhex, ih]
      simp only [List.length_cons, List.length_nil]
      omega

/-- The hexadecimal digits determine the bytes. -/
theorem zframeStrhex_injective {data data' : Frame}
    (same : zframeStrhex data = zframeStrhex data') :
    data = data' := by
  induction data generalizing data' with
  | nil =>
      cases data' with
      | nil => rfl
      | cons byte data =>
          exact absurd (congrArg List.length same) (by simp [zframeStrhex])
  | cons byte data ih =>
      cases data' with
      | nil => exact absurd (congrArg List.length same) (by simp [zframeStrhex])
      | cons byte' data' =>
          obtain ⟨high, rest⟩ := List.cons.inj same
          obtain ⟨low, rest⟩ := List.cons.inj rest
          have high := (hexDigit_lt (div_lt byte)).2 _ (div_lt byte') high
          have low := (hexDigit_lt (mod_lt byte)).2 _ (mod_lt byte') low
          have value : byte = byte' := by
            apply UInt8.toNat_inj.mp
            have high := congrArg UInt8.toNat high
            have low := congrArg UInt8.toNat low
            rw [UInt8.toNat_div, UInt8.toNat_div] at high
            rw [UInt8.toNat_mod, UInt8.toNat_mod] at low
            rw [← Nat.div_add_mod byte.toNat 16, ← Nat.div_add_mod byte'.toNat 16]
            exact congrArg₂ (fun q r => 16 * q + r) high low
          rw [value, ih rest]

/-- There is no new line in what is printed of a part. -/
theorem newline_not_mem_dumpData (data : Frame) : 0x0a ∉ dumpData data := by
  intro mem
  unfold dumpData at mem
  split at mem
  · rename_i text
    have printable := List.all_eq_true.mp text 0x0a mem
    exact absurd printable (by decide)
  · obtain ⟨byte, -, digit⟩ := List.mem_flatMap.mp mem
    rcases List.mem_cons.mp digit with high | low
    · exact (hexDigit_lt (div_lt byte)).1 high.symm
    · exact (hexDigit_lt (mod_lt byte)).1 (List.mem_singleton.mp low).symm

/-- Text and binary of one size are of different lengths. -/
theorem dumpData_injective {data data' : Frame} (size : data.length = data'.length)
    (same : dumpData data = dumpData data') : data = data' := by
  have lengths := congrArg List.length same
  unfold dumpData at same lengths
  split at same <;> split at same
  · exact same
  · rename_i text binary
    rw [if_pos text, if_neg binary, length_zframeStrhex] at lengths
    have empty : data' = [] := List.length_eq_zero_iff.mp (by omega)
    exact absurd (empty ▸ rfl) binary
  · rename_i binary text
    rw [if_neg binary, if_pos text, length_zframeStrhex] at lengths
    have empty : data = [] := List.length_eq_zero_iff.mp (by omega)
    exact absurd (empty ▸ rfl) binary
  · exact zframeStrhex_injective same

/-! ### Messages -/

/-- Two texts that are the same are the same up to their first new lines, and behind them. -/
theorem append_newline_inj {line line' rest rest' : List UInt8} (one : 0x0a ∉ line)
    (one' : 0x0a ∉ line') (same : line ++ 0x0a :: rest = line' ++ 0x0a :: rest') :
    line = line' ∧ rest = rest' := by
  induction line generalizing line' with
  | nil =>
      cases line' with
      | nil => exact ⟨rfl, (List.cons.inj same).2⟩
      | cons byte line' =>
          exact absurd ((List.cons.inj same).1 ▸ List.mem_cons_self) one'
  | cons byte line ih =>
      cases line' with
      | nil => exact absurd ((List.cons.inj same).1 ▸ List.mem_cons_self) one
      | cons byte' line' =>
          obtain ⟨rfl, tails⟩ := List.cons.inj same
          obtain ⟨rfl, rest⟩ := ih (fun mem => one (List.mem_cons_of_mem _ mem))
            (fun mem => one' (List.mem_cons_of_mem _ mem)) tails
          exact ⟨rfl, rest⟩

/-- The size ends at its bracket and the data at its new line. -/
theorem dumpPart_append_inj {data data' : Frame} {rest rest' : List UInt8}
    (same : dumpPart data ++ rest = dumpPart data' ++ rest') : data = data' ∧ rest = rest' := by
  have opened : padded 3 10 data.length ++ 0x5d :: 0x20 :: (dumpData data ++ 0x0a :: rest) =
      padded 3 10 data'.length ++ 0x5d :: 0x20 :: (dumpData data' ++ 0x0a :: rest') := by
    simpa [dumpPart] using same
  obtain ⟨size, line⟩ := padded_append_injective (by decide) opened
  obtain ⟨printed, rest⟩ := append_newline_inj (newline_not_mem_dumpData data)
    (newline_not_mem_dumpData data') (List.cons.inj line).2
  exact ⟨dumpData_injective size printed, rest⟩

/-- The parts of a message end where no bracket follows. -/
theorem dumpParts_append_inj {msg msg' : Msg} {rest rest' : List UInt8}
    (ends : rest.head? ≠ some 0x5b) (ends' : rest'.head? ≠ some 0x5b)
    (same : msg.flatMap dumpPart ++ rest = msg'.flatMap dumpPart ++ rest') :
    msg = msg' ∧ rest = rest' := by
  induction msg generalizing msg' with
  | nil =>
      cases msg' with
      | nil => exact ⟨rfl, same⟩
      | cons data msg' =>
          have opens : rest.head? = some 0x5b := congrArg List.head? same
          exact absurd opens ends
  | cons data msg ih =>
      cases msg' with
      | nil =>
          have opens : rest'.head? = some 0x5b := congrArg List.head? same.symm
          exact absurd opens ends'
      | cons data' msg' =>
          rw [List.flatMap_cons, List.flatMap_cons, List.append_assoc, List.append_assoc] at same
          obtain ⟨rfl, tails⟩ := dumpPart_append_inj same
          obtain ⟨rfl, rest⟩ := ih tails
          exact ⟨rfl, rest⟩

/-- What a run prints of its messages begins with a dash, when there is a message. -/
theorem head_dumps (msgs : List Msg) : (msgs.flatMap sDump).head? ≠ some 0x5b := by
  cases msgs with
  | nil => exact Option.some_ne_none _ ∘ Eq.symm
  | cons msg msgs => simp [sDump, List.replicate]

/-- **The messages can be read off what is printed of them.** Whatever bytes they hold, text
or binary, and however many parts: two runs of messages are printed alike only if they are the
same messages with the same parts. -/
theorem dumps_inj (msgs msgs' : List Msg) :
    msgs.flatMap sDump = msgs'.flatMap sDump ↔ msgs = msgs' := by
  refine ⟨fun same => ?_, congrArg _⟩
  induction msgs generalizing msgs' with
  | nil =>
      cases msgs' with
      | nil => rfl
      | cons msg msgs' => exact absurd (congrArg List.length same) (by simp [sDump])
  | cons msg msgs ih =>
      cases msgs' with
      | nil => exact absurd (congrArg List.length same) (by simp [sDump])
      | cons msg' msgs' =>
          rw [List.flatMap_cons, List.flatMap_cons, sDump, sDump, List.append_assoc,
            List.append_assoc] at same
          have parts := (List.cons.inj (List.append_cancel_left same)).2
          obtain ⟨rfl, rest⟩ := dumpParts_append_inj (head_dumps msgs) (head_dumps msgs') parts
          rw [ih msgs' rest]

/-- A part of one byte that is no text is printed like none that is. -/
example : dumpPart [0x01] = [0x5b, 0x30, 0x30, 0x31, 0x5d, 0x20, 0x30, 0x31, 0x0a] := by decide

end ZmqPractices.Zhelpers
