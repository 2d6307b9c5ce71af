import ZmqPractices.Czmq.Message

/-!
The two builds of the sources, and `zstr_send` in them.

Without `WIN32`, `zstr_send` takes a format, as `zstr_sendf` does with it (`czmq_fix.h`).
The sources call it with a text and no argument, so the text is sent as it is where it has
no percent sign, and only there.
-/

namespace ZmqPractices.Czmq

/-- The two builds, without and with `WIN32`. -/
inductive Build where
  | posix
  | windows
deriving DecidableEq, Repr

/-- What a format prints without arguments. `%%` prints a percent sign; `none` is any other
directive, for which C reads an argument that nobody has passed. -/
def formatted : Frame → Option Frame
  | [] => some []
  | byte :: rest =>
      if byte = 0x25 then
        match rest with
        | [] => none
        | directive :: rest =>
            if directive = 0x25 then (formatted rest).map (0x25 :: ·) else none
      else (formatted rest).map (byte :: ·)

/-- `zstr_send`: what goes on the wire. -/
def zstrSend : Build → Frame → Option Frame
  | .posix, string => formatted string
  | .windows, string => some string

example : formatted [0x41, 0x25, 0x25, 0x42] = some [0x41, 0x25, 0x42] := by decide

theorem formatted_of_not_mem {string : Frame} (plain : (0x25 : UInt8) ∉ string) :
    formatted string = some string := by
  induction string with
  | nil => rfl
  | cons byte rest ih =>
      obtain ⟨other, plain⟩ := not_or.mp (List.mem_cons.not.mp plain)
      unfold formatted
      rw [if_neg (Ne.symm other), ih plain]
      rfl

/-- What is printed is never longer than the format, and shorter where a percent sign is. -/
theorem length_of_formatted {string text : Frame} (printed : formatted string = some text) :
    text.length + (if (0x25 : UInt8) ∈ string then 1 else 0) ≤ string.length := by
  fun_induction formatted string generalizing text with
  | case1 =>
      obtain rfl := Option.some.inj printed
      simp
  | case2 => cases printed
  | case3 rest ih =>
      obtain ⟨rest', done, rfl⟩ := Option.map_eq_some_iff.mp printed
      have shorter := ih done
      simp only [List.length_cons, List.mem_cons, true_or, if_true]
      omega
  | case4 => cases printed
  | case5 byte rest other ih =>
      obtain ⟨rest', done, rfl⟩ := Option.map_eq_some_iff.mp printed
      have shorter := ih done
      simp only [List.length_cons, List.mem_cons, Ne.symm other, false_or]
      omega

/-- A text goes on the wire as it is exactly where it has no percent sign, or where
`zstr_send` takes no format. -/
theorem zstrSend_eq_self_iff {build : Build} {string : Frame} :
    zstrSend build string = some string ↔ (build = .posix → (0x25 : UInt8) ∉ string) := by
  cases build with
  | windows => simp [zstrSend]
  | posix =>
      refine ⟨fun same _ mem => ?_, fun plain => formatted_of_not_mem (plain rfl)⟩
      have shorter := length_of_formatted same
      rw [if_pos mem] at shorter
      omega

/-- A text that `zstr_send` sends as it is and `zstr_recv` does not cut. -/
structure Plain (text : Frame) : Prop where
  nulFree : NulFree text
  unformatted : (0x25 : UInt8) ∉ text

theorem Plain.zstrSend {text : Frame} (plain : Plain text) (build : Build) :
    zstrSend build text = some text :=
  zstrSend_eq_self_iff.mpr fun _ => plain.unformatted

theorem Plain.zstrRecv {text : Frame} (plain : Plain text) : zframeStrdup text = text :=
  zframeStrdup_of_nulFree plain.nulFree

end ZmqPractices.Czmq
